import Mathlib.Data.List.Sort
import Templar.Near.Callbacks

/-!
# Public calls of the NEAR vault

The calls of users, allocators and governance. A caller without the role a call asks for is
refused before anything happens, so the calls are those of callers who have it; a change that
waits for its timelock is the call that applies it in the end.
-/

namespace Templar.Near

open Checked Vault Curator

variable {A : Type}

inductive AllocationDelta where
  | supply (market amount : Nat)
  | withdraw (market amount : Nat)
  deriving DecidableEq, Repr

/-- Changes of the configuration. Those of caps, groups and the queue need an idle vault. -/
inductive TimelockedAction (A : Type) where
  | feesChange (fees : FeesSpec A)
  | restrictionsChange (restrictions : Option (Restrictions A))
  | capChange (market : A) (newCap : Nat)
  | capGroupChange (capGroup : String) (newCap : Option Nat)
  | capGroupRelativeCapChange (capGroup : String) (newRelativeCap : Option Nat)
  | capGroupMembership (market : Nat) (capGroup : Option String)
  deriving DecidableEq, Repr

inductive Call (A : Type) where
  | ftTransfer (receiver : A) (amount : Nat)
  | ftOnTransfer (sender : A) (amount : Nat)
  | withdraw (amount : Nat) (receiver : A)
  | redeem (shares : Nat) (receiver : A)
  | executeWithdrawal (route : List Nat)
  | executeMarketWithdrawal (opId market : Nat)
  | executeRebalanceWithdrawal (market : Nat)
  | refreshMarkets (markets : List Nat)
  | resyncIdleBalance
  | unbrick
  | allocate (delta : AllocationDelta)
  | setSupplyQueue (markets : List Nat)
  | submitCap (market : A)
  | applyChange (action : TimelockedAction A)
  deriving DecidableEq, Repr

def maxManagementFeeWad : Nat := Wad.scale / 100 * 5

def maxPerformanceFeeWad : Nat := Wad.scale / 100 * 50

def maxQueueLen : Nat := 64

/-- The action a forced recovery takes for an operation. A payout is taken to have failed. -/
def determineRecoveryAction : OpState A → Option (KernelAction A)
  | .idle => none
  | .allocating s => some (.abortAllocating s.opId)
  | .withdrawing s => some (.abortWithdrawing s.opId)
  | .refreshing s => some (.abortRefreshing s.opId)
  | .payout s => some (.settlePayout s.opId .failure)

def defaultRefreshCooldownNs : Nat := 30000000000

def defaultIdleResyncCooldownNs : Nat := 120000000000

def defaultCooldownNs : Nat := 60 * 60 * 1000000000

structure VaultConfiguration (A : Type) where
  restrictions : Option (Restrictions A)
  fees : FeesSpec A
  refreshCooldownNs : Option Nat
  idleResyncCooldownNs : Option Nat
  withdrawalCooldownNs : Option Nat
  deriving DecidableEq, Repr

namespace Contract

def new (env : Env A) (configuration : VaultConfiguration A) : Outcome (Contract A) := do
  require (configuration.fees.management.feeWad ≤ maxManagementFeeWad) "management fee too high"
  require (configuration.fees.performance.feeWad ≤ maxPerformanceFeeWad) "performance fee too high"
  return {
    fees := configuration.fees
    feeAnchor := ⟨0, env.blockTimestamp⟩
    markets := ∅
    marketIds := ∅
    capGroups := ∅
    nextMarketId := 0
    supplyQueue := []
    virtualShares := 1
    virtualAssets := 1
    idleBalance := 0
    opState := .idle
    nextOpId := 1
    lastRefreshNs := 0
    refreshCooldownNs := configuration.refreshCooldownNs.getD defaultRefreshCooldownNs
    withdrawalCooldownNs := configuration.withdrawalCooldownNs.getD defaultCooldownNs
    idleResyncLastNs := 0
    idleResyncCooldownNs := configuration.idleResyncCooldownNs.getD defaultIdleResyncCooldownNs
    idleResyncInflightOpId := 0
    withdrawQueue := .new
    marketExecutionLock := .new
    withdrawRoute := []
    gate := ⟨decide (∃ r ∈ configuration.restrictions, r.isPaused = true), configuration.restrictions⟩
    shares := ∅ }

/-- Whether fees have to be charged before the fees change. -/
def feesChangeAccrues [DecidableEq A] (c : Contract A) (fees : FeesSpec A) : Bool :=
  decide (fees.performance.feeWad ≠ c.fees.performance.feeWad ∨
    fees.management.feeWad ≠ c.fees.management.feeWad ∨
    fees.maxTotalAssetsGrowthRate ≠ c.fees.maxTotalAssetsGrowthRate ∨
    (c.fees.hasActiveSlotFees = true ∧
      (fees.performance.recipient ≠ c.fees.performance.recipient ∨
        fees.management.recipient ≠ c.fees.management.recipient)))

variable (c : Contract A)

def currentRestrictions : Option (Restrictions A) :=
  if c.gate.paused then some .paused else c.gate.restrictions

def updateCapGroup (capGroup : String) (f : CapGroup → CapGroup) : Contract A :=
  let record := (c.capGroups.lookup capGroup).getD defaultCapGroupRecord
  { c with capGroups := c.capGroups.insert capGroup { record with cap := f record.cap } }

def updateCapGroupPrincipalIfAny (capGroup : Option String) (old new : Nat) : Contract A :=
  match capGroup with
  | some capGroup => c.updateCapGroupPrincipal capGroup old new
  | none => c

variable [DecidableEq A]

variable (env : Env A) (c : Contract A)

def ensureMarketRecord (market : A) : Outcome (Contract A × Nat) :=
  match c.marketIds.lookup market with
  | some id => .ok (c, id)
  | none => do
    let next ← expect "market id overflow" (checkedAdd 32 c.nextMarketId 1)
    return ({ c with
      nextMarketId := next
      marketIds := c.marketIds.insert market c.nextMarketId
      markets := c.markets.insert c.nextMarketId (.new market) }, c.nextMarketId)

def applyFeesChange (fees : FeesSpec A) : Outcome (Contract A) := do
  require (fees.performance.feeWad ≤ maxPerformanceFeeWad) "performance fee too high"
  require (fees.management.feeWad ≤ maxManagementFeeWad) "management fee too high"
  require (fees ≠ c.fees) "No fee changes"
  let c ← (if c.feesChangeAccrues fees then c.internalAccrueFee env else .ok c)
  return { c with fees := fees }

def applyRestrictionsChange (restrictions : Option (Restrictions A)) : Outcome (Contract A) := do
  require (restrictions ≠ c.currentRestrictions) "No restriction changes"
  return { c with gate :=
    ⟨decide (restrictions = some .paused), restrictions.filter (fun r => r ≠ .paused)⟩ }

def applyCapChange (market : A) (newCap : Nat) : Outcome (Contract A) := do
  c.ensureIdle
  let (c, marketId) ← c.ensureMarketRecord market
  let rec ← expect "Config not found" (c.markets.lookup marketId)
  return { c with markets := c.markets.insert marketId { rec with cfg := { rec.cfg with cap := newCap } } }

def applyCapGroupMembership (market : Nat) (capGroup : Option String) : Outcome (Contract A) := do
  c.ensureIdle
  let rec ← expect ("Unknown market: " ++ toString market) (c.markets.lookup market)
  if rec.cfg.capGroupId = capGroup then return c
  else
    let c := c.updateCapGroupPrincipalIfAny rec.cfg.capGroupId rec.principal 0
    let c := c.updateCapGroupPrincipalIfAny capGroup 0 rec.principal
    return { c with
      markets := c.markets.insert market { rec with cfg := { rec.cfg with capGroupId := capGroup } } }

def applyImmediately : TimelockedAction A → Outcome (Contract A)
  | .feesChange fees => c.applyFeesChange env fees
  | .restrictionsChange restrictions => c.applyRestrictionsChange restrictions
  | .capChange market newCap => c.applyCapChange market newCap
  | .capGroupChange capGroup newCap => do
    c.ensureIdle
    return c.updateCapGroup capGroup (fun g => { g with absoluteCap := newCap })
  | .capGroupRelativeCapChange capGroup newRelativeCap => do
    c.ensureIdle
    require (∀ cap ∈ newRelativeCap, cap ≤ Wad.scale) "relative cap too high"
    return c.updateCapGroup capGroup (fun g => { g with relativeCap := newRelativeCap })
  | .capGroupMembership market capGroup => c.applyCapGroupMembership market capGroup

/-- A market has its record before its first cap is set. -/
def submitCap (market : A) : Outcome (Contract A) := do
  let (created, _) ← c.ensureMarketRecord market
  c.ensureIdle
  return created

def setSupplyQueue (markets : List Nat) : Outcome (Contract A) := do
  c.ensureIdle
  require (markets.length ≤ maxQueueLen) "too long"
  match findFirstDuplicate markets with
  | some dup => .error (.message ("Duplicate market in supply queue: " ++ toString dup))
  | none => do
    require (∀ m ∈ markets, (c.markets.lookup m).isSome = true) "Unknown market id"
    require (∀ m ∈ markets, ∀ rec ∈ c.markets.lookup m, 0 < rec.cfg.cap) "unauthorized market"
    return { c with supplyQueue := markets }

def applyKernelEffect (c : Contract A) : KernelEffect A → Outcome (Contract A)
  | .mintShares owner shares => do
    require (c.totalSupply + shares < 2 ^ 128) "MintFailed"
    return { c with shares := c.shares.mint owner shares }
  | .burnShares owner shares => do
    let ledger ← expect "BurnFailed" (c.shares.burn owner shares)
    return { c with shares := ledger }
  | .burnSharesFrom _ owner shares => do
    let ledger ← expect "BurnFailed" (c.shares.burn owner shares)
    return { c with shares := ledger }
  | .transferShares source target shares => do
    let ledger ← expect "TransferFailed" (c.shares.transfer source target shares)
    return { c with shares := ledger }
  -- assets move in the contract's own flows
  | _ => .ok c

def applyKernelEffects (c : Contract A) (effects : List (KernelEffect A)) : Outcome (Contract A) :=
  effects.foldlM applyKernelEffect c

/-- A deposit returns what is refunded. -/
def executeSupply (sender : A) (deposit : Nat) : Outcome (Contract A × Nat) := do
  require (0 < deposit) "Deposit amount must be greater than zero"
  require (c.isPayout = false) "Cannot deposit during payout"
  require (c.idleResyncInflightOpId = 0) "Cannot deposit during idle resync"
  let c ← c.internalAccrueFee env
  let accept := min deposit c.getMaxDeposit
  if accept = 0 then return (c, deposit)
  else
    let result ← orPanic "Kernel deposit failed" (applyAction c.kernelStateMirror
      c.kernelConfigMirror c.kernelRestrictionsMirror env.currentAccountId
      (.deposit sender sender accept 0 env.blockTimestamp))
    let sharesOut := (result.effects.findSome? (fun
      | .mintShares _ shares => some shares
      | _ => none)).getD 0
    if sharesOut = 0 then return (c, deposit)
    else
      let c ← orPanic "Failed to apply kernel deposit effects" (c.applyKernelEffects result.effects)
      return ({ c.increaseIdleBalance accept with
        feeAnchor := ⟨result.state.totalAssets, env.blockTimestamp⟩ }, deposit - accept)

def ftOnTransfer (sender : A) (amount : Nat) : Outcome (Contract A × Nat) := do
  Gate.enforcePolicy env c.gate sender
  c.executeSupply env sender amount

def redeem (shares : Nat) (receiver : A) : Outcome (Contract A) := do
  Gate.enforcePolicy env c.gate env.predecessorAccountId
  Gate.enforcePolicy env c.gate receiver
  require (0 < shares) "Invalid shares"
  require (c.idleResyncInflightOpId = 0) "Cannot withdraw/redeem during idle resync"
  let c ← c.internalAccrueFee env
  let expectedAssets := c.convertToAssets env.blockTimestamp shares
  require (0 < expectedAssets) "Dust redeem would yield 0 assets"
  let result ← orPanic "Kernel request_withdraw failed" (applyAction c.kernelStateMirror
    c.kernelConfigMirror c.kernelRestrictionsMirror env.currentAccountId
    (.requestWithdraw env.predecessorAccountId receiver shares expectedAssets env.blockTimestamp))
  let c ← orPanic "Failed to apply kernel withdraw effects" (c.applyKernelEffects result.effects)
  return { c with withdrawQueue := result.state.withdrawQueue }

def withdraw (amount : Nat) (receiver : A) : Outcome (Contract A) := do
  require (c.idleResyncInflightOpId = 0) "Cannot withdraw/redeem during idle resync"
  let c ← c.internalAccrueFee env
  c.redeem env (c.previewWithdraw env.blockTimestamp amount) receiver

/-- Requests that expect nothing are dropped until one is found that can be started. -/
def executeWithdrawalLoop (env : Env A) (route : List Nat) : Nat → Contract A → Outcome (Step A)
  | 0, c => .ok (c, none)
  | rounds + 1, c =>
    match c.withdrawQueue.head with
    | none => .ok (c, none)
    | some (_, pending) =>
      if isPastCooldown pending.requestedAtNs env.blockTimestamp c.withdrawalCooldownNs = false then
        .ok (c, none)
      else if pending.expectedAssets = 0 then do
        let c ← c.popHead
        executeWithdrawalLoop env route rounds c
      else c.startWithdraw env pending.expectedAssets pending.receiver pending.owner
        pending.escrowShares route

/-- Every round but the last takes a request off the queue. -/
def executeWithdrawal (route : List Nat) : Outcome (Step A) := do
  c.ensureIdle
  let c ← c.internalAccrueFee env
  executeWithdrawalLoop env route (c.withdrawQueue.len + 1) c

def executeMarketWithdrawal (opId market : Nat) : Outcome (Step A) := do
  let ctx ← expect "Not withdrawing" (c.ctxWithdrawing opId)
  match c.withdrawRoute.findIdx? (fun m => m = market) with
  | none => c.stopAndExit env
  | some routeIndex => do
    let c := { c with opState := .withdrawing { ctx with index := routeIndex } }
    let (c, lease) ← c.lock env market opId
    return (c, some (.executeWithdraw01 opId market lease.fencingToken))

def executeRebalanceWithdrawal (market : Nat) : Outcome (Step A) := do
  c.ensureIdle
  if (c.markets.lookup market).isNone then return (c, none)
  else
    let c ← c.internalAccrueFee env
    let principal := c.principalOf market
    require (0 < principal) "No principal to withdraw"
    let opId := c.nextOpId
    let (c, lease) ← c.lock env market opId
    return ({ c.takeOpId with opState := .allocating ⟨opId, 0, 0, []⟩ },
      some (.rebalanceWithdraw01 opId market lease.fencingToken principal))

/-- Markets without a record are left out; no markets at all stands for every market. -/
def refreshTargets (markets : List Nat) : List Nat :=
  if markets.isEmpty then c.markets.keys
  else markets.filter (fun m => (c.markets.lookup m).isSome)

def refreshThrottled (now : Nat) : Bool :=
  decide (c.refreshCooldownNs ≠ 0 ∧ c.lastRefreshNs ≠ 0 ∧
    now < saturatingAdd 64 c.lastRefreshNs c.refreshCooldownNs)

def refreshMarkets (markets : List Nat) : Outcome (Step A) := do
  c.ensureIdle
  let plan := ((c.refreshTargets markets).insertionSort (· ≤ ·)).dedup
  if plan.isEmpty then return (c, none)
  else
    require (c.refreshThrottled env.blockTimestamp = false) "Refresh throttled"
    let opId := c.nextOpId
    let c := c.takeOpId
    let result ← orPanic "Kernel begin refresh failed" (applyAction c.kernelStateMirror
      c.kernelConfigMirror c.kernelRestrictionsMirror env.currentAccountId
      (.beginRefreshing opId plan env.blockTimestamp))
    refreshStep env { c with opState := result.state.opState, nextOpId := result.state.nextOpId } opId

def resyncIdleBalance : Outcome (Step A) := do
  c.ensureIdle
  require (c.idleResyncInflightOpId = 0) "Idle resync already in flight"
  require (c.idleResyncCooldownNs ≤ env.blockTimestamp - c.idleResyncLastNs) "Idle resync throttled"
  let c ← { c with idleResyncLastNs := env.blockTimestamp }.internalAccrueFee env
  let opId := c.nextOpId
  return ({ c.takeOpId with
      idleResyncInflightOpId := opId
      opState := .allocating ⟨opId, 0, 0, []⟩ },
    some (.resyncIdleBalance01Settle opId env.predecessorAccountId c.idleBalance env.blockTimestamp))

def allocate (delta : AllocationDelta) : Outcome (Step A) := do
  c.ensureIdle
  let c ← c.internalAccrueFee env
  match delta with
  | .supply market amount => do
    require (0 < amount) "Delta amount must be greater than zero"
    let total := c.clampAllocationTotal amount
    c.startAllocation env total [⟨market, total⟩]
  | .withdraw market amount => do
    require (0 < amount) "Delta amount must be greater than zero"
    let toRequest := min (c.principalOf market) amount
    require (0 < toRequest) "Insufficient principal"
    let _ ← c.marketAccountByIdOrPanic market
    return (c, some (.rebalanceWithdraw01AfterCreateRequest market toRequest))

def applyKernelRecoveryAction : KernelAction A → Outcome (Step A)
  | .abortAllocating opId =>
    match c.ctxAllocating opId with
    | some s => .ok (c.stopAndExitAllocating s, none)
    | none => .ok (c, none)
  | .abortWithdrawing opId =>
    match c.ctxWithdrawing opId with
    | some s => do
      let c ← c.refundEscrowAndGoIdle env s.owner s.escrowShares "Withdrawing"
      return (c, none)
    | none => .ok (c, none)
  | .abortRefreshing opId =>
    match c.ctxRefreshing opId with
    | some _ => c.stopAndExit env
    | none => .ok (c, none)
  | .settlePayout opId .success =>
    match c.ctxPayout opId with
    | some s => c.payment01ReconcileIdleOrRefund env true opId s.receiver
    | none => .ok (c, none)
  | .settlePayout opId .failure =>
    match c.ctxPayout opId with
    | some _ => .ok (c, some (.stopAndExitPayout01Reconcile opId))
    | none => .ok (c, none)
  | _ => .ok (c, none)

def unbrick : Outcome (Step A) :=
  match determineRecoveryAction c.opState with
  | none => .ok (c, none)
  | some action => c.applyKernelRecoveryAction env action

end Contract

/-- A call that makes no promise. -/
def settled (x : Outcome (Contract A)) : Outcome (Step A) := do
  let c ← x
  return (c, none)

def Call.run [DecidableEq A] (env : Env A) (c : Contract A) : Call A → Outcome (Step A)
  | .ftTransfer receiver amount =>
    settled (c.transfer env env.predecessorAccountId receiver amount "TransferFailed")
  | .ftOnTransfer sender amount => do
    let (c, _) ← c.ftOnTransfer env sender amount
    return (c, none)
  | .withdraw amount receiver => settled (c.withdraw env amount receiver)
  | .redeem shares receiver => settled (c.redeem env shares receiver)
  | .executeWithdrawal route => c.executeWithdrawal env route
  | .executeMarketWithdrawal opId market => c.executeMarketWithdrawal env opId market
  | .executeRebalanceWithdrawal market => c.executeRebalanceWithdrawal env market
  | .refreshMarkets markets => c.refreshMarkets env markets
  | .resyncIdleBalance => c.resyncIdleBalance env
  | .unbrick => c.unbrick env
  | .allocate delta => c.allocate env delta
  | .setSupplyQueue markets => settled (c.setSupplyQueue markets)
  | .submitCap market => settled (c.submitCap market)
  | .applyChange action => settled (c.applyImmediately env action)

end Templar.Near
