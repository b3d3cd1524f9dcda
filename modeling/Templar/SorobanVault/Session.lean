import Templar.SorobanVault.State

/-!
# What a session does

The operations of the curator vault on a loaded session. A kernel action is computed first,
then the addresses of its effects are resolved, then the token contracts carry the effects
out, and only then is the new state kept and saved. The policy state is staged beside the
session's own and takes its place when the kernel has finished the operation.
-/

namespace Templar.SorobanVault

open Checked Curator Vault ContractError

variable {A σ : Type}

def asAllocating : OpState A → Option AllocatingState
  | .allocating s => some s
  | _ => none

def asRefreshing : OpState A → Option RefreshingState
  | .refreshing s => some s
  | _ => none

def isPayout : OpState A → Bool
  | .payout _ => true
  | _ => false

namespace CuratorVault

variable (v : CuratorVault A σ)

def kernelConfig : VaultConfig A where
  fees := v.config.fees
  minWithdrawalAssets := minWithdrawalAssets
  withdrawalCooldownNs := v.config.withdrawalCooldownNs
  maxPendingWithdrawals := sorobanMaxPendingWithdrawals
  paused := v.paused
  virtualShares := v.config.virtualShares
  virtualAssets := v.config.virtualAssets

/-- Writes the session's state to storage, unless its queue is out of bounds. -/
def saveState : CallM (CuratorVault A σ) := do
  ensure (v.state.withdrawQueue.checkInvariantsWithMax sorobanMaxPendingWithdrawals = true)
    storageError.fault
  return { v with storage := { v.storage with state := v.state } }

variable (policy : PolicyState)

def savePolicyState : CuratorVault A σ :=
  { v with policyState := policy, storage := { v.storage with policyState := policy } }

def feesDueForValueTransfer (nowNs : Nat) : Bool :=
  shouldRefreshFeesForValueTransfer v.state v.kernelConfig nowNs

/-- The next operation id, counted in the session's state only. -/
def reserveOpId : CallM (Nat × CuratorVault A σ) := do
  let next ← okOr (checkedAdd 64 v.state.nextOpId 1) invalidState.fault
  return (v.state.nextOpId, { v with state := { v.state with nextOpId := next } })

section

variable [DecidableEq A]

def authorize (v : CuratorVault A σ) (kind : ActionKind) (caller : A) : CallM Unit :=
  (v.auth.authorize kind caller).mapError fun
    | .missingRole .. => unauthorized.fault
    | .vaultPaused => invalidState.fault

variable (v : CuratorVault A σ) (host : Host A σ)

/-- Addresses come in under the platform's form and are stored for the effects of later calls. -/
def registerAddress (a : A) : CuratorVault A σ :=
  { v with
    storage := { v.storage with addressBook := v.storage.addressBook.insert a }
    known := v.known.insert a }

def ensureVaultMapped : CallM (CuratorVault A σ) := do
  ensure (host.self = v.config.vaultAddress) invalidState.fault
  return v.registerAddress host.self

variable (caller : A)

def mapPair (receiver : A) : CallM (CuratorVault A σ) := do
  let v ← v.ensureVaultMapped host
  return (v.registerAddress caller).registerAddress receiver

def mapCaller : CallM (CuratorVault A σ) := do
  let v ← v.ensureVaultMapped host
  return v.registerAddress caller

def ensureMapped (a : A) : CallM (CuratorVault A σ) :=
  if a ∈ v.known then .ok v
  else if a ∈ v.storage.addressBook then .ok { v with known := v.known.insert a }
  else .error effectFailed.fault

/-- The addresses that an effect needs resolved. -/
def effectAddresses : KernelEffect A → List A
  | .mintShares owner _ => [owner]
  | .burnShares owner _ => [owner]
  | .burnSharesFrom spender owner _ => [spender, owner]
  | .transferShares source target _ => [source, target]
  | .transferAssets target _ => [v.config.vaultAddress, target]
  | .transferAssetsFrom source target _ => [source, target]
  | .emitEvent _ => []

def ensureEffectAddressesMapped (effects : List (KernelEffect A)) : CallM (CuratorVault A σ) :=
  (effects.flatMap v.effectAddresses).foldlM ensureMapped v

def resolveAddress (a : A) : CallM A := do
  ensure (a ∈ v.known) effectFailed.fault
  return a

/-- One effect. The token contracts stop the call when they refuse, except that a refused
transfer is reported. -/
def executeEffect (world : σ) : KernelEffect A → CallM σ
  | .mintShares owner shares => do
    let amount ← toI128Event shares
    let owner ← v.resolveAddress owner
    orTrap ((host.token v.config.shareAddress).mint owner amount world)
  | .burnShares owner shares => do
    let amount ← toI128Event shares
    let owner ← v.resolveAddress owner
    orTrap ((host.token v.config.shareAddress).burn owner amount world)
  | .burnSharesFrom spender owner shares => do
    let amount ← toI128Event shares
    let spender ← v.resolveAddress spender
    let owner ← v.resolveAddress owner
    orTrap ((host.token v.config.shareAddress).burnFrom spender owner amount world)
  | .transferShares source target shares => do
    let amount ← toI128Event shares
    let source ← v.resolveAddress source
    let target ← v.resolveAddress target
    okOr ((host.token v.config.shareAddress).transfer source target amount world) effectFailed.fault
  | .transferAssets target amount => do
    let amount ← toI128Event amount
    let target ← v.resolveAddress target
    let vault ← v.resolveAddress v.config.vaultAddress
    okOr ((host.token v.config.assetAddress).transfer vault target amount world) effectFailed.fault
  | .transferAssetsFrom source target amount => do
    let amount ← toI128Event amount
    let source ← v.resolveAddress source
    let target ← v.resolveAddress target
    okOr ((host.token v.config.assetAddress).transfer source target amount world) effectFailed.fault
  | .emitEvent _ => .ok world

def executeEffects (effects : List (KernelEffect A)) :
    CallM (EffectSummary × CuratorVault A σ) := do
  let (summary, world) ← effects.foldlM (fun (acc : EffectSummary × σ) effect => do
    let world ← v.executeEffect host acc.2 effect
    return (acc.1.record effect, world)) (EffectSummary.new, v.world)
  return (summary, { v with world })

def applyKernelActionResult (action : KernelAction A) :
    CallM (KernelResult A × EffectSummary × CuratorVault A σ) := do
  let result ← transitionToRuntime
    (applyAction v.state v.kernelConfig v.restrictions v.config.vaultAddress action)
  let v ← v.ensureEffectAddressesMapped result.effects
  let (summary, v) ← v.executeEffects host result.effects
  let v ← { v with state := result.state }.saveState
  return (result, summary, v)

def applyKernelAction (action : KernelAction A) : CallM (EffectSummary × CuratorVault A σ) := do
  let (_, summary, v) ← v.applyKernelActionResult host action
  return (summary, v)

structure DepositResult where
  sharesMinted : Nat
  totalShares : Nat
  totalAssets : Nat
  deriving DecidableEq, Repr

/-- The shares are read off the event. -/
def depositedShares : KernelEffect A → Option Nat
  | .emitEvent (.depositProcessed _ _ _ sharesOut) => some sharesOut
  | _ => none

def deposit (receiver : A)
    (assets minSharesOut nowNs : Nat) : CallM (DepositResult × CuratorVault A σ) := do
  v.authorize .deposit caller
  ensure (v.paused = false) invalidState.fault
  let (result, _, v) ← v.applyKernelActionResult host
    (.deposit caller receiver assets minSharesOut nowNs)
  return (⟨(result.effects.findSome? depositedShares).getD 0, v.state.totalShares,
    v.state.totalAssets⟩, v)

def requestWithdraw (receiver : A)
    (shares minAssetsOut nowNs : Nat) : CallM (Nat × CuratorVault A σ) := do
  v.authorize .requestWithdraw caller
  ensure (v.state.totalShares ≠ 0) invalidState.fault
  let requestId := v.state.withdrawQueue.nextPendingWithdrawalId
  let (_, v) ← v.applyKernelAction host (.requestWithdraw caller receiver shares minAssetsOut nowNs)
  return (requestId, v)

def refreshFees (nowNs : Nat) : CallM (CuratorVault A σ) := do
  let (_, v) ← v.applyKernelAction host (.refreshFees nowNs)
  return v

def abortWithdrawing (opId : Nat) : CallM (CuratorVault A σ) := do
  v.authorize .abortWithdrawing caller
  let (_, v) ← v.applyKernelAction host (.abortWithdrawing opId)
  return v

def prepareAtomicCall (receiver owner operator : A) : CallM (CuratorVault A σ) := do
  let v ← v.ensureVaultMapped host
  return ((v.registerAddress owner).registerAddress receiver).registerAddress operator

def atomicWithdraw (timestamp : Nat)
    (assets maxSharesBurned : Int) (receiver owner operator : A) :
    CallM (Int × CuratorVault A σ) := do
  ensure (0 < assets) invalidInput.fault
  let v ← v.prepareAtomicCall host receiver owner operator
  let nowNs ← (ledgerTimestampNs timestamp).mapError (fun _ => invalidInput.fault)
  let assets ← toU128 assets
  let maxSharesBurned ← toU128 maxSharesBurned
  let (summary, v) ← v.applyKernelAction host
    (.atomicWithdraw owner receiver operator assets maxSharesBurned nowNs)
  let burned ← (toI128 summary.sharesBurned).mapError (fun _ => invalidInput.fault)
  return (burned, v)

def atomicRedeem (timestamp : Nat) (shares minAssetsOut : Int) (receiver owner operator : A) :
    CallM (Int × CuratorVault A σ) := do
  ensure (0 < shares) invalidInput.fault
  let v ← v.prepareAtomicCall host receiver owner operator
  let nowNs ← (ledgerTimestampNs timestamp).mapError (fun _ => invalidInput.fault)
  let shares ← toU128 shares
  let minAssetsOut ← toU128 minAssetsOut
  let (summary, v) ← v.applyKernelAction host
    (.atomicRedeem owner receiver operator shares minAssetsOut nowNs)
  let paid ← (toI128 summary.assetsTransferred).mapError (fun _ => invalidInput.fault)
  return (paid, v)

structure CompletedWithdrawal (A : Type) where
  requestId : Nat
  owner : A
  receiver : A
  assetsOut : Nat
  sharesBurned : Nat
  deriving DecidableEq, Repr

inductive ExecuteWithdrawResult (A : Type) where
  | noPayout (summary : EffectSummary)
  | payout (summary : EffectSummary) (completed : CompletedWithdrawal A)
  deriving DecidableEq, Repr

/-- The transfer of a payout. A receiver that cannot take the asset does not stop the call. -/
def transferPayout (receiver : A) (amount : Nat) :
    CallM (PayoutOutcome × EffectSummary × CuratorVault A σ) :=
  match v.executeEffects host [.transferAssets receiver amount] with
  | .ok (summary, v) => .ok (.success, summary, v)
  | .error (.error .effectFailed) => .ok (.failure, EffectSummary.new, v)
  | .error e => .error e

def completeWithdrawalFromIdle :
    CallM (EffectSummary × CompletedWithdrawal A × CuratorVault A σ) := do
  let plan ← transitionToRuntime (planIdlePayout v.state v.kernelConfig.minWithdrawalAssets)
  let collected ← transitionToRuntime (mapTransitionResult
    (withdrawalSettled v.state.opState plan.opId plan.assetsOut plan.burnShares))
  let v ← v.ensureEffectAddressesMapped collected.effects
  let (summary, v) ← v.executeEffects host collected.effects
  let v := { v with state := { v.state with opState := collected.newState } }
  ensure (isPayout v.state.opState = true) invalidState.fault
  let v ← v.ensureEffectAddressesMapped [.transferAssets plan.receiver plan.assetsOut]
  let (outcome, transferSummary, v) ← v.transferPayout host plan.receiver plan.assetsOut
  let paid := decide (outcome = .success)
  let (settleSummary, v) ← v.applyKernelAction host (.settlePayout plan.opId outcome)
  return ((summary.merge transferSummary).merge settleSummary,
    ⟨plan.requestId, plan.owner, plan.receiver, if paid then plan.assetsOut else 0,
      if paid then plan.burnShares else 0⟩, v)

/-- Starts a withdrawal if none is under way. -/
def startWithdrawalIfIdle (nowNs : Nat) : CallM (EffectSummary × CuratorVault A σ) :=
  if v.state.opState.isIdle then v.applyKernelAction host (.executeWithdraw nowNs)
  else .ok (EffectSummary.new, v)

def executeWithdraw (nowNs : Nat) : CallM (ExecuteWithdrawResult A × CuratorVault A σ) := do
  v.authorize .executeWithdraw caller
  ensure (v.state.opState.isIdle = true ∨ v.state.opState.isWithdrawing = true) invalidState.fault
  let (summary, v) ← v.startWithdrawalIfIdle host nowNs
  if v.state.opState.isWithdrawing then do
    let (settleSummary, completed, v) ← v.completeWithdrawalFromIdle host
    return (.payout (summary.merge settleSummary) completed, v)
  else return (.noPayout summary, v)

def reserveAuthorizedOpId (action : ActionKind) : CallM (Nat × CuratorVault A σ) := do
  v.authorize action caller
  v.reserveOpId

def beginAllocationInternal (plan : List AllocationPlanEntry) (nowNs : Nat) :
    CallM (Nat × CuratorVault A σ) := do
  let (opId, v) ← v.reserveAuthorizedOpId caller .beginAllocating
  let (_, v) ← v.applyKernelAction host (.beginAllocating opId plan nowNs)
  return (opId, v)

/-- A withdrawal from a market is an allocation that reserves nothing. -/
def beginAllocationWithdrawInternal (market nowNs : Nat) : CallM (Nat × CuratorVault A σ) :=
  v.beginAllocationInternal host caller [⟨market, 0⟩] nowNs

def syncExternalAssets (opId newExternalAssets nowNs : Nat) : CallM (Nat × CuratorVault A σ) := do
  v.authorize .syncExternalAssets caller
  let (_, v) ← v.applyKernelAction host (.syncExternalAssets newExternalAssets opId nowNs)
  return (v.state.externalAssets, v)

def rebalanceWithdraw (opId amount nowNs : Nat) : CallM (Nat × CuratorVault A σ) := do
  v.authorize .rebalanceWithdraw caller
  let (_, v) ← v.applyKernelAction host (.rebalanceWithdraw opId amount nowNs)
  return (v.state.externalAssets, v)

def finishAllocationInternal (opId nowNs : Nat) : CallM (CuratorVault A σ) := do
  v.authorize .finishAllocating caller
  let (_, v) ← v.applyKernelAction host (.finishAllocating opId nowNs)
  return v

end

/-- Every failure of a policy operation in the middle of an allocation is the same error. -/
def policyOrInvalidState {α : Type} (x : Except PolicyStateError α) : CallM α :=
  x.mapError fun _ => invalidState.fault

@[simp] theorem policyOrInvalidState_eq_ok {α : Type} {x : Except PolicyStateError α} {a : α} :
    policyOrInvalidState x = .ok a ↔ x = .ok a := mapError_eq_ok

/-- The cap of the market, then that of its group. -/
def enforceSupplyCaps (config : MarketConfig)
    (candidatePrincipal delta preAllocationTotalAssets : Nat) : CallM Unit := do
  ensure (candidatePrincipal ≤ config.cap) invalidState.fault
  match config.capGroupId with
  | none => .ok ()
  | some id => do
    let record ← okOr (policy.capGroup id) invalidState.fault
    (record.cap.enforce record.principal delta preAllocationTotalAssets).mapError
      fun _ => invalidState.fault

def validateSupplyAdmission (market amount preAllocationTotalAssets : Nat) : CallM Unit := do
  let config ← okOr (policy.marketConfig market) invalidState.fault
  ensure (config.enabled = true) invalidState.fault
  ensure (policy.supplyQueue.entries.any (fun e => e.targetId == market) = true) invalidState.fault
  let principal ← okOr (policy.principalFor market) invalidState.fault
  let candidate ← okOr (checkedAdd 128 principal amount) invalidState.fault
  enforceSupplyCaps policy config candidate amount preAllocationTotalAssets

/-- The market has gained no more than was sent, and lost nothing. -/
def validateSupplyObservation
    (market observedTotalAssets supplyAmount preAllocationTotalAssets : Nat) : CallM Unit := do
  let previous ← okOr (policy.principalFor market) invalidState.fault
  let maxPrincipal ← okOr (checkedAdd 128 previous supplyAmount) invalidState.fault
  ensure (previous ≤ observedTotalAssets ∧ observedTotalAssets ≤ maxPrincipal) invalidState.fault
  let config ← okOr (policy.marketConfig market) invalidState.fault
  enforceSupplyCaps policy config observedTotalAssets (observedTotalAssets - previous)
    preAllocationTotalAssets

def validateRefreshObservation (market observedTotalAssets : Nat) : CallM Unit := do
  let config ← okOr (policy.marketConfig market) invalidState.fault
  ensure (observedTotalAssets ≤ config.cap) invalidState.fault

def stageRefreshedPositions (positions : List (Nat × Nat)) : CallM PolicyState :=
  positions.foldlM (fun policy position => do
    validateRefreshObservation policy position.1 position.2
    policyOrInvalidState (policy.setPrincipal position.1 position.2)) policy

/-- Only planned markets are reported. -/
def validateRefreshedPositionsAgainstPlan (positions : List (Nat × Nat)) : CallM Unit := do
  let refreshing ← okOr (asRefreshing v.state.opState) invalidState.fault
  ensure (∀ position ∈ positions, position.1 ∈ refreshing.plan) invalidInput.fault

section

variable [DecidableEq A]

variable (v : CuratorVault A σ) (host : Host A σ)

def completeSupplyAllocation (caller : A)
    (market observedTotalAssets opId nowNs preAllocationTotalAssets : Nat) :
    CallM (Nat × CuratorVault A σ) := do
  let allocation ← okOr (asAllocating v.state.opState) invalidState.fault
  let step ← okOr allocation.plan[allocation.index]? invalidState.fault
  ensure (step.targetId = market) invalidInput.fault
  validateSupplyObservation v.policyState market observedTotalAssets step.amount
    preAllocationTotalAssets
  let staged ← policyOrInvalidState (v.policyState.setPrincipal market observedTotalAssets)
  let newExternalAssets ← policyOrInvalidState staged.externalAssets
  let (newExternal, v) ← v.syncExternalAssets host caller opId newExternalAssets nowNs
  let v ← v.finishAllocationInternal host caller opId nowNs
  return (newExternal, v.savePolicyState staged)

/-- The market is marked to what it is worth before the withdrawal; then the realized part
moves to the idle assets and the observed rest stays as principal. -/
def completeWithdrawAllocation (caller : A)
    (market realizedAmount remainingValue opId nowNs : Nat) :
    CallM (Nat × CuratorVault A σ) := do
  ensure ((v.policyState.principalFor market).isSome = true) invalidState.fault
  let observed ← okOr (checkedAdd 128 realizedAmount remainingValue) invalidState.fault
  let staged ← policyOrInvalidState (v.policyState.setPrincipal market observed)
  let external ← policyOrInvalidState staged.externalAssets
  let (_, v) ← v.syncExternalAssets host caller opId external nowNs
  let staged ← policyOrInvalidState (staged.setPrincipal market remainingValue)
  let (newExternal, v) ← v.rebalanceWithdraw host caller opId realizedAmount nowNs
  let v ← v.finishAllocationInternal host caller opId nowNs
  return (newExternal, v.savePolicyState staged)

def beginRefreshing (caller : A)
    (plan : List Nat) (nowNs : Nat) : CallM (Nat × CuratorVault A σ) := do
  let markets := v.policyState.leases.excludingLeasedTargets plan nowNs
  ensure (markets ≠ []) invalidInput.fault
  let (opId, v) ← v.reserveAuthorizedOpId caller .beginRefreshing
  let (_, v) ← v.applyKernelAction host (.beginRefreshing opId markets nowNs)
  return (opId, v)

structure RefreshResult where
  opId : Nat
  marketsRefreshed : Nat
  newExternalAssets : Nat
  deriving DecidableEq, Repr

def snapshotRefreshCompletion (state : VaultState A) : Nat :=
  ((asRefreshing state.opState).map fun refreshing => refreshing.plan.length).getD 0

def finishRefreshing (caller : A)
    (opId nowNs : Nat) : CallM (RefreshResult × CuratorVault A σ) := do
  v.authorize .finishRefreshing caller
  let marketsRefreshed := snapshotRefreshCompletion v.state
  let (_, v) ← v.applyKernelAction host (.finishRefreshing opId nowNs)
  return (⟨opId, marketsRefreshed, v.state.externalAssets⟩, v)

def completeRefreshWithPositions (caller : A) (positions : List (Nat × Nat))
    (opId nowNs : Nat) : CallM (RefreshResult × CuratorVault A σ) := do
  v.validateRefreshedPositionsAgainstPlan positions
  let staged ← stageRefreshedPositions v.policyState positions
  let newExternalAssets ← policyOrInvalidState staged.externalAssets
  ensure (v.state.idleAssets + newExternalAssets < 2 ^ 128) invalidState.fault
  let (_, v) ← v.syncExternalAssets host caller opId newExternalAssets nowNs
  let (result, v) ← v.finishRefreshing host caller opId nowNs
  return (result, v.savePolicyState staged)

def pause (v : CuratorVault A σ) (caller : A) (paused : Bool) : CallM (CuratorVault A σ) := do
  v.authorize .pause caller
  return { v with paused, storage := { v.storage with paused } }

end

/-- Restrictions are stored up to a fixed number of addresses. -/
def saveRestrictions (c : Contract A) (restrictions : Option (Restrictions A)) :
    CallM (Contract A) := do
  match restrictions with
  | some (.blacklist addresses) =>
    ensure (addresses.length ≤ sorobanMaxRestrictionAddresses) storageError.fault
  | some (.whitelist addresses) =>
    ensure (addresses.length ≤ sorobanMaxRestrictionAddresses) storageError.fault
  | none => .ok ()
  return { c with restrictions }

def setRestrictions [DecidableEq A] (v : CuratorVault A σ) (caller : A)
    (restrictions : Option (Restrictions A)) : CallM (CuratorVault A σ) := do
  v.authorize .setRestrictions caller
  let storage ← saveRestrictions v.storage restrictions
  return { v with restrictions, storage }

/-- Every failure of a policy change is reported as bad input. -/
def policyOrInvalidInput {ε α : Type} (x : Except ε α) : CallM α :=
  x.mapError fun _ => invalidInput.fault

@[simp] theorem policyOrInvalidInput_eq_ok {ε α : Type} {x : Except ε α} {a : α} :
    policyOrInvalidInput x = .ok a ↔ x = .ok a := mapError_eq_ok

/-- One entry of a new supply queue: a known, enabled market with a cap, named once. -/
def supplyQueueEntry (entries : List SupplyQueueEntry) (targetId : Nat) :
    CallM (List SupplyQueueEntry) := do
  let config ← okOr (policy.marketConfig targetId) invalidInput.fault
  ensure (config.enabled = true) invalidInput.fault
  ensure (config.cap ≠ 0) invalidInput.fault
  ensure (entries.any (fun e => e.targetId == targetId) = false) invalidInput.fault
  let entry ← policyOrInvalidInput (SupplyQueueEntry.new targetId 1)
  return entries ++ [entry]

def setSupplyQueueAuthorized (targetIds : List Nat) : CallM (CuratorVault A σ) := do
  let entries ← targetIds.foldlM (supplyQueueEntry v.policyState) []
  let queue ← policyOrInvalidInput (SupplyQueue.tryFromEntries entries none)
  let policy ← policyOrInvalidInput (v.policyState.replaceSupplyQueue queue)
  return v.savePolicyState policy

def applyGovernanceCapAuthorized (marketId newCap : Nat) : CallM (CuratorVault A σ) := do
  let policy ← policyOrInvalidInput (if (v.policyState.marketConfig marketId).isSome then
      v.policyState.setMarketCap marketId newCap
    else v.policyState.setMarketConfig marketId ⟨true, newCap, none⟩)
  return v.savePolicyState policy

def applyGovernanceRemoveMarketAuthorized (marketId : Nat) : CallM (CuratorVault A σ) := do
  let config ← okOr (v.policyState.marketConfig marketId) invalidInput.fault
  ensure (config.cap = 0) invalidInput.fault
  ensure ((v.policyState.principalFor marketId).getD 0 = 0) invalidInput.fault
  let policy ← policyOrInvalidInput (v.policyState.removeMarket marketId)
  return v.savePolicyState policy

def applyGovernanceCapGroupUpdateAuthorized (update : CapGroupUpdate) :
    CallM (CuratorVault A σ) := do
  let policy ← policyOrInvalidInput (v.policyState.groupUpdate update)
  return v.savePolicyState policy

end CuratorVault

end Templar.SorobanVault
