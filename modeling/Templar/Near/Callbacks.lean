import Templar.Near.Operations

/-!
# Callbacks of the NEAR vault

Each callback takes the arguments it was scheduled with and the answer it was waiting for. The
guards differ: the callbacks of a market withdrawal first check their lease and return when it
is gone, those of a payout and of a refresh ignore an operation that is not theirs, and those of
a supply stop whatever operation they find.
-/

namespace Templar.Near

open Checked Vault Curator

variable {A : Type}

structure SupplyReconciliation where
  newPrincipal : Nat
  acceptedEvent : Nat
  remaining : Nat
  deriving DecidableEq, Repr

def reconcileSupplyOutcome (totalPosition before remaining : Nat) : SupplyReconciliation :=
  let acceptedEvent := totalPosition - before
  ⟨totalPosition, acceptedEvent, remaining - acceptedEvent⟩

structure PayoutDelta where
  payoutDelta : Nat
  remainingNext : Nat
  collectedNext : Nat
  deriving DecidableEq, Repr

def determinePayoutDelta (remainingTotal collectedTotal withdrawn : Nat) : PayoutDelta :=
  let payoutDelta := min withdrawn remainingTotal
  ⟨payoutDelta, remainingTotal - payoutDelta, saturatingAdd 128 collectedTotal payoutDelta⟩

def reconcileWithdrawOutcome (beforePrincipal newPrincipal remainingTotal collectedTotal : Nat) :
    PayoutDelta :=
  determinePayoutDelta remainingTotal collectedTotal (beforePrincipal - newPrincipal)

/-- The drop of the position, the growth of the balance, and the part of the drop that the growth
covers. -/
structure WithdrawDeltas where
  principalDelta : Nat
  inflow : Nat
  creditable : Nat
  deriving DecidableEq, Repr

def computeWithdrawDeltas (beforePrincipal newPrincipalReported afterBalance beforeBalance : Nat) :
    WithdrawDeltas :=
  let principalDelta := beforePrincipal - newPrincipalReported
  let inflow := afterBalance - beforeBalance
  ⟨principalDelta, inflow, min principalDelta inflow⟩

namespace Contract

/-- The market is marked down by what has arrived, and the idle funds are set to the balance. -/
def settleMarketPrincipalAndIdle (c : Contract A) (marketId beforePrincipal reportedPrincipal
    afterBalance beforeBalance : Nat) : Contract A × WithdrawDeltas :=
  let d := computeWithdrawDeltas beforePrincipal reportedPrincipal afterBalance beforeBalance
  ((c.setMarketPrincipal marketId (beforePrincipal - d.creditable)).resyncIdleBalanceTo afterBalance,
    d)

/-- A balance that could not be read changes nothing. -/
def resyncIdleBalanceIfRead (c : Contract A) : Option Nat → Contract A
  | some actualIdle => c.resyncIdleBalanceTo actualIdle
  | none => c

/-- A position that could not be read, or that is missing, leaves the principal as it is. -/
def setMarketPrincipalIfRead (c : Contract A) (marketId : Nat) : Option (Option Nat) → Contract A
  | some (some total) => c.setMarketPrincipal marketId total
  | _ => c

variable [DecidableEq A]

variable (env : Env A) (c : Contract A)

def supply01HandleTransfer (accepted : Option Nat)
    (marketId opId marketIndex attempted remainingBefore : Nat) : Outcome (Step A) :=
  match c.ctxAllocating opId with
  | none => c.stopAndExit env
  | some _ =>
    match accepted with
    | none => c.stopAndExit env
    | some accepted => do
      let before := c.principalOf marketId
      let _ ← c.marketAccountByIdOrPanic marketId
      return (c, some (.supply02PositionRead marketId opId marketIndex before attempted accepted
        remainingBefore))

variable (position : Option (Option Nat))

/-- The accepted amount is read off the growth of the position, not off the transfer. -/
def supply02PositionRead
    (marketId opId marketIndex before remainingBefore : Nat) : Outcome (Step A) :=
  match c.ctxAllocating opId with
  | none => c.stopAndExit env
  | some s =>
    if s.index ≠ marketIndex then c.stopAndExit env
    else
      match position with
      | none => c.stopAndExit env
      | some none => c.stopAndExit env
      | some (some total) => do
        let r := reconcileSupplyOutcome total before remainingBefore
        let c := c.setMarketPrincipal marketId r.newPrincipal
        let result ← orPanic "Kernel allocation step failed"
          (allocationStepCallback c.opState true r.acceptedEvent opId)
        let c := { c with opState := result.newState }
        if r.remaining = 0 then c.stopAndExit env else c.stepAllocation env

/-- The withdrawal in progress, if it is this one and the route stands at this market; otherwise
the outcome of stopping. -/
def withdrawCtxAndMarketOrExit (opId market : Nat) :
    Except (Outcome (Step A)) (WithdrawingState A) :=
  match c.ctxWithdrawing opId with
  | none => .error (c.stopAndExit env)
  | some ctx =>
    if c.withdrawRoute[ctx.index]? = some market ∧ (c.markets.lookup market).isSome = true then .ok ctx
    else .error (c.stopAndExit env)

/-- Nothing schedules this callback. -/
def withdraw01HandleCreateRequest (didCreate : Bool) (opId market : Nat) : Outcome (Step A) :=
  match c.withdrawCtxAndMarketOrExit env opId market with
  | .error stopped => stopped
  | .ok _ =>
    if didCreate then do
      let (c, _) ← c.lock env market opId
      return (c, none)
    else .ok (c, none)

def rebalanceWithdraw01AfterCreateRequest (didCreate : Bool) : Outcome (Step A) := do
  require (didCreate = true) "Couldnt create withdraw request in market"
  return (c, none)

def executeWithdraw01 (beforeBalance : Option Nat) (opId market fencingToken : Nat) :
    Outcome (Step A) :=
  if c.hasCurrentLease env market opId fencingToken = false then .ok (c, none)
  else
    match c.withdrawCtxAndMarketOrExit env opId market with
    | .error stopped => stopped
    | .ok _ =>
      match beforeBalance with
      | none => c.stopAndExit env
      | some beforeBalance =>
        .ok (c, some (.executeWithdraw02 opId market fencingToken (c.principalOf market)
          beforeBalance))

/-- A missing position counts as empty. -/
def executeWithdraw02 (opId market fencingToken principal beforeBalance : Nat) : Outcome (Step A) :=
  if c.hasCurrentLease env market opId fencingToken = false then .ok (c, none)
  else
    match c.withdrawCtxAndMarketOrExit env opId market with
    | .error stopped => stopped
    | .ok _ =>
      match position with
      | none => c.stopAndExit env
      | some total =>
        .ok (c, some (.executeWithdraw03 opId market fencingToken principal (total.getD 0)
          beforeBalance))

/-- What a market's payment counts for: the drop of the principal first, then what the market
paid beyond it. -/
def creditWithdraw (ctx : WithdrawingState A) (beforePrincipal : Nat) (d : WithdrawDeltas) :
    PayoutDelta :=
  let effectivePrincipal := beforePrincipal - d.creditable
  let extra := d.inflow - d.principalDelta
  let p := reconcileWithdrawOutcome beforePrincipal effectivePrincipal ctx.remaining ctx.collected
  let q := determinePayoutDelta p.remainingNext p.collectedNext extra
  ⟨saturatingAdd 128 p.payoutDelta q.payoutDelta, q.remainingNext, q.collectedNext⟩

/-- The request counts the payment and is paid, waits for a market or is given up. It moves on to
the next market only after one that paid all it took out of the position. -/
def continueWithdraw (ctx : WithdrawingState A) (opId : Nat) (d : WithdrawDeltas)
    (q : PayoutDelta) : Outcome (Step A) := do
  let desiredIndex :=
    if d.principalDelta ≤ d.inflow ∧ 0 < d.principalDelta then saturatingAdd 32 ctx.index 1
    else ctx.index
  let result ← orPanic "Kernel withdrawal step failed"
    (withdrawalStepCallback c.opState opId q.payoutDelta)
  let opState := match result.newState with
    | .withdrawing w => .withdrawing { w with index := desiredIndex }
    | other => other
  let c := { c with opState := opState }
  if q.remainingNext = 0 then
    if 0 < q.collectedNext then
      c.pay env opId ctx.receiver q.collectedNext ctx.owner ctx.escrowShares ctx.escrowShares
    else
      match c.ctxWithdrawing opId with
      | none => c.stopAndExit env
      | some _ => do
        let c ← c.transfer env env.currentAccountId ctx.owner ctx.escrowShares
          "Failed to refund escrowed shares"
        let c ← c.popHead
        return ({ c with withdrawRoute := [], opState := .idle }, none)
  else c.payOrSignalNextWithdraw env

def executeWithdraw03 (afterBalance : Option Nat)
    (opId market fencingToken beforePrincipal reportedPrincipal beforeBalance : Nat) :
    Outcome (Step A) :=
  if c.hasCurrentLease env market opId fencingToken = false then .ok (c, none)
  else
    match c.withdrawCtxAndMarketOrExit env opId market with
    | .error stopped => stopped
    | .ok ctx =>
      match afterBalance with
      | none => c.stopAndExit env
      | some afterBalance => do
        let (c, d) := c.settleMarketPrincipalAndIdle market beforePrincipal reportedPrincipal
          afterBalance beforeBalance
        let c ← c.unlock market opId fencingToken
        c.continueWithdraw env ctx opId d (creditWithdraw ctx beforePrincipal d)

/-- The lease is given back and the vault is idle again. -/
def endRebalance (marketId opId fencingToken : Nat) : Outcome (Step A) := do
  let c ← c.unlock marketId opId fencingToken
  return ({ c with opState := .idle }, none)

def rebalanceWithdraw01 (beforeBalance : Option Nat)
    (opId marketId fencingToken beforePrincipal : Nat) : Outcome (Step A) :=
  if c.hasCurrentLease env marketId opId fencingToken = false then .ok (c, none)
  else
    match c.ctxAllocating opId with
    | none => c.stopAndExit env
    | some _ =>
      match beforeBalance with
      | none => c.endRebalance marketId opId fencingToken
      | some beforeBalance => do
        let _ ← c.marketAccountByIdOrPanic marketId
        return (c, some (.rebalanceWithdraw02 opId marketId fencingToken beforePrincipal
          beforeBalance))

def rebalanceWithdraw02
    (opId marketId fencingToken beforePrincipal beforeBalance : Nat) : Outcome (Step A) :=
  if c.hasCurrentLease env marketId opId fencingToken = false then .ok (c, none)
  else
    match c.ctxAllocating opId with
    | none => c.stopAndExit env
    | some _ =>
      match position with
      | none => c.endRebalance marketId opId fencingToken
      | some total =>
        .ok (c, some (.rebalanceWithdraw03 opId marketId fencingToken beforePrincipal (total.getD 0)
          beforeBalance))

def rebalanceWithdraw03 (afterBalance : Option Nat)
    (opId marketId fencingToken beforePrincipal reportedPrincipal beforeBalance : Nat) :
    Outcome (Step A) :=
  if c.hasCurrentLease env marketId opId fencingToken = false then .ok (c, none)
  else
    match c.ctxAllocating opId with
    | none => c.stopAndExit env
    | some _ =>
      match afterBalance with
      | none => c.endRebalance marketId opId fencingToken
      | some afterBalance =>
        (c.settleMarketPrincipalAndIdle marketId beforePrincipal reportedPrincipal afterBalance
          beforeBalance).1.endRebalance marketId opId fencingToken

def burnEscrowIfAny (shares : Nat) : Outcome (Contract A) :=
  if 0 < shares then do
    let ledger ← expect "Escrow settlement burn failed" (c.shares.burn env.currentAccountId shares)
    return { c with shares := ledger }
  else .ok c

/-- A payout that is over: the request leaves the queue and the vault is idle. -/
def endPayout : Outcome (Contract A) := do
  let c ← c.popHead
  return { c with
    withdrawRoute := []
    marketExecutionLock := c.marketExecutionLock.clear
    opState := .idle }

/-- The idle funds are set to the balance, if it could be read, and the escrow goes back. -/
def stopAndExitPayout01Reconcile (balance : Option Nat) (opId : Nat) : Outcome (Step A) :=
  match c.ctxPayout opId with
  | none => .ok (c, none)
  | some s => do
    let c := c.resyncIdleBalanceIfRead balance
    let c ← c.refundEscrowIfAny env s.owner s.escrowShares "Payout stop escrow refund failed"
    let c ← c.endPayout
    return (c, none)

def payment01ReconcileIdleOrRefund (succeeded : Bool) (opId : Nat) (receiver : A) :
    Outcome (Step A) :=
  match c.ctxPayout opId with
  | none => .ok (c, none)
  | some s =>
    if s.receiver ≠ receiver then .ok (c, none)
    else if succeeded then do
      let refund := s.escrowShares - s.burnShares
      let c ← c.burnEscrowIfAny env s.burnShares
      let c ← c.refundEscrowIfAny env s.owner refund "Escrow settlement refund failed"
      let c ← c.endPayout
      return (c, none)
    else do
      let c := c.increaseIdleBalance s.amount
      let c ← c.refundEscrow env s.owner s.escrowShares "Escrow settlement failure refund failed"
      let c ← c.endPayout
      return (c, none)

def refresh01Settle (marketId opId index : Nat) : Outcome (Step A) :=
  match c.ctxRefreshing opId with
  | none => .ok (c, none)
  | some s =>
    if s.index ≠ index then .ok ({ c with opState := .idle }, none)
    else do
      let c := c.setMarketPrincipalIfRead marketId position
      let result ← orPanic "Kernel refresh step failed" (refreshStepCallback c.opState opId)
      let c := { c with opState := result.newState }
      match c.opState with
      | .refreshing next =>
        if next.plan.length ≤ next.index then do
          let result ← orPanic "Kernel complete refresh failed" (completeRefresh c.opState opId)
          return ({ c with lastRefreshNs := env.blockTimestamp, opState := result.newState }, none)
        else c.refreshStep env opId
      | _ => return (c, none)

/-- An increase of the idle funds is not profit: the anchor moves up with it. -/
def resyncIdleBalance01Settle (balance : Option Nat) (opId beforeIdle : Nat) : Step A :=
  if c.idleResyncInflightOpId = 0 ∨ c.idleResyncInflightOpId ≠ opId then (c, none)
  else if c.opState ≠ .allocating ⟨opId, 0, 0, []⟩ then
    ({ c with idleResyncInflightOpId := 0, opState := .idle }, none)
  else
    match balance with
    | none => ({ c with idleResyncInflightOpId := 0, opState := .idle }, none)
    | some actualIdle =>
      let c := c.resyncIdleBalanceTo actualIdle
      ({ c with
        feeAnchor := { c.feeAnchor with
          totalAssets := saturatingAdd 128 c.feeAnchor.totalAssets (c.idleBalance - beforeIdle) }
        idleResyncInflightOpId := 0
        opState := .idle }, none)

end Contract

/-- A value of another shape than the callback expects aborts it. -/
def Reply.asAmount : Reply → Outcome (Option Nat)
  | .failed => .ok none
  | .amount value => .ok (some value)
  | _ => .error (.message "Failed to deserialize callback using JSON")

def Reply.asPosition : Reply → Outcome (Option (Option Nat))
  | .failed => .ok none
  | .position total => .ok (some total)
  | _ => .error (.message "Failed to deserialize callback using JSON")

def Reply.asDone : Reply → Outcome Bool
  | .failed => .ok false
  | .done => .ok true
  | _ => .error (.message "Failed to deserialize callback using JSON")

/-- A callback run with the answer it was waiting for. -/
def Callback.run [DecidableEq A] (env : Env A) (c : Contract A) (reply : Reply) :
    Callback A → Outcome (Step A)
  | .supply01HandleTransfer marketId opId marketIndex attempted remainingBefore => do
    c.supply01HandleTransfer env (← reply.asAmount) marketId opId marketIndex attempted remainingBefore
  | .supply02PositionRead marketId opId marketIndex before _ _ remainingBefore => do
    c.supply02PositionRead env (← reply.asPosition) marketId opId marketIndex before remainingBefore
  | .withdraw01HandleCreateRequest opId market _ => do
    c.withdraw01HandleCreateRequest env (← reply.asDone) opId market
  | .rebalanceWithdraw01AfterCreateRequest _ _ => do
    c.rebalanceWithdraw01AfterCreateRequest (← reply.asDone)
  | .executeWithdraw01 opId market fencingToken => do
    c.executeWithdraw01 env (← reply.asAmount) opId market fencingToken
  | .executeWithdraw02 opId market fencingToken principal beforeBalance => do
    c.executeWithdraw02 env (← reply.asPosition) opId market fencingToken principal beforeBalance
  | .executeWithdraw03 opId market fencingToken beforePrincipal reportedPrincipal beforeBalance => do
    c.executeWithdraw03 env (← reply.asAmount) opId market fencingToken beforePrincipal
      reportedPrincipal beforeBalance
  | .rebalanceWithdraw01 opId marketId fencingToken beforePrincipal => do
    c.rebalanceWithdraw01 env (← reply.asAmount) opId marketId fencingToken beforePrincipal
  | .rebalanceWithdraw02 opId marketId fencingToken beforePrincipal beforeBalance => do
    c.rebalanceWithdraw02 env (← reply.asPosition) opId marketId fencingToken beforePrincipal
      beforeBalance
  | .rebalanceWithdraw03 opId marketId fencingToken beforePrincipal reportedPrincipal
      beforeBalance => do
    c.rebalanceWithdraw03 env (← reply.asAmount) opId marketId fencingToken beforePrincipal
      reportedPrincipal beforeBalance
  | .stopAndExitPayout01Reconcile opId => do
    c.stopAndExitPayout01Reconcile env (← reply.asAmount) opId
  | .payment01ReconcileIdleOrRefund opId receiver _ => do
    c.payment01ReconcileIdleOrRefund env (← reply.asDone) opId receiver
  | .refresh01Settle marketId opId index _ => do
    c.refresh01Settle env (← reply.asPosition) marketId opId index
  | .resyncIdleBalance01Settle opId _ beforeIdle _ => do
    return c.resyncIdleBalance01Settle (← reply.asAmount) opId beforeIdle

end Templar.Near
