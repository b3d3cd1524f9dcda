import Templar.Near.Fees

/-!
# Operations of the NEAR vault

How an operation stops, how a supply takes its next step, how a withdrawal is started, waits for
its markets and is paid. A function that has to wait returns the callback it has scheduled.

`stopAndExit` acts on the operation that is in progress when it runs. In a payout it can only
schedule a look at the token balance, since the transfer is already on its way.
-/

namespace Templar.Near

open Checked Vault Curator

variable {A : Type}

namespace Contract

variable (c : Contract A)

def ctxAllocating (opId : Nat) : Option AllocatingState :=
  match c.opState with
  | .allocating s => if s.opId = opId then some s else none
  | _ => none

def ctxWithdrawing (opId : Nat) : Option (WithdrawingState A) :=
  match c.opState with
  | .withdrawing s => if s.opId = opId then some s else none
  | _ => none

def ctxRefreshing (opId : Nat) : Option RefreshingState :=
  match c.opState with
  | .refreshing s => if s.opId = opId then some s else none
  | _ => none

def ctxPayout (opId : Nat) : Option (PayoutState A) :=
  match c.opState with
  | .payout s => if s.opId = opId then some s else none
  | _ => none

def isPayout : Bool :=
  match c.opState with
  | .payout _ => true
  | _ => false

def ensureIdle : Outcome Unit :=
  require (c.opState.isIdle = true) "Invariant: Only one op in flight; current op_state != Idle"

/-- The id of the next operation is given out; the counter stops at the largest id. -/
def takeOpId : Contract A := { c with nextOpId := saturatingAdd 64 c.nextOpId 1 }

def popHead : Outcome (Contract A) := do
  let (removed, queue) ← c.withdrawQueue.dequeue
  let _ ← expect "queue corrupt: head missing" removed
  return { c with withdrawQueue := queue }

def hasCurrentLease (env : Env A) (c : Contract A) (market opId token : Nat) : Bool :=
  ((c.marketExecutionLock.getActive market env.blockTimestamp).filter (fun lease =>
    lease.opId = some opId ∧ lease.fencingToken = token)).isSome

/-- A lease until the end of time. Any reason to refuse it is the same panic. -/
def lock (env : Env A) (c : Contract A) (market opId : Nat) :
    Outcome (Contract A × MarketLease) := do
  let acquired ← c.marketExecutionLock.tryAcquire market opId (some opId) env.blockTimestamp
    (2 ^ 64 - 1 - env.blockTimestamp)
  let (registry, lease) ← orPanic "Market is leased" acquired
  return ({ c with marketExecutionLock := registry }, lease)

def unlock (market opId token : Nat) : Outcome (Contract A) := do
  let registry ← orPanic "Market is leased"
    (c.marketExecutionLock.releaseIfOwnedWithToken market opId token)
  return { c with marketExecutionLock := registry }

section

variable [DecidableEq A]

def Gate.enforcePolicy (env : Env A) (gate : Gate A) (account : A) : Outcome Unit :=
  if gate.paused then .error (.message "Account is restricted: Paused")
  else
    match (gate.restrictions.bind Restrictions.toKernelMode).bind (fun policy =>
      policy.isRestrictedAllowingSelf account env.currentAccountId) with
    | some .blacklisted => .error (.message "Account is restricted: Blacklisted")
    | some .notWhitelisted => .error (.message "Account is restricted: NotWhitelisted")
    | some .paused => .error (.message "Account is restricted: Paused")
    | none => .ok ()

/-- A transfer of shares through the gates: no market may receive any, and both parties have to
be admitted. -/
def transfer (env : Env A) (c : Contract A) (sender receiver : A) (amount : Nat)
    (text : String) : Outcome (Contract A) := do
  require ((c.marketIds.lookup receiver).isNone = true)
    "Cannot transfer shares to a market contract that is managed by the vault"
  Gate.enforcePolicy env c.gate sender
  Gate.enforcePolicy env c.gate receiver
  let ledger ← expect text (c.shares.transfer sender receiver amount)
  return { c with shares := ledger }

end

/-- The reserved remainder goes back to the idle funds, whether or not it has left the vault. -/
def stopAndExitAllocating (s : AllocatingState) : Contract A :=
  { c.increaseIdleBalance s.remaining with
    marketExecutionLock := c.marketExecutionLock.clear
    idleResyncInflightOpId := 0
    opState := .idle }

variable [DecidableEq A]

variable (env : Env A) (c : Contract A)

/-- Escrowed shares go back to their owner, past the gates for share transfers. -/
def refundEscrow (owner : A) (shares : Nat) (text : String) : Outcome (Contract A) := do
  let ledger ← expect text (c.shares.transfer env.currentAccountId owner shares)
  return { c with shares := ledger }

def refundEscrowIfAny (owner : A) (shares : Nat) (text : String) : Outcome (Contract A) :=
  if 0 < shares then c.refundEscrow env owner shares text else .ok c

def refundEscrowAndGoIdle (owner : A) (escrowShares : Nat) (context : String) :
    Outcome (Contract A) := do
  let c := { c with marketExecutionLock := c.marketExecutionLock.clear }
  let c ← c.refundEscrowIfAny env owner escrowShares (context ++ " stop escrow refund failed")
  let c ← c.popHead
  return { c with withdrawRoute := [], opState := .idle }

def stopAndExit : Outcome (Step A) :=
  match c.opState with
  | .allocating s => .ok (c.stopAndExitAllocating s, none)
  | .withdrawing s => do
    let c ← c.refundEscrowAndGoIdle env s.owner s.escrowShares "Withdrawing"
    return (c, none)
  | .refreshing _ => .ok ({ c with opState := .idle }, none)
  | .payout s => .ok (c, some (.stopAndExitPayout01Reconcile s.opId))
  | .idle => .ok (c, none)

def supplyAndThen (marketId amount opId index remainingBefore : Nat) :
    Outcome (Option (Callback A)) := do
  let _ ← c.marketAccountByIdOrPanic marketId
  return some (.supply01HandleTransfer marketId opId index amount remainingBefore)

/-- A step without room asks the kernel to advance by nothing, which it refuses, so the loop does
not go around. -/
def stepAllocationLoop (env : Env A) : Nat → Contract A → Outcome (Step A)
  | 0, c => .ok (c, none)
  | rounds + 1, c =>
    match c.opState with
    | .allocating s =>
      if s.remaining = 0 then c.stopAndExit env
      else
        match s.plan[s.index]? with
        | none => c.stopAndExit env
        | some step =>
          let toSupply := min (c.roomOf step.targetId) step.amount
          if toSupply = 0 then do
            let result ← orPanic "Kernel allocation step failed"
              (allocationStepCallback c.opState true 0 s.opId)
            stepAllocationLoop env rounds { c with opState := result.newState }
          else do
            let promise ← c.supplyAndThen step.targetId toSupply s.opId s.index s.remaining
            return (c, promise)
    | _ => c.stopAndExit env

def stepAllocation : Outcome (Step A) := stepAllocationLoop env 1 c

def startAllocation (amount : Nat) (plan : List AllocationPlanEntry) : Outcome (Step A) :=
  if amount = 0 then .ok (c, none)
  else do
    c.ensureIdle
    let opId := c.nextOpId
    let c := c.takeOpId
    let result ← orPanic "Kernel begin allocation failed" (applyAction c.kernelStateMirror
      c.kernelConfigMirror c.kernelRestrictionsMirror env.currentAccountId
      (.beginAllocating opId plan env.blockTimestamp))
    stepAllocation env { c with
      idleBalance := result.state.idleAssets
      opState := result.state.opState
      nextOpId := result.state.nextOpId }

/-- The payout is booked before the transfer is sent. -/
def pay (opId : Nat) (receiver : A) (amount : Nat) (owner : A)
    (escrowShares burnShares : Nat) : Outcome (Step A) :=
  match c.ctxWithdrawing opId with
  | none => c.stopAndExit env
  | some w => do
    require (amount ≤ c.idleBalance) "idle underflow in payout"
    return ({ c with
        opState := .payout ⟨opId, w.requestId, receiver, amount, owner, escrowShares, burnShares⟩
        idleBalance := c.idleBalance - amount },
      some (.payment01ReconcileIdleOrRefund opId receiver amount))

/-- With everything collected the request is paid. Otherwise the next market of the route is
waited for; at the end of the route what there is gets paid, and a request that has collected
nothing stays at the head of the queue. -/
def payOrSignalNextWithdraw : Outcome (Step A) :=
  match c.opState with
  | .withdrawing w =>
    if w.remaining = 0 then
      c.pay env w.opId w.receiver w.collected w.owner w.escrowShares w.escrowShares
    else
      match c.withdrawRoute[w.index]? with
      | some _ => .ok (c, none)
      | none =>
        let requested := saturatingAdd 128 w.collected w.remaining
        let burnShares := ((computeIdleSettlement w.escrowShares requested w.collected).map
          (fun result => result.settlement.toBurn)).getD 0
        if 0 < w.collected then
          c.pay env w.opId w.receiver w.collected w.owner w.escrowShares burnShares
        else .ok ({ c with withdrawRoute := [], opState := .idle }, none)
  | _ => c.stopAndExit env

def startWithdraw (amount : Nat) (receiver owner : A) (escrowShares : Nat) (route : List Nat) :
    Outcome (Step A) :=
  if amount = 0 then c.stopAndExit env
  else
    match findFirstDuplicate route with
    | some dup => .error (.message ("Duplicate market in withdraw route: " ++ toString dup))
    | none => do
      c.ensureIdle
      let opId := c.nextOpId
      let c := c.takeOpId
      -- the idle funds are only earmarked here; they are taken when the payout starts
      let collectedFromIdle := min c.idleBalance amount
      let c := { c with withdrawRoute := route }
      let result ← orPanic "Kernel start withdrawal failed" (startWithdrawal c.opState
        ⟨opId, c.withdrawQueue.nextWithdrawToExecute, amount, receiver, owner, escrowShares⟩)
      let result ← (if 0 < collectedFromIdle then
          orPanic "Kernel idle withdraw step failed"
            (withdrawalStepCallback result.newState opId collectedFromIdle)
        else .ok result)
      payOrSignalNextWithdraw env { c with opState := result.newState }

/-- A refresh whose id is not the current one has nothing to do. -/
def refreshStep (opId : Nat) : Outcome (Step A) :=
  match c.ctxRefreshing opId with
  | none => .ok (c, none)
  | some s =>
    match s.plan[s.index]? with
    | none => .ok ({ c with lastRefreshNs := env.blockTimestamp, opState := .idle }, none)
    | some marketId => do
      let _ ← c.marketAccountByIdOrPanic marketId
      return (c, some (.refresh01Settle marketId opId s.index (c.principalOf marketId)))

end Contract

end Templar.Near
