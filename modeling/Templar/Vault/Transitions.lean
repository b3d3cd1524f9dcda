import Templar.Vault.State

/-!
# Transitions of the operation state

Each transition checks that the machine is in the state it starts from and returns the next
state with its effects. The kernel's actions and the runtime's callbacks are put together
from these.
-/

namespace Templar.Vault

open Checked

variable {A : Type}

structure TransitionResult (A : Type) where
  newState : OpState A
  effects : List (KernelEffect A)
  deriving DecidableEq, Repr

abbrev TransitionM (α : Type) := Except TransitionError α

def validatePlanIndex (index planLen : Nat) : TransitionM Unit :=
  let len := planLen % 2 ^ 32
  ensure (index < len) (.invalidIndex index (len - 1))

variable (state : OpState A)

def requireIdle : TransitionM Unit :=
  ensure (state.isIdle = true) .wrongState

def requireAllocating : OpState A → TransitionM AllocatingState
  | .allocating s => .ok s
  | _ => .error .wrongState

def requireWithdrawing : OpState A → TransitionM (WithdrawingState A)
  | .withdrawing s => .ok s
  | _ => .error .wrongState

def requireRefreshing : OpState A → TransitionM RefreshingState
  | .refreshing s => .ok s
  | _ => .error .wrongState

def requirePayout : OpState A → TransitionM (PayoutState A)
  | .payout s => .ok s
  | _ => .error .wrongState

def requireOpId (expected actual : Nat) : TransitionM Unit :=
  ensure (expected = actual) (.opIdMismatch expected actual)

/-- The sum of the steps of a plan, stopping at the largest machine word. -/
def planTotal (plan : List AllocationPlanEntry) : Nat :=
  plan.foldl (fun total step => saturatingAdd 128 total step.amount) 0

def startAllocation (plan : List AllocationPlanEntry) (opId : Nat) :
    TransitionM (TransitionResult A) := do
  requireIdle state
  ensure (plan ≠ []) .emptyAllocationPlan
  let total := planTotal plan
  return ⟨.allocating ⟨opId, 0, total, plan⟩,
    [.emitEvent (.allocationStarted opId total (plan.length % 2 ^ 32))]⟩

def allocationStepCallback (success : Bool) (amountAllocated opId : Nat) :
    TransitionM (TransitionResult A) := do
  let alloc ← requireAllocating state
  requireOpId alloc.opId opId
  validatePlanIndex alloc.index alloc.plan.length
  if !success then
    let totalAllocated := planTotal alloc.plan - alloc.remaining
    return ⟨.idle,
      [.emitEvent (.allocationStepFailed alloc.opId alloc.index alloc.remaining totalAllocated)]⟩
  else
    -- a step that allocates nothing may not advance the plan
    ensure (amountAllocated ≠ 0) .zeroAllocationAmount
    ensure (amountAllocated ≤ alloc.remaining) (.allocationOverflow amountAllocated alloc.remaining)
    return ⟨.allocating (alloc.advance amountAllocated), []⟩

structure WithdrawalRequest (A : Type) where
  opId : Nat
  requestId : Nat
  amount : Nat
  receiver : A
  owner : A
  escrowShares : Nat
  deriving DecidableEq, Repr

def WithdrawalRequest.start (request : WithdrawalRequest A) : WithdrawingState A :=
  ⟨request.opId, request.requestId, 0, request.amount, 0, request.receiver, request.owner,
    request.escrowShares⟩

/-- A request that waits can follow at once. -/
def completeAllocation (opId : Nat) (pendingWithdrawal : Option (WithdrawalRequest A)) :
    TransitionM (TransitionResult A) := do
  let alloc ← requireAllocating state
  requireOpId alloc.opId opId
  -- a request for nothing is left to the queue
  match pendingWithdrawal.filter (fun req => 0 < req.amount) with
  | some req =>
    ensure (req.escrowShares ≠ 0) .zeroEscrowShares
    return ⟨.withdrawing req.start, [.emitEvent (.allocationCompleted opId true)]⟩
  | none => return ⟨.idle, [.emitEvent (.allocationCompleted opId false)]⟩

def startWithdrawal (request : WithdrawalRequest A) : TransitionM (TransitionResult A) := do
  requireIdle state
  ensure (request.amount ≠ 0) .zeroWithdrawalAmount
  ensure (request.escrowShares ≠ 0) .zeroEscrowShares
  return ⟨.withdrawing request.start,
    [.emitEvent (.withdrawalStarted request.opId request.amount request.escrowShares request.owner
      request.receiver)]⟩

/-- No more is collected than is still owed. -/
def withdrawalStepCallback (opId amountCollected : Nat) : TransitionM (TransitionResult A) := do
  let withdraw ← requireWithdrawing state
  requireOpId withdraw.opId opId
  ensure (amountCollected ≤ withdraw.remaining)
    (.collectionOverflow amountCollected withdraw.remaining)
  return ⟨.withdrawing (withdraw.advance amountCollected), []⟩

/-- The payout of what a withdrawal has collected. -/
def WithdrawingState.toPayout (withdraw : WithdrawingState A) (burnShares : Nat) : PayoutState A :=
  ⟨withdraw.opId, withdraw.requestId, withdraw.receiver, withdraw.collected, withdraw.owner,
    withdraw.escrowShares, burnShares⟩

/-- No more is burned than is in escrow. -/
def withdrawalSettled (opId amountCollected burnShares : Nat) :
    TransitionM (TransitionResult A) := do
  let stepped ← withdrawalStepCallback state opId amountCollected
  let withdraw ← requireWithdrawing stepped.newState
  ensure (burnShares ≤ withdraw.escrowShares) (.burnExceedsEscrow burnShares withdraw.escrowShares)
  return ⟨.payout (withdraw.toPayout burnShares),
    [.emitEvent (.withdrawalCollected opId burnShares withdraw.collected)]⟩

/-- A transfer of escrowed shares back to their owner; nothing for an empty escrow. -/
def refundShares (escrow owner : A) (shares : Nat) : List (KernelEffect A) :=
  if 0 < shares then [.transferShares escrow owner shares] else []

def stopWithdrawal (opId : Nat) (escrowAddress : A) : TransitionM (TransitionResult A) := do
  let withdraw ← requireWithdrawing state
  requireOpId withdraw.opId opId
  return ⟨.idle, refundShares escrowAddress withdraw.owner withdraw.escrowShares ++
    [.emitEvent (.withdrawalStopped opId withdraw.escrowShares)]⟩

def startRefresh (plan : List Nat) (opId : Nat) : TransitionM (TransitionResult A) := do
  requireIdle state
  ensure (plan ≠ []) .emptyRefreshPlan
  return ⟨.refreshing ⟨opId, 0, plan⟩, [.emitEvent (.refreshStarted opId (plan.length % 2 ^ 32))]⟩

def refreshStepCallback (opId : Nat) : TransitionM (TransitionResult A) := do
  let refresh ← requireRefreshing state
  requireOpId refresh.opId opId
  validatePlanIndex refresh.index refresh.plan.length
  return ⟨.refreshing refresh.advance, []⟩

def completeRefresh (opId : Nat) : TransitionM (TransitionResult A) := do
  let refresh ← requireRefreshing state
  requireOpId refresh.opId opId
  return ⟨.idle, [.emitEvent (.refreshCompleted opId)]⟩

/-- What is not burned goes back to the owner, after a failure all of it. -/
def payoutComplete (success : Bool) (opId : Nat) (escrowAddress : A) :
    TransitionM (TransitionResult A) := do
  let payout ← requirePayout state
  requireOpId payout.opId opId
  if success then
    ensure (payout.burnShares ≤ payout.escrowShares)
      (.burnExceedsEscrow payout.burnShares payout.escrowShares)
    let refund := payout.escrowShares - payout.burnShares
    return ⟨.idle, (if 0 < payout.burnShares then [.burnShares escrowAddress payout.burnShares] else []) ++
      refundShares escrowAddress payout.owner refund ++
      [.emitEvent (.payoutCompleted opId success payout.burnShares refund payout.amount)]⟩
  else
    return ⟨.idle, refundShares escrowAddress payout.owner payout.escrowShares ++
      [.emitEvent (.payoutCompleted opId success 0 payout.escrowShares 0)]⟩

variable {state : OpState A} {opId expected actual : Nat}

@[simp] theorem requireIdle_eq_ok {u : Unit} : requireIdle state = .ok u ↔ state = .idle := by
  simp [requireIdle]

@[simp] theorem requireAllocating_eq_ok {s : AllocatingState} :
    requireAllocating state = .ok s ↔ state = .allocating s := by
  cases state <;> simp [requireAllocating]

@[simp] theorem requireWithdrawing_eq_ok {s : WithdrawingState A} :
    requireWithdrawing state = .ok s ↔ state = .withdrawing s := by
  cases state <;> simp [requireWithdrawing]

@[simp] theorem requireRefreshing_eq_ok {s : RefreshingState} :
    requireRefreshing state = .ok s ↔ state = .refreshing s := by
  cases state <;> simp [requireRefreshing]

@[simp] theorem requireOpId_eq_ok {u : Unit} :
    requireOpId expected actual = .ok u ↔ expected = actual := by
  simp [requireOpId]

variable {r : TransitionResult A}

theorem startAllocation_eq_ok {plan : List AllocationPlanEntry} :
    startAllocation state plan opId = .ok r ↔ state = .idle ∧ plan ≠ [] ∧
      r = ⟨.allocating ⟨opId, 0, planTotal plan, plan⟩,
        [.emitEvent (.allocationStarted opId (planTotal plan) (plan.length % 2 ^ 32))]⟩ := by
  simp [startAllocation, do_ok, -bind_pure_comp]

/-- A plan is not advanced by nothing. -/
theorem allocationStepCallback_zero : allocationStepCallback state true 0 opId ≠ .ok r := by
  intro h
  simp [allocationStepCallback, do_ok, -bind_pure_comp] at h

theorem allocationStepCallback_eq_ok {n : Nat} :
    allocationStepCallback state true n opId = .ok r ↔ ∃ s, state = .allocating s ∧ s.opId = opId ∧
      s.index < s.plan.length % 2 ^ 32 ∧ n ≠ 0 ∧ n ≤ s.remaining ∧
      r = ⟨.allocating (s.advance n), []⟩ := by
  simp [allocationStepCallback, validatePlanIndex, do_ok, -bind_pure_comp]

theorem completeAllocation_eq_ok :
    completeAllocation state opId none = .ok r ↔ ∃ a, state = .allocating a ∧ a.opId = opId ∧
      r = ⟨.idle, [.emitEvent (.allocationCompleted opId false)]⟩ := by
  simp [completeAllocation, do_ok, -bind_pure_comp]

theorem startWithdrawal_eq_ok {request : WithdrawalRequest A} :
    startWithdrawal state request = .ok r ↔ state = .idle ∧ request.amount ≠ 0 ∧
      request.escrowShares ≠ 0 ∧
      r = ⟨.withdrawing request.start, [.emitEvent (.withdrawalStarted request.opId request.amount
        request.escrowShares request.owner request.receiver)]⟩ := by
  simp [startWithdrawal, do_ok, -bind_pure_comp]

theorem withdrawalStepCallback_eq_ok {n : Nat} :
    withdrawalStepCallback state opId n = .ok r ↔ ∃ w, state = .withdrawing w ∧ w.opId = opId ∧
      n ≤ w.remaining ∧ r = ⟨.withdrawing (w.advance n), []⟩ := by
  simp [withdrawalStepCallback, do_ok, -bind_pure_comp]

theorem withdrawalSettled_eq_ok {amountCollected burnShares : Nat} :
    withdrawalSettled state opId amountCollected burnShares = .ok r ↔
      ∃ w, state = .withdrawing w ∧ w.opId = opId ∧ amountCollected ≤ w.remaining ∧
        burnShares ≤ w.escrowShares ∧
        r = ⟨.payout ((w.advance amountCollected).toPayout burnShares),
          [.emitEvent (.withdrawalCollected opId burnShares (w.advance amountCollected).collected)]⟩ := by
  simp only [withdrawalSettled, withdrawalStepCallback, do_ok, requireWithdrawing_eq_ok,
    requireOpId_eq_ok, pure, Except.pure]
  constructor
  · rintro ⟨_, ⟨w, rfl, hop, hle, hstep⟩, w', hw', hburn, hr⟩
    cases hstep
    cases hw'
    cases hr
    exact ⟨w, rfl, hop, hle, hburn, rfl⟩
  · rintro ⟨w, rfl, hop, hle, hburn, rfl⟩
    exact ⟨_, ⟨w, rfl, hop, hle, rfl⟩, _, rfl, hburn, rfl⟩

theorem stopWithdrawal_eq_ok {escrowAddress : A} :
    stopWithdrawal state opId escrowAddress = .ok r ↔ ∃ w, state = .withdrawing w ∧ w.opId = opId ∧
      r = ⟨.idle, refundShares escrowAddress w.owner w.escrowShares ++
        [.emitEvent (.withdrawalStopped opId w.escrowShares)]⟩ := by
  simp [stopWithdrawal, do_ok, -bind_pure_comp]

theorem startRefresh_eq_ok {plan : List Nat} :
    startRefresh state plan opId = .ok r ↔ state = .idle ∧ plan ≠ [] ∧
      r = ⟨.refreshing ⟨opId, 0, plan⟩,
        [.emitEvent (.refreshStarted opId (plan.length % 2 ^ 32))]⟩ := by
  simp [startRefresh, do_ok, -bind_pure_comp]

theorem refreshStepCallback_eq_ok :
    refreshStepCallback state opId = .ok r ↔ ∃ s, state = .refreshing s ∧ s.opId = opId ∧
      s.index < s.plan.length % 2 ^ 32 ∧ r = ⟨.refreshing s.advance, []⟩ := by
  simp [refreshStepCallback, validatePlanIndex, do_ok, -bind_pure_comp]

theorem completeRefresh_eq_ok :
    completeRefresh state opId = .ok r ↔ ∃ s, state = .refreshing s ∧ s.opId = opId ∧
      r = ⟨.idle, [.emitEvent (.refreshCompleted opId)]⟩ := by
  simp [completeRefresh, do_ok, -bind_pure_comp]

end Templar.Vault
