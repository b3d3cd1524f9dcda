import Templar.Vault.Queue

/-!
# State, configuration, errors and effects of the vault kernel

The kernel is a pure function from a state and an action to a new state and a list of
effects, which the chain's runtime carries out. A call can fail in two ways: with an error
that it returns, or by an abort when checked arithmetic leaves its machine type. Either way
the caller keeps the state it had.
-/

namespace Templar.Vault

open Checked

variable {A : Type}

structure AllocationPlanEntry where
  targetId : Nat
  amount : Nat
  deriving DecidableEq, Repr

/-- A plan, and how far it has come. -/
structure AllocatingState where
  opId : Nat
  index : Nat
  remaining : Nat
  plan : List AllocationPlanEntry
  deriving DecidableEq, Repr

/-- A request that collects what it is owed. -/
structure WithdrawingState (A : Type) where
  opId : Nat
  requestId : Nat
  index : Nat
  remaining : Nat
  collected : Nat
  receiver : A
  owner : A
  escrowShares : Nat
  deriving DecidableEq, Repr

structure RefreshingState where
  opId : Nat
  index : Nat
  plan : List Nat
  deriving DecidableEq, Repr

/-- What was collected is on its way to the receiver. -/
structure PayoutState (A : Type) where
  opId : Nat
  requestId : Nat
  receiver : A
  amount : Nat
  owner : A
  escrowShares : Nat
  burnShares : Nat
  deriving DecidableEq, Repr

/-- What the vault is doing. -/
inductive OpState (A : Type) where
  | idle
  | allocating (s : AllocatingState)
  | withdrawing (s : WithdrawingState A)
  | refreshing (s : RefreshingState)
  | payout (s : PayoutState A)
  deriving DecidableEq, Repr

def AllocatingState.advance (s : AllocatingState) (amountAllocated : Nat) : AllocatingState :=
  { s with index := saturatingAdd 32 s.index 1, remaining := s.remaining - amountAllocated }

def WithdrawingState.advance (s : WithdrawingState A) (amountCollected : Nat) :
    WithdrawingState A :=
  { s with
    index := saturatingAdd 32 s.index 1
    remaining := s.remaining - amountCollected
    collected := saturatingAdd 128 s.collected amountCollected }

def RefreshingState.advance (s : RefreshingState) : RefreshingState :=
  { s with index := saturatingAdd 32 s.index 1 }

namespace OpState

def isIdle : OpState A → Bool
  | .idle => true
  | _ => false

def isWithdrawing : OpState A → Bool
  | .withdrawing _ => true
  | _ => false

def kindCode : OpState A → Nat
  | .idle => 0
  | .allocating _ => 1
  | .withdrawing _ => 2
  | .refreshing _ => 3
  | .payout _ => 4

def opId : OpState A → Option Nat
  | .idle => none
  | .allocating s => some s.opId
  | .withdrawing s => some s.opId
  | .refreshing s => some s.opId
  | .payout s => some s.opId

@[simp] theorem isIdle_iff {op : OpState A} : op.isIdle = true ↔ op = .idle := by
  cases op <;> simp [isIdle]

theorem isWithdrawing_iff {op : OpState A} :
    op.isWithdrawing = true ↔ ∃ s, op = .withdrawing s := by
  cases op <;> simp [isWithdrawing]

end OpState

inductive TransitionError where
  | wrongState
  | opIdMismatch (expected actual : Nat)
  | emptyAllocationPlan
  | emptyRefreshPlan
  | zeroWithdrawalAmount
  | zeroEscrowShares
  | invalidIndex (index max : Nat)
  | collectionOverflow (collected remaining : Nat)
  | allocationOverflow (allocated remaining : Nat)
  | zeroAllocationAmount
  | burnExceedsEscrow (burn escrow : Nat)
  | withdrawalIncomplete (remaining collected : Nat)
  deriving DecidableEq, Repr

inductive RestrictionKind where
  | paused
  | blacklisted
  | notWhitelisted
  deriving DecidableEq, Repr

inductive InvalidStateCode where
  | withdrawalQueueHeadMismatch
  | feeMintOverflowTotalSupply
  | withdrawalQueueCacheOverflow
  | withdrawalQueueMissingEntry
  | unexpectedEmptyQueue
  | withdrawalQueueInvariantViolation
  | depositRequiresIdle
  | depositOverflowTotalAssets
  | depositOverflowIdleAssets
  | mintOverflowTotalShares
  | requestWithdrawRequiresIdle
  | executeWithdrawRequiresIdle
  | executeWithdrawRequiresIdleUseCallbacks
  | startAllocationMustReturnAllocating
  | allocationPlanExceedsIdleAssets
  | syncExternalRequiresActiveOp
  | syncExternalRequiresAllowedStates
  | syncExternalOverflowIdlePlusExternal
  | abortRefreshingRequiresActiveOp
  | abortRefreshingRequiresRefreshing
  | abortAllocatingRequiresAllocating
  | abortWithdrawingRequiresWithdrawing
  | settlePayoutRequiresPayout
  | payoutSuccessSettlementMismatch
  | payoutBurnExceedsTotalShares
  | payoutFailureRestoreIdleMismatch
  | refreshFeesRequiresIdle
  | feeRefreshTimestampMustAdvance
  | emergencyResetAlreadyIdle
  | atomicWithdrawRequiresIdle
  | atomicWithdrawExceedsIdleAssets
  | atomicWithdrawBurnExceedsTotalShares
  | atomicWithdrawTotalAssetsUnderflow
  | rebalanceWithdrawRequiresIdle
  | rebalanceWithdrawExceedsExternalAssets
  | rebalanceWithdrawOverflowsIdleAssets
  | withdrawalLiquidityBelowMinimum
  | requestWithdrawExpectedAssetsExceedTotalAssets
  deriving DecidableEq, Repr

inductive InvalidConfigCode where
  | maxPendingWithdrawalsExceedsLimit
  deriving DecidableEq, Repr

inductive KernelError where
  | invalidState (code : InvalidStateCode)
  | opIdMismatch (expected actual : Nat)
  | slippage (min actual : Nat)
  | minWithdrawal (amount min : Nat)
  | queueFull (current max : Nat)
  | noPendingWithdrawals
  | cooldown (requestedAt now cooldownNs : Nat)
  | transition (e : TransitionError)
  | restricted (kind : RestrictionKind)
  | invalidConfig (code : InvalidConfigCode)
  | zeroAmount
  deriving DecidableEq, Repr

/-- How a call of the kernel fails: by an abort, or with an error it returns. -/
inductive Fault where
  | abort (reason : Panic)
  | error (e : KernelError)
  deriving DecidableEq, Repr

abbrev KernelM (α : Type) := Except Fault α

/-- Checked arithmetic inside the kernel aborts the call. -/
def orAbort {α : Type} (x : Outcome α) : KernelM α := x.mapError .abort

@[simp] theorem orAbort_eq_ok {α : Type} {x : Outcome α} {a : α} :
    orAbort x = .ok a ↔ x = .ok a := mapError_eq_ok

def InvalidStateCode.fault (code : InvalidStateCode) : Fault := .error (.invalidState code)

structure FeeSlot (A : Type) where
  feeWad : Nat
  recipient : A
  deriving DecidableEq, Repr

def FeeSlot.hasRate (slot : FeeSlot A) : Bool := decide (slot.feeWad ≠ 0)

structure FeesSpec (A : Type) where
  performance : FeeSlot A
  management : FeeSlot A
  maxTotalAssetsGrowthRate : Option Nat
  deriving DecidableEq, Repr

def FeesSpec.hasActiveSlotFees (fees : FeesSpec A) : Bool :=
  fees.performance.hasRate || fees.management.hasRate

/-- The total and the time that fees are counted from. -/
structure FeeAccrualAnchor where
  totalAssets : Nat
  timestampNs : Nat
  deriving DecidableEq, Repr

def FeeAccrualAnchor.zero : FeeAccrualAnchor := ⟨0, 0⟩

def FeeAccrualAnchor.isUninitialized (a : FeeAccrualAnchor) : Bool :=
  decide (a.totalAssets = 0 ∧ a.timestampNs = 0)

structure VaultConfig (A : Type) where
  fees : FeesSpec A
  minWithdrawalAssets : Nat
  withdrawalCooldownNs : Nat
  maxPendingWithdrawals : Nat
  paused : Bool
  virtualShares : Nat
  virtualAssets : Nat
  deriving DecidableEq, Repr

def VaultConfig.isMaxPendingValid (config : VaultConfig A) : Bool :=
  decide (config.maxPendingWithdrawals ≤ maxPending)

structure VaultState (A : Type) where
  totalAssets : Nat
  totalShares : Nat
  idleAssets : Nat
  externalAssets : Nat
  feeAnchor : FeeAccrualAnchor
  opState : OpState A
  withdrawQueue : WithdrawQueue A
  nextOpId : Nat

namespace VaultState

def new : VaultState A := ⟨0, 0, 0, 0, .zero, .idle, .new, 0⟩

variable (s : VaultState A)

def isIdle : Bool := s.opState.isIdle

/-- The id of the next operation, and the state that has given it out. -/
def allocateOpId : KernelM (Nat × VaultState A) := do
  let next ← orAbort (add 64 s.nextOpId 1)
  return (s.nextOpId, { s with nextOpId := next })

def syncTotalAssets : KernelM (VaultState A) := do
  let total ← orAbort (add 128 s.idleAssets s.externalAssets)
  return { s with totalAssets := total }

/-- An amount comes back, and the total is made up again. -/
def restoreToIdle (amount : Nat) : KernelM (VaultState A) := do
  let idle ← orAbort (add 128 s.idleAssets amount)
  { s with idleAssets := idle }.syncTotalAssets

variable {s s' : VaultState A} {amount id : Nat}

theorem syncTotalAssets_eq_ok :
    s.syncTotalAssets = .ok s' ↔ s.idleAssets + s.externalAssets < 2 ^ 128 ∧
      s' = { s with totalAssets := s.idleAssets + s.externalAssets } := by
  simp only [syncTotalAssets, do_ok, orAbort_eq_ok, pure, Except.pure]
  constructor
  · rintro ⟨_, ⟨h, rfl⟩, hs⟩
    cases hs
    exact ⟨h, rfl⟩
  · rintro ⟨h, rfl⟩
    exact ⟨_, ⟨h, rfl⟩, rfl⟩

theorem restoreToIdle_eq_ok :
    s.restoreToIdle amount = .ok s' ↔ s.idleAssets + amount + s.externalAssets < 2 ^ 128 ∧
      s' = { s with
        idleAssets := s.idleAssets + amount
        totalAssets := s.idleAssets + amount + s.externalAssets } := by
  simp only [restoreToIdle, do_ok, orAbort_eq_ok, syncTotalAssets_eq_ok]
  constructor
  · rintro ⟨_, ⟨-, rfl⟩, h, hs⟩
    exact ⟨h, hs⟩
  · rintro ⟨h, hs⟩
    exact ⟨_, ⟨by omega, rfl⟩, h, hs⟩

theorem allocateOpId_eq_ok :
    s.allocateOpId = .ok (id, s') ↔ s.nextOpId + 1 < 2 ^ 64 ∧ id = s.nextOpId ∧
      s' = { s with nextOpId := s.nextOpId + 1 } := by
  simp only [allocateOpId, do_ok, orAbort_eq_ok, pure, Except.pure]
  constructor
  · rintro ⟨_, ⟨h, rfl⟩, rfl, rfl⟩
    exact ⟨h, rfl, rfl⟩
  · rintro ⟨h, rfl, rfl⟩
    exact ⟨_, ⟨h, rfl⟩, rfl, rfl⟩

end VaultState

/-- Who may not use the vault, or who alone may. -/
inductive Restrictions (A : Type) where
  | blacklist (addresses : List A)
  | whitelist (addresses : List A)
  deriving DecidableEq, Repr

section

variable [DecidableEq A]

def Restrictions.isRestricted (r : Restrictions A) (actorId : A) : Option RestrictionKind :=
  match r with
  | .blacklist addresses => if actorId ∈ addresses then some .blacklisted else none
  | .whitelist addresses => if actorId ∈ addresses then none else some .notWhitelisted

def Restrictions.isRestrictedAllowingSelf (r : Restrictions A) (actorId selfId : A) :
    Option RestrictionKind :=
  match r with
  | .whitelist _ => if actorId = selfId then none else r.isRestricted actorId
  | .blacklist _ => r.isRestricted actorId

end

inductive WithdrawalSkipReason where
  | zeroExpectedAssets
  | restricted
  deriving DecidableEq, Repr

inductive KernelEvent (A : Type) where
  | allocationStarted (opId total planLen : Nat)
  | allocationStepFailed (opId index remaining totalAllocated : Nat)
  | allocationCompleted (opId : Nat) (hasWithdrawal : Bool)
  | withdrawalStarted (opId amount escrowShares : Nat) (owner receiver : A)
  | withdrawalCollected (opId burnShares collected : Nat)
  | withdrawalStopped (opId escrowShares : Nat)
  | withdrawalSkipped (id : Nat) (owner receiver : A) (escrowShares expectedAssets : Nat)
      (reason : WithdrawalSkipReason)
  | refreshStarted (opId planLen : Nat)
  | refreshCompleted (opId : Nat)
  | payoutCompleted (opId : Nat) (success : Bool) (burnShares refundShares amount : Nat)
  | depositProcessed (owner receiver : A) (assetsIn sharesOut : Nat)
  | atomicWithdrawProcessed (owner receiver : A) (sharesBurned assetsOut : Nat)
  | withdrawalRequested (id : Nat) (owner receiver : A) (shares expectedAssets : Nat)
  | externalAssetsSynced (opId newExternalAssets totalAssets : Nat)
  | feesRefreshed (nowNs totalAssets : Nat)
  | pauseUpdated (paused : Bool)
  | emergencyResetCompleted (opId fromState : Nat)
  deriving DecidableEq, Repr

/-- What the kernel asks of the tokens. -/
inductive KernelEffect (A : Type) where
  | mintShares (owner : A) (shares : Nat)
  | burnShares (owner : A) (shares : Nat)
  | burnSharesFrom (spender owner : A) (shares : Nat)
  | transferShares (source target : A) (shares : Nat)
  | transferAssets (target : A) (amount : Nat)
  | transferAssetsFrom (source target : A) (amount : Nat)
  | emitEvent (event : KernelEvent A)
  deriving DecidableEq, Repr

end Templar.Vault
