import Templar.Vault.Transitions

/-!
# Actions of the vault kernel

`applyAction` dispatches an action to its handler. A handler checks its preconditions in the
order of the source and returns the first error it meets; the state it returns on success is
built up step by step, so nothing is committed before the last check has passed.
-/

namespace Templar.Vault

open Checked InvalidStateCode Number

variable {A : Type}

structure KernelResult (A : Type) where
  state : VaultState A
  effects : List (KernelEffect A)

inductive PayoutOutcome where
  | success
  | failure
  deriving DecidableEq, Repr

inductive KernelAction (A : Type) where
  | beginAllocating (opId : Nat) (plan : List AllocationPlanEntry) (nowNs : Nat)
  | deposit (owner receiver : A) (assetsIn minSharesOut nowNs : Nat)
  | atomicWithdraw (owner receiver operator : A) (assetsOut maxSharesBurned nowNs : Nat)
  | atomicRedeem (owner receiver operator : A) (shares minAssetsOut nowNs : Nat)
  | requestWithdraw (owner receiver : A) (shares minAssetsOut nowNs : Nat)
  | executeWithdraw (nowNs : Nat)
  | beginRefreshing (opId : Nat) (plan : List Nat) (nowNs : Nat)
  | finishAllocating (opId nowNs : Nat)
  | syncExternalAssets (newExternalAssets opId nowNs : Nat)
  | rebalanceWithdraw (opId amount nowNs : Nat)
  | finishRefreshing (opId nowNs : Nat)
  | abortRefreshing (opId : Nat)
  | settlePayout (opId : Nat) (outcome : PayoutOutcome)
  | abortAllocating (opId : Nat)
  | abortWithdrawing (opId : Nat)
  | refreshFees (nowNs : Nat)
  | pause (paused : Bool)
  | emergencyReset
  deriving DecidableEq, Repr

structure EffectiveTotals where
  supply : Nat
  assets : Nat
  deriving DecidableEq, Repr

variable (state : VaultState A) (config : VaultConfig A)

def effectiveTotals : EffectiveTotals where
  supply := saturatingAdd 128 state.totalShares (max config.virtualShares 1)
  assets := saturatingAdd 128 state.totalAssets (max config.virtualAssets 1)

def realBasisActive (realDenominator : Nat) : Bool :=
  decide (config.virtualAssets ≠ 0 ∧ realDenominator ≠ 0)

def virtualBasisQuote (amount : Nat) (toShares roundUp : Bool) : Nat :=
  let t := effectiveTotals state config
  if toShares then mulDivWithRounding amount t.supply t.assets roundUp
  else mulDivWithRounding amount t.assets t.supply roundUp

/-- The quote on the totals with offsets, or the one on the real totals where that is worse for
the account. -/
def dualBasisQuote (amount : Nat) (toShares roundUp : Bool) : Nat :=
  let virtualQuote := virtualBasisQuote state config amount toShares roundUp
  let realNumerator := if toShares then state.totalShares else state.totalAssets
  let realDenominator := if toShares then state.totalAssets else state.totalShares
  if !realBasisActive config realDenominator then virtualQuote
  else
    let realQuote := mulDivWithRounding amount realNumerator realDenominator roundUp
    if toShares then max virtualQuote realQuote else min virtualQuote realQuote

def boundedU128 (quotient cap : Nat) (code : InvalidStateCode) : KernelM Nat := do
  ensure (quotient ≤ cap) code.fault
  return asU128Trunc quotient

def convertToSharesBounded (assets cap : Nat) (code : InvalidStateCode) : KernelM Nat :=
  boundedU128 (virtualBasisQuote state config assets true false) cap code

def convertToRedeemAssetsBounded (shares cap : Nat) (code : InvalidStateCode) : KernelM Nat :=
  boundedU128 (dualBasisQuote state config shares false false) cap code

def convertToWithdrawSharesCeilBounded (assets cap : Nat) (code : InvalidStateCode) : KernelM Nat :=
  boundedU128 (dualBasisQuote state config assets true true) cap code

/-- A gain over the anchor that is charged at the anchor's own timestamp. -/
def performanceFeeIsDue : Bool :=
  decide (0 < state.totalShares ∧ config.fees.performance.feeWad ≠ 0 ∧
    config.fees.maxTotalAssetsGrowthRate = none ∧ state.feeAnchor.totalAssets < state.totalAssets)

def shouldRefreshFeesForValueTransfer (nowNs : Nat) : Bool :=
  if state.totalShares = 0 ∨ config.fees.hasActiveSlotFees = false then false
  else if state.feeAnchor.timestampNs < nowNs then true
  else decide (nowNs = state.feeAnchor.timestampNs) && performanceFeeIsDue state config

structure FeeAccrualOutcome where
  managementShares : Nat
  performanceShares : Nat
  newTotalShares : Nat
  newAnchor : FeeAccrualAnchor
  deriving DecidableEq, Repr

inductive FeeAccrualOverflow where
  | overflow
  deriving DecidableEq, Repr

def computeFeeAccrual (currentAssets totalShares : Nat) (anchor : FeeAccrualAnchor)
    (fees : FeesSpec A) (nowNs : Nat) : Except FeeAccrualOverflow FeeAccrualOutcome :=
  if fees.hasActiveSlotFees = false then .ok ⟨0, 0, totalShares, ⟨currentAssets, nowNs⟩⟩
  else do
    let feeAssetsBase := totalAssetsForFeeAccrual currentAssets anchor.totalAssets anchor.timestampNs
      nowNs fees.maxTotalAssetsGrowthRate
    let managementShares := computeManagementFeeShares feeAssetsBase currentAssets totalShares
      fees.management.feeWad anchor.timestampNs nowNs
    ensure (managementShares ≤ 2 ^ 128 - 1 - totalShares) .overflow
    let managementShares := asU128Trunc managementShares
    let supplyAfterManagement ← okOr (checkedAdd 128 totalShares managementShares) .overflow
    let profit := feeAssetsBase - anchor.totalAssets
    let performanceFeeAssets := Wad.applyFloored fees.performance.feeWad profit
    let performanceShares :=
      computeFeeSharesFromAssets performanceFeeAssets currentAssets supplyAfterManagement
    ensure (performanceShares ≤ 2 ^ 128 - 1 - supplyAfterManagement) .overflow
    let performanceShares := asU128Trunc performanceShares
    let newTotalShares ← okOr (checkedAdd 128 supplyAfterManagement performanceShares) .overflow
    return ⟨managementShares, performanceShares, newTotalShares, ⟨currentAssets, nowNs⟩⟩

def mintFeeShares (recipient : A) (shares : Nat) : List (KernelEffect A) :=
  if 0 < shares then [.mintShares recipient shares] else []

def handleRefreshFees (nowNs : Nat) : KernelM (KernelResult A) := do
  ensure (state.isIdle = true) refreshFeesRequiresIdle.fault
  ensure (state.feeAnchor.timestampNs ≤ nowNs) feeRefreshTimestampMustAdvance.fault
  -- at the anchor's own timestamp only a fee that is due may be charged
  ensure (nowNs ≠ state.feeAnchor.timestampNs ∨ performanceFeeIsDue state config = true)
    feeRefreshTimestampMustAdvance.fault
  let event := KernelEffect.emitEvent (.feesRefreshed nowNs state.totalAssets)
  if 0 < state.totalShares ∧ state.feeAnchor.isUninitialized = true ∧ state.totalAssets = 0 then
    return ⟨{ state with feeAnchor := ⟨state.totalAssets, nowNs⟩ }, [event]⟩
  else do
    let accrual ← (computeFeeAccrual state.totalAssets state.totalShares state.feeAnchor config.fees
      nowNs).mapError (fun _ => feeMintOverflowTotalSupply.fault)
    return ⟨{ state with totalShares := accrual.newTotalShares, feeAnchor := accrual.newAnchor },
      mintFeeShares config.fees.management.recipient accrual.managementShares ++
      mintFeeShares config.fees.performance.recipient accrual.performanceShares ++ [event]⟩

def refreshFeesBeforeValueTransfer (nowNs : Nat) : KernelM (KernelResult A) :=
  if shouldRefreshFeesForValueTransfer state config nowNs then handleRefreshFees state config nowNs
  else .ok ⟨state, []⟩

def requireActiveOpId (opState : OpState A) (provided : Nat) (code : InvalidStateCode) :
    KernelM Unit := do
  let active ← okOr opState.opId code.fault
  ensure (active = provided) (.error (.opIdMismatch active provided))

def checkOpId (expected actual : Nat) : KernelM Unit :=
  ensure (expected = actual) (.error (.opIdMismatch expected actual))

def requireIdleWithNonzeroAmount (idleError : InvalidStateCode) (amount : Nat) : KernelM Unit := do
  ensure (state.isIdle = true) idleError.fault
  ensure (amount ≠ 0) (.error .zeroAmount)

def mapTransitionResult (result : TransitionM (TransitionResult A)) :
    KernelM (TransitionResult A) :=
  result.mapError (fun e => .error (.transition e))

def applyTransitionResult (result : TransitionM (TransitionResult A)) :
    KernelM (KernelResult A) := do
  let result ← mapTransitionResult result
  return ⟨{ state with opState := result.newState }, result.effects⟩

def mapQueueError : QueueError → Fault
  | .queueFull current max => .error (.queueFull current max)
  | .cacheOverflow => withdrawalQueueCacheOverflow.fault
  | .withdrawalNotFound _ => withdrawalQueueMissingEntry.fault
  | .queueEmpty => unexpectedEmptyQueue.fault
  | .invariantViolation _ => withdrawalQueueInvariantViolation.fault

section

variable [DecidableEq A]

variable (restrictions : Option (Restrictions A)) (selfId : A)

def enforceRestrictions (actor : A) : KernelM Unit := do
  ensure (config.paused = false) (.error (.restricted .paused))
  match restrictions.bind (fun r => r.isRestricted actor) with
  | some kind => .error (.error (.restricted kind))
  | none => .ok ()

def enforceWithdrawalActors (owner receiver : A) : KernelM Unit := do
  enforceRestrictions config restrictions owner
  enforceRestrictions config restrictions receiver

def validateQueueHead (queue : WithdrawQueue A) (requestId : Nat) (owner receiver : A)
    (escrowShares : Nat) : KernelM Unit := do
  let (headId, pending) ← okOr queue.head (.error .noPendingWithdrawals)
  ensure (headId = requestId ∧ pending.owner = owner ∧ pending.receiver = receiver ∧
    pending.escrowShares = escrowShares) withdrawalQueueHeadMismatch.fault

def handleDeposit (owner receiver : A) (assetsIn minSharesOut nowNs : Nat) :
    KernelM (KernelResult A) := do
  enforceRestrictions config restrictions owner
  enforceRestrictions config restrictions receiver
  ensure (state.isIdle = true) depositRequiresIdle.fault
  ensure (assetsIn ≠ 0) (.error .zeroAmount)
  let refresh ← refreshFeesBeforeValueTransfer state config nowNs
  let state := refresh.state
  let sharesOut ← convertToSharesBounded state config assetsIn (2 ^ 128 - 1 - state.totalShares)
    .mintOverflowTotalShares
  ensure (sharesOut ≠ 0) (.error .zeroAmount)
  ensure (minSharesOut ≤ sharesOut) (.error (.slippage minSharesOut sharesOut))
  let totalAssets ← okOr (checkedAdd 128 state.totalAssets assetsIn)
    depositOverflowTotalAssets.fault
  let idleAssets ← okOr (checkedAdd 128 state.idleAssets assetsIn) depositOverflowIdleAssets.fault
  let totalShares ← okOr (checkedAdd 128 state.totalShares sharesOut) mintOverflowTotalShares.fault
  return ⟨{ state with
      totalAssets := totalAssets
      idleAssets := idleAssets
      totalShares := totalShares
      feeAnchor := ⟨totalAssets, nowNs⟩ },
    refresh.effects ++ [.transferAssetsFrom owner selfId assetsIn, .mintShares receiver sharesOut,
      .emitEvent (.depositProcessed owner receiver assetsIn sharesOut)]⟩

def atomicBurnShares (owner operator : A) (shares : Nat) : KernelEffect A :=
  if operator = owner then .burnShares owner shares else .burnSharesFrom operator owner shares

/-- The books and effects of an exit that burns `shares` and pays `assetsOut` at once. -/
def payAtomicExit (refresh : KernelResult A) (owner receiver operator : A)
    (shares assetsOut : Nat) : KernelM (KernelResult A) := do
  let state := refresh.state
  let totalShares ← okOr (checkedSub state.totalShares shares)
    atomicWithdrawBurnExceedsTotalShares.fault
  let idleAssets ← okOr (checkedSub state.idleAssets assetsOut)
    atomicWithdrawExceedsIdleAssets.fault
  let totalAssets ← okOr (checkedSub state.totalAssets assetsOut)
    atomicWithdrawTotalAssetsUnderflow.fault
  return ⟨{ state with
      totalShares := totalShares, idleAssets := idleAssets, totalAssets := totalAssets },
    refresh.effects ++ [atomicBurnShares owner operator shares, .transferAssets receiver assetsOut,
      .emitEvent (.atomicWithdrawProcessed owner receiver shares assetsOut)]⟩

def handleAtomicWithdraw (owner receiver operator : A) (assetsOut maxSharesBurned nowNs : Nat) :
    KernelM (KernelResult A) := do
  enforceWithdrawalActors config restrictions owner receiver
  requireIdleWithNonzeroAmount state .atomicWithdrawRequiresIdle assetsOut
  let refresh ← refreshFeesBeforeValueTransfer state config nowNs
  let shares ← convertToWithdrawSharesCeilBounded refresh.state config assetsOut
    refresh.state.totalShares .atomicWithdrawBurnExceedsTotalShares
  ensure (shares ≠ 0) (.error .zeroAmount)
  ensure (shares ≤ maxSharesBurned) (.error (.slippage maxSharesBurned shares))
  ensure (assetsOut ≤ refresh.state.idleAssets) atomicWithdrawExceedsIdleAssets.fault
  payAtomicExit refresh owner receiver operator shares assetsOut

def handleAtomicRedeem (owner receiver operator : A) (shares minAssetsOut nowNs : Nat) :
    KernelM (KernelResult A) := do
  enforceWithdrawalActors config restrictions owner receiver
  requireIdleWithNonzeroAmount state .atomicWithdrawRequiresIdle shares
  let refresh ← refreshFeesBeforeValueTransfer state config nowNs
  let assetsOut ← convertToRedeemAssetsBounded refresh.state config shares refresh.state.idleAssets
    .atomicWithdrawExceedsIdleAssets
  ensure (assetsOut ≠ 0) (.error .zeroAmount)
  ensure (minAssetsOut ≤ assetsOut) (.error (.slippage minAssetsOut assetsOut))
  ensure (assetsOut ≤ refresh.state.idleAssets) atomicWithdrawExceedsIdleAssets.fault
  payAtomicExit refresh owner receiver operator shares assetsOut

structure WithdrawalRequestPlan (A : Type) where
  owner : A
  receiver : A
  shares : Nat
  expectedAssets : Nat
  deriving DecidableEq, Repr

def planWithdrawalRequest (owner receiver : A) (shares minAssetsOut : Nat) :
    KernelM (WithdrawalRequestPlan A) := do
  let expectedAssets ← convertToRedeemAssetsBounded state config shares state.totalAssets
    .requestWithdrawExpectedAssetsExceedTotalAssets
  ensure (minAssetsOut ≤ expectedAssets) (.error (.slippage minAssetsOut expectedAssets))
  ensure (config.minWithdrawalAssets ≤ expectedAssets)
    (.error (.minWithdrawal expectedAssets config.minWithdrawalAssets))
  return ⟨owner, receiver, shares, expectedAssets⟩

def applyWithdrawalRequestPlan (requestPlan : WithdrawalRequestPlan A) (nowNs : Nat) :
    KernelM (KernelResult A) := do
  let (id, queue) ← (state.withdrawQueue.enqueue requestPlan.owner requestPlan.receiver
    requestPlan.shares requestPlan.expectedAssets nowNs config.maxPendingWithdrawals).mapError
      mapQueueError
  return ⟨{ state with withdrawQueue := queue },
    [.transferShares requestPlan.owner selfId requestPlan.shares,
      .emitEvent (.withdrawalRequested id requestPlan.owner requestPlan.receiver requestPlan.shares
        requestPlan.expectedAssets)]⟩

def handleRequestWithdraw (owner receiver : A) (shares minAssetsOut nowNs : Nat) :
    KernelM (KernelResult A) := do
  ensure (config.isMaxPendingValid = true) (.error (.invalidConfig .maxPendingWithdrawalsExceedsLimit))
  enforceWithdrawalActors config restrictions owner receiver
  requireIdleWithNonzeroAmount state .requestWithdrawRequiresIdle shares
  let refresh ← refreshFeesBeforeValueTransfer state config nowNs
  let requestPlan ← planWithdrawalRequest refresh.state config owner receiver shares minAssetsOut
  let result ← applyWithdrawalRequestPlan refresh.state config selfId requestPlan nowNs
  return ⟨result.state, refresh.effects ++ result.effects⟩

inductive WithdrawalHeadOutcome where
  | skip (reason : WithdrawalSkipReason)
  | coolingDown (requestedAtNs : Nat)
  | insufficientLiquidity
  | ready
  deriving DecidableEq, Repr

inductive WithdrawalQueueOutcome (A : Type) where
  | none
  | coolingDown (requestedAtNs : Nat)
  | insufficientLiquidity
  | ready (request : WithdrawalRequest A)
  deriving DecidableEq, Repr

def restrictedWithdrawActor (owner receiver : A) : Option RestrictionKind :=
  (restrictions.bind (fun r => r.isRestricted owner)).or
    (restrictions.bind (fun r => r.isRestrictedAllowingSelf receiver selfId))

def pendingWithdrawalSkipReason (owner receiver : A) (expectedAssets : Nat) :
    Option WithdrawalSkipReason :=
  if (restrictedWithdrawActor restrictions selfId owner receiver).isSome then some .restricted
  else if expectedAssets = 0 then some .zeroExpectedAssets
  else none

def hasActionableWithdrawalLiquidity (expectedAssets availableAssets : Nat) : Bool :=
  decide (expectedAssets ≤ availableAssets)

def classifyWithdrawalHead (head : PendingWithdrawal A) (config : VaultConfig A)
    (restrictions : Option (Restrictions A)) (selfId : A) (nowNs availableAssets : Nat) :
    WithdrawalHeadOutcome :=
  match pendingWithdrawalSkipReason restrictions selfId head.owner head.receiver
      head.expectedAssets with
  | some reason => .skip reason
  | none =>
    if !isPastCooldown head.requestedAtNs nowNs config.withdrawalCooldownNs then
      .coolingDown head.requestedAtNs
    else if !hasActionableWithdrawalLiquidity head.expectedAssets availableAssets then
      .insufficientLiquidity
    else .ready

/-- Drops the head and gives its escrow back. -/
def dequeueSkippedWithdrawal (skippedEffects : List (KernelEffect A))
    (reason : WithdrawalSkipReason) :
    KernelM (VaultState A × List (KernelEffect A)) := do
  let (head, queue) ← orAbort state.withdrawQueue.dequeue
  let (pendingId, pending) ← okOr head (.error .noPendingWithdrawals)
  return ({ state with withdrawQueue := queue },
    skippedEffects ++ refundShares selfId pending.owner pending.escrowShares ++
      [.emitEvent (.withdrawalSkipped pendingId pending.owner pending.receiver pending.escrowShares
        pending.expectedAssets reason)])

def withdrawalRequestFromHead (id : Nat) (head : PendingWithdrawal A) :
    KernelM (WithdrawalRequest A × VaultState A) := do
  let (opId, state) ← state.allocateOpId
  return (⟨opId, id, head.expectedAssets, head.receiver, head.owner, head.escrowShares⟩, state)

/-- The scan of the queue for the next request to execute. Every round but the last drops a
request, so a queue of `n` requests is done after `n + 1` rounds. -/
def nextWithdrawalQueueOutcomeLoop (config : VaultConfig A)
    (restrictions : Option (Restrictions A)) (selfId : A) (nowNs : Nat) :
    Nat → VaultState A → List (KernelEffect A) →
    KernelM (WithdrawalQueueOutcome A × VaultState A × List (KernelEffect A))
  | 0, _, _ => .error (.abort .unwrapNone)
  | rounds + 1, state, skippedEffects =>
    match state.withdrawQueue.head with
    | none => .ok (.none, state, skippedEffects)
    | some (id, head) =>
      match classifyWithdrawalHead head config restrictions selfId nowNs state.idleAssets with
      | .skip reason => do
        let (state, skippedEffects) ← dequeueSkippedWithdrawal state selfId skippedEffects reason
        nextWithdrawalQueueOutcomeLoop config restrictions selfId nowNs rounds state skippedEffects
      | .coolingDown requestedAtNs => .ok (.coolingDown requestedAtNs, state, skippedEffects)
      | .insufficientLiquidity => .ok (.insufficientLiquidity, state, skippedEffects)
      | .ready => do
        let (request, state) ← withdrawalRequestFromHead state id head
        return (.ready request, state, skippedEffects)

def nextWithdrawalQueueOutcome (nowNs : Nat) :
    KernelM (WithdrawalQueueOutcome A × VaultState A × List (KernelEffect A)) :=
  nextWithdrawalQueueOutcomeLoop config restrictions selfId nowNs (state.withdrawQueue.len + 1)
    state []

/-- A scan that starts nothing counts as done when it skipped something. -/
def doneIfSkipped (skippedEffects : List (KernelEffect A)) (e : KernelError) :
    KernelM (KernelResult A) := do
  ensure (skippedEffects ≠ []) (.error e)
  return ⟨state, skippedEffects⟩

def handleExecuteWithdraw (nowNs : Nat) : KernelM (KernelResult A) := do
  ensure (state.opState.isIdle = true) (if state.opState.isWithdrawing then
      executeWithdrawRequiresIdleUseCallbacks.fault
    else executeWithdrawRequiresIdle.fault)
  ensure (config.paused = false) (.error (.restricted .paused))
  let (outcome, state, skippedEffects) ←
    nextWithdrawalQueueOutcome state config restrictions selfId nowNs
  match outcome with
  | .none => doneIfSkipped state skippedEffects .noPendingWithdrawals
  | .coolingDown requestedAtNs =>
    doneIfSkipped state skippedEffects (.cooldown requestedAtNs nowNs config.withdrawalCooldownNs)
  | .insufficientLiquidity =>
    doneIfSkipped state skippedEffects (.invalidState .withdrawalLiquidityBelowMinimum)
  | .ready request => do
    let result ← applyTransitionResult state (startWithdrawal state.opState request)
    return ⟨result.state, skippedEffects ++ result.effects⟩

def handleBeginAllocating (opId : Nat) (plan : List AllocationPlanEntry) :
    KernelM (KernelResult A) := do
  let result ← mapTransitionResult (startAllocation state.opState plan opId)
  match result.newState with
  | .allocating alloc => do
    ensure (alloc.remaining ≤ state.idleAssets) allocationPlanExceedsIdleAssets.fault
    let state ← { state with idleAssets := state.idleAssets - alloc.remaining }.syncTotalAssets
    return ⟨{ state with opState := result.newState }, result.effects⟩
  | _ => .error startAllocationMustReturnAllocating.fault

def handleFinishAllocating (opId : Nat) : KernelM (KernelResult A) :=
  applyTransitionResult state (completeAllocation state.opState opId none)

def ensureSyncExternalStateAllowed : OpState A → KernelM Unit
  | .allocating _ => .ok ()
  | .withdrawing _ => .ok ()
  | .refreshing _ => .ok ()
  | _ => .error syncExternalRequiresAllowedStates.fault

def handleSyncExternalAssets (newExternalAssets opId : Nat) : KernelM (KernelResult A) := do
  requireActiveOpId state.opState opId .syncExternalRequiresActiveOp
  ensureSyncExternalStateAllowed state.opState
  let newTotalAssets ← okOr (checkedAdd 128 state.idleAssets newExternalAssets)
    syncExternalOverflowIdlePlusExternal.fault
  return ⟨{ state with externalAssets := newExternalAssets, totalAssets := newTotalAssets },
    [.emitEvent (.externalAssetsSynced opId newExternalAssets newTotalAssets)]⟩

def ensureRebalanceStateAllowed (opState : OpState A) (opId : Nat) : KernelM Unit :=
  match opState with
  | .idle => .ok ()
  | .allocating _ => requireActiveOpId opState opId .syncExternalRequiresActiveOp
  | _ => .error rebalanceWithdrawRequiresIdle.fault

def handleRebalanceWithdraw (opId amount : Nat) : KernelM (KernelResult A) := do
  ensureRebalanceStateAllowed state.opState opId
  ensure (amount ≤ state.externalAssets) rebalanceWithdrawExceedsExternalAssets.fault
  let idleAssets ← okOr (checkedAdd 128 state.idleAssets amount)
    rebalanceWithdrawOverflowsIdleAssets.fault
  let state ← { state with
    externalAssets := state.externalAssets - amount, idleAssets := idleAssets }.syncTotalAssets
  return ⟨state, [.emitEvent (.externalAssetsSynced opId state.externalAssets state.totalAssets)]⟩

def handleAbortRefreshing (opId : Nat) : KernelM (KernelResult A) := do
  requireActiveOpId state.opState opId .abortRefreshingRequiresActiveOp
  match state.opState with
  | .refreshing _ => return ⟨{ state with opState := .idle }, []⟩
  | _ => .error abortRefreshingRequiresRefreshing.fault

def handleAbortAllocating (opId : Nat) : KernelM (KernelResult A) :=
  match state.opState with
  | .allocating alloc => do
    checkOpId alloc.opId opId
    let state ← state.restoreToIdle alloc.remaining
    return ⟨{ state with opState := .idle }, []⟩
  | _ => .error abortAllocatingRequiresAllocating.fault

def handleAbortWithdrawing (opId : Nat) : KernelM (KernelResult A) :=
  match state.opState with
  | .withdrawing withdraw => do
    checkOpId withdraw.opId opId
    validateQueueHead state.withdrawQueue withdraw.requestId withdraw.owner withdraw.receiver
      withdraw.escrowShares
    let restored ← state.restoreToIdle withdraw.collected
    let result ← mapTransitionResult (stopWithdrawal state.opState opId selfId)
    let (_, queue) ← orAbort restored.withdrawQueue.dequeue
    return ⟨{ restored with opState := result.newState, withdrawQueue := queue }, result.effects⟩
  | _ => .error abortWithdrawingRequiresWithdrawing.fault

structure PayoutSettlement where
  burnShares : Nat
  refundShares : Nat
  completedAmount : Nat
  success : Bool
  deriving DecidableEq, Repr

def planPayoutSettlement (payout : PayoutState A) : PayoutOutcome → KernelM PayoutSettlement
  | .success => do
    let refundShares ← okOr (checkedSub payout.escrowShares payout.burnShares)
      payoutSuccessSettlementMismatch.fault
    return ⟨payout.burnShares, refundShares, payout.amount, true⟩
  | .failure => .ok ⟨0, payout.escrowShares, 0, false⟩

/-- The shares burned by a settlement leave the total. -/
def burnSettledShares (escrowAddress : A) (burnShares : Nat) : KernelM (KernelResult A) :=
  if 0 < burnShares then do
    let totalShares ← okOr (checkedSub state.totalShares burnShares)
      payoutBurnExceedsTotalShares.fault
    return ⟨{ state with totalShares := totalShares }, [.burnShares escrowAddress burnShares]⟩
  else .ok ⟨state, []⟩

/-- The assets paid by a successful settlement leave the idle balance. -/
def paySettledAssets (amount : Nat) (success : Bool) : KernelM (VaultState A) :=
  if success then do
    let idleAssets ← okOr (checkedSub state.idleAssets amount)
      payoutFailureRestoreIdleMismatch.fault
    { state with idleAssets := idleAssets }.syncTotalAssets
  else .ok state

def applyPayoutSettlement (payout : PayoutState A) (settlement : PayoutSettlement)
    (escrowAddress : A) : KernelM (KernelResult A) := do
  let burnt ← burnSettledShares state escrowAddress settlement.burnShares
  let paid ← paySettledAssets burnt.state payout.amount settlement.success
  return ⟨{ paid with opState := .idle },
    burnt.effects ++ refundShares escrowAddress payout.owner settlement.refundShares⟩

def handleSettlePayout (opId : Nat) (outcome : PayoutOutcome) : KernelM (KernelResult A) :=
  match state.opState with
  | .payout payout => do
    checkOpId payout.opId opId
    validateQueueHead state.withdrawQueue payout.requestId payout.owner payout.receiver
      payout.escrowShares
    let settlement ← planPayoutSettlement payout outcome
    let settled ← applyPayoutSettlement state payout settlement selfId
    let (_, queue) ← orAbort settled.state.withdrawQueue.dequeue
    return ⟨{ settled.state with withdrawQueue := queue },
      settled.effects ++ [.emitEvent (.payoutCompleted opId settlement.success settlement.burnShares
        settlement.refundShares settlement.completedAmount)]⟩
  | _ => .error settlePayoutRequiresPayout.fault

structure EmergencyResetOutcome (A : Type) where
  state : VaultState A
  opId : Nat
  fromCode : Nat
  refundOwner : Option A
  refundShares : Nat

def planEmergencyReset : KernelM (EmergencyResetOutcome A) := do
  let opId ← okOr state.opState.opId emergencyResetAlreadyIdle.fault
  let (restored, refundOwner, refundShares) ← release
  return ⟨{ restored with
      opState := .idle
      feeAnchor := ⟨restored.totalAssets, restored.feeAnchor.timestampNs⟩ },
    opId, state.opState.kindCode, refundOwner, refundShares⟩
where
  /-- What each operation gives back. -/
  release : KernelM (VaultState A × Option A × Nat) :=
    match state.opState with
    | .idle => .error emergencyResetAlreadyIdle.fault
    | .refreshing _ => .ok (state, none, 0)
    | .allocating alloc => do
      let restored ← state.restoreToIdle alloc.remaining
      return (restored, none, 0)
    | .withdrawing w => do
      let restored ← state.restoreToIdle w.collected
      let (_, queue) ← orAbort restored.withdrawQueue.dequeue
      return ({ restored with withdrawQueue := queue }, some w.owner, w.escrowShares)
    | .payout p => do
      let restored ← state.restoreToIdle p.amount
      let (_, queue) ← orAbort restored.withdrawQueue.dequeue
      return ({ restored with withdrawQueue := queue }, some p.owner, p.escrowShares)

def handleEmergencyReset : KernelM (KernelResult A) := do
  let outcome ← planEmergencyReset state
  let refund := match outcome.refundOwner with
    | some owner => refundShares selfId owner outcome.refundShares
    | none => []
  return ⟨outcome.state,
    refund ++ [.emitEvent (.emergencyResetCompleted outcome.opId outcome.fromCode)]⟩

def applyAction : KernelAction A → KernelM (KernelResult A)
  | .deposit owner receiver assetsIn minSharesOut nowNs =>
    handleDeposit state config restrictions selfId owner receiver assetsIn minSharesOut nowNs
  | .atomicWithdraw owner receiver operator assetsOut maxSharesBurned nowNs =>
    handleAtomicWithdraw state config restrictions owner receiver operator assetsOut maxSharesBurned
      nowNs
  | .atomicRedeem owner receiver operator shares minAssetsOut nowNs =>
    handleAtomicRedeem state config restrictions owner receiver operator shares minAssetsOut nowNs
  | .requestWithdraw owner receiver shares minAssetsOut nowNs =>
    handleRequestWithdraw state config restrictions selfId owner receiver shares minAssetsOut nowNs
  | .executeWithdraw nowNs => handleExecuteWithdraw state config restrictions selfId nowNs
  | .beginAllocating opId plan _ => handleBeginAllocating state opId plan
  | .finishAllocating opId _ => handleFinishAllocating state opId
  | .beginRefreshing opId plan _ =>
    applyTransitionResult state (startRefresh state.opState plan opId)
  | .finishRefreshing opId _ => applyTransitionResult state (completeRefresh state.opState opId)
  | .syncExternalAssets newExternalAssets opId _ =>
    handleSyncExternalAssets state newExternalAssets opId
  | .rebalanceWithdraw opId amount _ => handleRebalanceWithdraw state opId amount
  | .abortRefreshing opId => handleAbortRefreshing state opId
  | .abortAllocating opId => handleAbortAllocating state opId
  | .abortWithdrawing opId => handleAbortWithdrawing state selfId opId
  | .settlePayout opId outcome => handleSettlePayout state selfId opId outcome
  | .pause paused => .ok ⟨state, [.emitEvent (.pauseUpdated paused)]⟩
  | .refreshFees nowNs => handleRefreshFees state config nowNs
  | .emergencyReset => handleEmergencyReset state selfId

structure IdlePayoutPlan (A : Type) where
  opId : Nat
  requestId : Nat
  owner : A
  receiver : A
  assetsOut : Nat
  burnShares : Nat
  deriving DecidableEq, Repr

/-- The minimum the caller passes is not looked at. -/
def planIdlePayout (_minWithdrawalAssets : Nat) : KernelM (IdlePayoutPlan A) := do
  let (_, request) ← okOr state.withdrawQueue.head unexpectedEmptyQueue.fault
  match state.opState with
  | .withdrawing withdrawing => do
    ensure (request.owner = withdrawing.owner ∧ request.receiver = withdrawing.receiver ∧
      request.escrowShares = withdrawing.escrowShares)
      withdrawalQueueHeadMismatch.fault
    ensure (hasActionableWithdrawalLiquidity request.expectedAssets state.idleAssets = true)
      withdrawalLiquidityBelowMinimum.fault
    let settlement ← okOr
      (computeIdleSettlement request.escrowShares request.expectedAssets state.idleAssets)
      withdrawalLiquidityBelowMinimum.fault
    ensure (settlement.assetsOut ≠ 0) withdrawalLiquidityBelowMinimum.fault
    return ⟨withdrawing.opId, withdrawing.requestId, withdrawing.owner, withdrawing.receiver,
      settlement.assetsOut, settlement.settlement.toBurn⟩
  | _ => .error executeWithdrawRequiresIdleUseCallbacks.fault

/-- The runtime's payout step: plan from the idle assets, then settle the withdrawal. -/
def startIdlePayout (minWithdrawalAssets : Nat) : KernelM (KernelResult A) := do
  let plan ← planIdlePayout state minWithdrawalAssets
  applyTransitionResult state
    (withdrawalSettled state.opState plan.opId plan.assetsOut plan.burnShares)

end

end Templar.Vault
