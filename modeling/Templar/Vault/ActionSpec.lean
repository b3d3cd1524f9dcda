import Templar.Vault.Actions

/-!
# What a successful handler has done

One lemma for each handler: the checks that passed, the state it left and the effects it
returned. Everything proved about the kernel goes through these, and no other proof unfolds
a handler.
-/

namespace Templar.Vault

open Checked VaultState Option

variable {A : Type} {s s' : VaultState A} {config : VaultConfig A} {r : KernelResult A} {u : Unit}
  {quotient cap n shares nowNs amount assetsOut minAssetsOut : Nat} {code : InvalidStateCode}
  {x : TransitionM (TransitionResult A)} {skipped : List (KernelEffect A)}
  {w : PendingWithdrawal A}

@[simp] theorem isIdle_eq_true : s.isIdle = true ↔ s.opState = .idle := OpState.isIdle_iff

theorem checkOpId_eq_ok {expected actual : Nat} :
    checkOpId expected actual = .ok u ↔ expected = actual := by
  simp [checkOpId]

theorem boundedU128_eq_ok :
    boundedU128 quotient cap code = .ok n ↔ quotient ≤ cap ∧ n = Number.asU128Trunc quotient := by
  simp [boundedU128, do_ok, -bind_pure_comp]

/-- A quotient under a cap that fits a machine word is not cut. -/
theorem boundedU128_exact (hcap : cap < 2 ^ 128) (h : boundedU128 quotient cap code = .ok n) :
    n = quotient ∧ quotient ≤ cap := by
  obtain ⟨hle, rfl⟩ := boundedU128_eq_ok.mp h
  exact ⟨Number.asU128Trunc_of_lt (by omega), hle⟩

theorem mapTransitionResult_eq_ok {t : TransitionResult A} :
    mapTransitionResult x = .ok t ↔ x = .ok t := mapError_eq_ok

theorem applyTransitionResult_eq_ok : applyTransitionResult s x = .ok r ↔
      ∃ t, x = .ok t ∧ r = ⟨{ s with opState := t.newState }, t.effects⟩ := by
  simp [applyTransitionResult, do_ok, mapTransitionResult_eq_ok, -bind_pure_comp]

/-- An accrual mints the fee shares within a word and moves the anchor. -/
theorem computeFeeAccrual_eq_ok {assets : Nat} {anchor : FeeAccrualAnchor} {fees : FeesSpec A}
    {o : FeeAccrualOutcome} (hs : shares < 2 ^ 128)
    (h : computeFeeAccrual assets shares anchor fees nowNs = .ok o) :
    o.newTotalShares = shares + o.managementShares + o.performanceShares ∧
      o.newTotalShares < 2 ^ 128 ∧ o.newAnchor = ⟨assets, nowNs⟩ := by
  unfold computeFeeAccrual at h
  split at h
  · cases h
    exact ⟨rfl, hs, rfl⟩
  · simp only [do_ok] at h
    obtain ⟨-, _, ⟨-, rfl⟩, -, _, ⟨hlt, rfl⟩, rfl⟩ := h
    exact ⟨rfl, hlt, rfl⟩

/-- What one accrual may do: mint shares to the two recipients and move the anchor. -/
structure Accrual (config : VaultConfig A) (s : VaultState A) (r : KernelResult A) :
    Prop where
  idle : s.opState = .idle
  outcome : ∃ (m p nowNs : Nat) (anchor : FeeAccrualAnchor), s.totalShares + m + p < 2 ^ 128 ∧
    r = ⟨{ s with totalShares := s.totalShares + m + p, feeAnchor := anchor },
      mintFeeShares config.fees.management.recipient m ++
        mintFeeShares config.fees.performance.recipient p ++
        [.emitEvent (.feesRefreshed nowNs s.totalAssets)]⟩

/-- A refresh is an accrual. -/
theorem handleRefreshFees_accrual (hs : s.totalShares < 2 ^ 128)
    (h : handleRefreshFees s config nowNs = .ok r) : Accrual config s r := by
  simp only [handleRefreshFees, do_ok, isIdle_eq_true] at h
  obtain ⟨hidle, -, -, h⟩ := h
  refine ⟨hidle, ?_⟩
  split at h
  · cases h
    exact ⟨0, 0, nowNs, ⟨s.totalAssets, nowNs⟩, hs, rfl⟩
  · simp only [do_ok] at h
    obtain ⟨o, ho, rfl⟩ := h
    obtain ⟨htotal, hlt, -⟩ := computeFeeAccrual_eq_ok hs ho
    refine ⟨o.managementShares, o.performanceShares, nowNs, o.newAnchor, by omega, ?_⟩
    rw [htotal]

/-- Before a transfer fees accrue, or nothing happens. -/
theorem refreshFees_cases (hs : s.totalShares < 2 ^ 128)
    (h : refreshFeesBeforeValueTransfer s config nowNs = .ok r) :
    r = ⟨s, []⟩ ∨ Accrual config s r := by
  unfold refreshFeesBeforeValueTransfer at h
  split at h
  · exact .inr (handleRefreshFees_accrual hs h)
  · cases h
    exact .inl rfl

/-- Without an active fee nothing is refreshed. -/
theorem refreshFees_of_inactive (hf : config.fees.hasActiveSlotFees = false) :
    refreshFeesBeforeValueTransfer s config nowNs = .ok ⟨s, []⟩ := by
  simp [refreshFeesBeforeValueTransfer, shouldRefreshFeesForValueTransfer, hf]

variable {selfId owner receiver operator : A} {opId : Nat}

/-- The plan leaves the idle assets, and the total with them. -/
theorem handleBeginAllocating_eq_ok {plan : List AllocationPlanEntry}
    (h : handleBeginAllocating s opId plan = .ok r) :
    s.opState = .idle ∧ plan ≠ [] ∧ planTotal plan ≤ s.idleAssets ∧
      s.idleAssets - planTotal plan + s.externalAssets < 2 ^ 128 ∧
      r = ⟨{ s with
          idleAssets := s.idleAssets - planTotal plan
          totalAssets := s.idleAssets - planTotal plan + s.externalAssets
          opState := .allocating ⟨opId, 0, planTotal plan, plan⟩ },
        [.emitEvent (.allocationStarted opId (planTotal plan) (plan.length % 2 ^ 32))]⟩ := by
  simp only [handleBeginAllocating, do_ok, mapTransitionResult_eq_ok, startAllocation_eq_ok] at h
  obtain ⟨_, ⟨hidle, hplan, rfl⟩, h⟩ := h
  simp only [do_ok, syncTotalAssets_eq_ok] at h
  obtain ⟨hle, _, ⟨hlt, rfl⟩, rfl⟩ := h
  exact ⟨hidle, hplan, hle, hlt, rfl⟩

theorem handleFinishAllocating_eq_ok (h : handleFinishAllocating s opId = .ok r) :
    ∃ alloc, s.opState = .allocating alloc ∧ alloc.opId = opId ∧
      r = ⟨{ s with opState := .idle }, [.emitEvent (.allocationCompleted opId false)]⟩ := by
  simp only [handleFinishAllocating, applyTransitionResult_eq_ok, completeAllocation_eq_ok] at h
  obtain ⟨_, ⟨alloc, hop, hid, rfl⟩, rfl⟩ := h
  exact ⟨alloc, hop, hid, rfl⟩

theorem requireActiveOpId_eq_ok {op : OpState A} :
    requireActiveOpId op opId code = .ok u ↔ op.opId = some opId := by
  simp only [requireActiveOpId, do_ok]
  constructor
  · rintro ⟨a, ha, rfl⟩
    exact ha
  · intro h
    exact ⟨opId, h, rfl⟩

/-- A report replaces the external assets while an operation other than a payout is under way. -/
theorem handleSyncExternalAssets_eq_ok {newExternalAssets : Nat}
    (h : handleSyncExternalAssets s newExternalAssets opId = .ok r) :
    s.opState.opId = some opId ∧ s.opState.isIdle = false ∧ (∀ p, s.opState ≠ .payout p) ∧
      s.idleAssets + newExternalAssets < 2 ^ 128 ∧
      r = ⟨{ s with
          externalAssets := newExternalAssets, totalAssets := s.idleAssets + newExternalAssets },
        [.emitEvent (.externalAssetsSynced opId newExternalAssets
          (s.idleAssets + newExternalAssets))]⟩ := by
  simp only [handleSyncExternalAssets, do_ok, requireActiveOpId_eq_ok] at h
  obtain ⟨hid, hallowed, _, ⟨hlt, rfl⟩, rfl⟩ := h
  refine ⟨hid, ?_, ?_, hlt, rfl⟩
  · cases hop : s.opState with
    | idle =>
      rw [hop] at hid
      cases hid
    | _ => rfl
  · intro p hp
    rw [hp] at hallowed
    cases hallowed

/-- External assets become idle ones. -/
theorem handleRebalanceWithdraw_eq_ok (h : handleRebalanceWithdraw s opId amount = .ok r) :
    (s.opState = .idle ∨ ∃ alloc, s.opState = .allocating alloc ∧ alloc.opId = opId) ∧
      amount ≤ s.externalAssets ∧ s.idleAssets + amount + (s.externalAssets - amount) < 2 ^ 128 ∧
      r = ⟨{ s with
          externalAssets := s.externalAssets - amount
          idleAssets := s.idleAssets + amount
          totalAssets := s.idleAssets + amount + (s.externalAssets - amount) },
        [.emitEvent (.externalAssetsSynced opId (s.externalAssets - amount)
          (s.idleAssets + amount + (s.externalAssets - amount)))]⟩ := by
  simp only [handleRebalanceWithdraw, do_ok, syncTotalAssets_eq_ok] at h
  obtain ⟨hallowed, hle, _, ⟨-, rfl⟩, _, ⟨hlt, rfl⟩, rfl⟩ := h
  refine ⟨?_, hle, hlt, rfl⟩
  cases hop : s.opState with
  | idle => exact .inl rfl
  | allocating alloc =>
    rw [hop, ensureRebalanceStateAllowed, requireActiveOpId_eq_ok] at hallowed
    exact .inr ⟨alloc, rfl, some.inj hallowed⟩
  | _ =>
    rw [hop] at hallowed
    cases hallowed

theorem handleAbortRefreshing_eq_ok (h : handleAbortRefreshing s opId = .ok r) :
    ∃ f, s.opState = .refreshing f ∧ f.opId = opId ∧ r = ⟨{ s with opState := .idle }, []⟩ := by
  simp only [handleAbortRefreshing, do_ok, requireActiveOpId_eq_ok] at h
  obtain ⟨hid, h⟩ := h
  split at h
  · rename_i f hop
    rw [hop] at hid
    exact ⟨f, hop, some.inj hid, pure_eq_ok.mp h⟩
  · cases h

/-- What is left of the plan comes back. -/
theorem handleAbortAllocating_eq_ok (h : handleAbortAllocating s opId = .ok r) :
    ∃ alloc, s.opState = .allocating alloc ∧ alloc.opId = opId ∧
      s.idleAssets + alloc.remaining + s.externalAssets < 2 ^ 128 ∧
      r = ⟨{ s with
        idleAssets := s.idleAssets + alloc.remaining
        totalAssets := s.idleAssets + alloc.remaining + s.externalAssets
        opState := .idle }, []⟩ := by
  unfold handleAbortAllocating at h
  split at h
  · rename_i alloc hop
    simp only [do_ok, checkOpId_eq_ok, restoreToIdle_eq_ok] at h
    obtain ⟨hid, _, ⟨hlt, rfl⟩, rfl⟩ := h
    exact ⟨alloc, hop, hid, hlt, rfl⟩
  · cases h

theorem burnSettledShares_eq_ok : burnSettledShares s selfId n = .ok r ↔ n ≤ s.totalShares ∧
      r = ⟨{ s with totalShares := s.totalShares - n }, if 0 < n then [.burnShares selfId n] else []⟩ := by
  unfold burnSettledShares
  by_cases hn : 0 < n
  · simp only [hn, ↓reduceIte, do_ok, checkedSub_eq_some]
    constructor
    · rintro ⟨_, ⟨hle, rfl⟩, rfl⟩
      exact ⟨hle, rfl⟩
    · rintro ⟨hle, rfl⟩
      exact ⟨_, ⟨hle, rfl⟩, rfl⟩
  · obtain rfl : n = 0 := by omega
    simp [eq_comm]

/-- A reset gives back what the operation is said to hold, and the escrow with it. -/
theorem handleEmergencyReset_eq_ok (h : handleEmergencyReset s selfId = .ok r) :
    match s.opState with
    | .idle => False
    | .refreshing f =>
        r = ⟨{ s with opState := .idle, feeAnchor := ⟨s.totalAssets, s.feeAnchor.timestampNs⟩ },
          [.emitEvent (.emergencyResetCompleted f.opId 3)]⟩
    | .allocating alloc => s.idleAssets + alloc.remaining + s.externalAssets < 2 ^ 128 ∧
        r = ⟨{ s with
            idleAssets := s.idleAssets + alloc.remaining
            totalAssets := s.idleAssets + alloc.remaining + s.externalAssets
            opState := .idle
            feeAnchor := ⟨s.idleAssets + alloc.remaining + s.externalAssets,
              s.feeAnchor.timestampNs⟩ },
          [.emitEvent (.emergencyResetCompleted alloc.opId 1)]⟩
    | .withdrawing w => s.idleAssets + w.collected + s.externalAssets < 2 ^ 128 ∧
        ∃ o queue, s.withdrawQueue.dequeue = .ok (o, queue) ∧
          r = ⟨{ s with
              idleAssets := s.idleAssets + w.collected
              totalAssets := s.idleAssets + w.collected + s.externalAssets
              opState := .idle
              withdrawQueue := queue
              feeAnchor := ⟨s.idleAssets + w.collected + s.externalAssets,
                s.feeAnchor.timestampNs⟩ },
            refundShares selfId w.owner w.escrowShares ++
              [.emitEvent (.emergencyResetCompleted w.opId 2)]⟩
    | .payout p => s.idleAssets + p.amount + s.externalAssets < 2 ^ 128 ∧
        ∃ o queue, s.withdrawQueue.dequeue = .ok (o, queue) ∧
          r = ⟨{ s with
              idleAssets := s.idleAssets + p.amount
              totalAssets := s.idleAssets + p.amount + s.externalAssets
              opState := .idle
              withdrawQueue := queue
              feeAnchor := ⟨s.idleAssets + p.amount + s.externalAssets,
                s.feeAnchor.timestampNs⟩ },
            refundShares selfId p.owner p.escrowShares ++
              [.emitEvent (.emergencyResetCompleted p.opId 4)]⟩ := by
  simp only [handleEmergencyReset, planEmergencyReset, do_ok] at h
  obtain ⟨_, ⟨id, hid, ⟨restored, refundOwner, shares⟩, hrel, rfl⟩, rfl⟩ := h
  unfold planEmergencyReset.release at hrel
  cases hop : s.opState with
  | idle =>
    rw [hop] at hid
    cases hid
  | refreshing f =>
    rw [hop] at hid hrel
    cases hid
    cases hrel
    rfl
  | allocating alloc =>
    rw [hop] at hid hrel
    cases hid
    simp only [do_ok, restoreToIdle_eq_ok] at hrel
    obtain ⟨_, ⟨hlt, rfl⟩, rfl, rfl, rfl⟩ := hrel
    exact ⟨hlt, rfl⟩
  | withdrawing w | payout p =>
    rw [hop] at hid hrel
    cases hid
    simp only [do_ok, restoreToIdle_eq_ok, orAbort_eq_ok] at hrel
    obtain ⟨_, ⟨hlt, rfl⟩, ⟨o, queue⟩, hq, rfl, rfl, rfl⟩ := hrel
    exact ⟨hlt, o, queue, hq, rfl⟩

/-- A request that is skipped leaves the queue, and its escrow goes back. -/
theorem dequeueSkippedWithdrawal_eq_ok {reason : WithdrawalSkipReason}
    {x : VaultState A × List (KernelEffect A)}
    (h : dequeueSkippedWithdrawal s selfId skipped reason = .ok x) :
    ∃ (id : Nat) (w : PendingWithdrawal A) (queue : WithdrawQueue A),
      s.withdrawQueue.dequeue = .ok (some (id, w), queue) ∧
      x = ({ s with withdrawQueue := queue }, skipped ++ refundShares selfId w.owner w.escrowShares ++
        [.emitEvent (.withdrawalSkipped id w.owner w.receiver w.escrowShares w.expectedAssets
          reason)]) := by
  simp only [dequeueSkippedWithdrawal, do_ok, orAbort_eq_ok] at h
  obtain ⟨⟨_, queue⟩, hq, ⟨id, w⟩, rfl, rfl⟩ := h
  exact ⟨id, w, queue, hq, rfl⟩

theorem doneIfSkipped_eq_ok {e : KernelError} :
    doneIfSkipped s skipped e = .ok r ↔ skipped ≠ [] ∧ r = ⟨s, skipped⟩ := by
  simp [doneIfSkipped, do_ok, -bind_pure_comp]

theorem withdrawalRequestFromHead_eq_ok {id : Nat} {x : WithdrawalRequest A × VaultState A}
    (h : withdrawalRequestFromHead s id w = .ok x) :
    x = (⟨s.nextOpId, id, w.expectedAssets, w.receiver, w.owner, w.escrowShares⟩,
      { s with nextOpId := s.nextOpId + 1 }) := by
  simp only [withdrawalRequestFromHead, do_ok] at h
  obtain ⟨⟨id', s'⟩, hid, rfl⟩ := h
  obtain ⟨-, rfl, rfl⟩ := allocateOpId_eq_ok.mp hid
  rfl

/-- The time of a request or of an exit. -/
def KernelAction.leavesAt : KernelAction A → Option Nat
  | .atomicWithdraw _ _ _ _ _ nowNs | .atomicRedeem _ _ _ _ _ nowNs
  | .requestWithdraw _ _ _ _ nowNs => some nowNs
  | _ => none

variable [DecidableEq A] {restrictions : Option (Restrictions A)}

/-- A deposit of `assetsIn` for `sharesOut` from a state whose fees are settled. -/
def depositResult (s : VaultState A) (selfId owner receiver : A)
    (assetsIn sharesOut nowNs : Nat) : KernelResult A :=
  ⟨{ s with
      totalAssets := s.totalAssets + assetsIn
      idleAssets := s.idleAssets + assetsIn
      totalShares := s.totalShares + sharesOut
      feeAnchor := ⟨s.totalAssets + assetsIn, nowNs⟩ },
    [.transferAssetsFrom owner selfId assetsIn, .mintShares receiver sharesOut,
      .emitEvent (.depositProcessed owner receiver assetsIn sharesOut)]⟩

/-- Fees accrue first; the shares are counted in the totals they leave. -/
theorem handleDeposit_eq_ok {assetsIn minSharesOut : Nat}
    (h : handleDeposit s config restrictions selfId owner receiver assetsIn minSharesOut nowNs =
      .ok r) :
    ∃ (a : KernelResult A) (n : Nat), s.opState = .idle ∧ assetsIn ≠ 0 ∧
      refreshFeesBeforeValueTransfer s config nowNs = .ok a ∧
      convertToSharesBounded a.state config assetsIn (2 ^ 128 - 1 - a.state.totalShares)
        .mintOverflowTotalShares = .ok n ∧ n ≠ 0 ∧ minSharesOut ≤ n ∧
      a.state.totalAssets + assetsIn < 2 ^ 128 ∧ a.state.idleAssets + assetsIn < 2 ^ 128 ∧
      a.state.totalShares + n < 2 ^ 128 ∧
      r = ⟨(depositResult a.state selfId owner receiver assetsIn n nowNs).state,
        a.effects ++ (depositResult a.state selfId owner receiver assetsIn n nowNs).effects⟩ := by
  simp only [handleDeposit, do_ok, isIdle_eq_true] at h
  obtain ⟨-, -, hidle, hne, a, ha, n, hn, hn0, hmin, _, ⟨h₁, rfl⟩, _, ⟨h₂, rfl⟩, _, ⟨h₃, rfl⟩, rfl⟩ := h
  exact ⟨a, n, hidle, hne, ha, hn, hn0, hmin, h₁, h₂, h₃, rfl⟩

/-- An exit that burns `shares` of the owner and pays `assetsOut`. -/
def exitResult (s : VaultState A) (owner receiver operator : A)
    (shares assetsOut : Nat) : KernelResult A :=
  ⟨{ s with
      totalShares := s.totalShares - shares
      idleAssets := s.idleAssets - assetsOut
      totalAssets := s.totalAssets - assetsOut },
    [atomicBurnShares owner operator shares, .transferAssets receiver assetsOut,
      .emitEvent (.atomicWithdrawProcessed owner receiver shares assetsOut)]⟩

/-- An exit is paid from the idle assets. -/
theorem payAtomicExit_eq_ok {a : KernelResult A} :
    payAtomicExit a owner receiver operator shares assetsOut = .ok r ↔
      shares ≤ a.state.totalShares ∧ assetsOut ≤ a.state.idleAssets ∧
      assetsOut ≤ a.state.totalAssets ∧
      r = ⟨(exitResult a.state owner receiver operator shares assetsOut).state,
        a.effects ++ (exitResult a.state owner receiver operator shares assetsOut).effects⟩ := by
  simp only [payAtomicExit, do_ok, checkedSub_eq_some]
  constructor
  · rintro ⟨_, ⟨h₁, rfl⟩, _, ⟨h₂, rfl⟩, _, ⟨h₃, rfl⟩, rfl⟩
    exact ⟨h₁, h₂, h₃, rfl⟩
  · rintro ⟨h₁, h₂, h₃, rfl⟩
    exact ⟨_, ⟨h₁, rfl⟩, _, ⟨h₂, rfl⟩, _, ⟨h₃, rfl⟩, rfl⟩

theorem requireIdleWithNonzeroAmount_eq_ok :
    requireIdleWithNonzeroAmount s code amount = .ok u ↔ s.opState = .idle ∧ amount ≠ 0 := by
  simp [requireIdleWithNonzeroAmount, do_ok]

theorem handleAtomicWithdraw_eq_ok {maxSharesBurned : Nat}
    (h : handleAtomicWithdraw s config restrictions owner receiver operator assetsOut maxSharesBurned
      nowNs = .ok r) : ∃ (a : KernelResult A) (n : Nat), s.opState = .idle ∧ assetsOut ≠ 0 ∧
      refreshFeesBeforeValueTransfer s config nowNs = .ok a ∧
      convertToWithdrawSharesCeilBounded a.state config assetsOut a.state.totalShares
        .atomicWithdrawBurnExceedsTotalShares = .ok n ∧ n ≠ 0 ∧ n ≤ maxSharesBurned ∧
      assetsOut ≤ a.state.idleAssets ∧
      payAtomicExit a owner receiver operator n assetsOut = .ok r := by
  simp only [handleAtomicWithdraw, do_ok, requireIdleWithNonzeroAmount_eq_ok] at h
  obtain ⟨-, ⟨hidle, hne⟩, a, ha, n, hn, hn0, hmax, hliq, h⟩ := h
  exact ⟨a, n, hidle, hne, ha, hn, hn0, hmax, hliq, h⟩

theorem handleAtomicRedeem_eq_ok
    (h : handleAtomicRedeem s config restrictions owner receiver operator shares minAssetsOut nowNs =
      .ok r) : ∃ (a : KernelResult A) (n : Nat), s.opState = .idle ∧ shares ≠ 0 ∧
      refreshFeesBeforeValueTransfer s config nowNs = .ok a ∧
      convertToRedeemAssetsBounded a.state config shares a.state.idleAssets
        .atomicWithdrawExceedsIdleAssets = .ok n ∧ n ≠ 0 ∧ minAssetsOut ≤ n ∧
      payAtomicExit a owner receiver operator shares n = .ok r := by
  simp only [handleAtomicRedeem, do_ok, requireIdleWithNonzeroAmount_eq_ok] at h
  obtain ⟨-, ⟨hidle, hne⟩, a, ha, n, hn, hn0, hmin, -, h⟩ := h
  exact ⟨a, n, hidle, hne, ha, hn, hn0, hmin, h⟩

/-- The shares are escrowed and the request queued with what they are worth now. -/
theorem handleRequestWithdraw_eq_ok
    (h : handleRequestWithdraw s config restrictions selfId owner receiver shares minAssetsOut nowNs =
      .ok r) : ∃ (a : KernelResult A) (expected id : Nat) (queue : WithdrawQueue A),
      s.opState = .idle ∧ shares ≠ 0 ∧ config.maxPendingWithdrawals ≤ maxPending ∧
      refreshFeesBeforeValueTransfer s config nowNs = .ok a ∧
      convertToRedeemAssetsBounded a.state config shares a.state.totalAssets
        .requestWithdrawExpectedAssetsExceedTotalAssets = .ok expected ∧ minAssetsOut ≤ expected ∧
      config.minWithdrawalAssets ≤ expected ∧
      a.state.withdrawQueue.enqueueWithdrawal ⟨owner, receiver, shares, expected, nowNs⟩
        config.maxPendingWithdrawals = .ok (id, queue) ∧
      r = ⟨{ a.state with withdrawQueue := queue }, a.effects ++
        [.transferShares owner selfId shares,
          .emitEvent (.withdrawalRequested id owner receiver shares expected)]⟩ := by
  simp only [handleRequestWithdraw, planWithdrawalRequest, applyWithdrawalRequestPlan, do_ok,
    requireIdleWithNonzeroAmount_eq_ok, VaultConfig.isMaxPendingValid, decide_eq_true_eq] at h
  obtain ⟨hmax, -, ⟨hidle, hne⟩, a, ha, _, ⟨expected, hx, hmin, hfloor, rfl⟩, _, ⟨⟨id, queue⟩, hq,
    rfl⟩, rfl⟩ := h
  exact ⟨a, expected, id, queue, hidle, hne, hmax, ha, hx, hmin, hfloor, hq, rfl⟩

/-- A request or an exit first settles the fees of a kernel at rest, and touches neither the anchor
nor the external assets after that; the total does not grow. -/
theorem applyAction_leaves {action : KernelAction A} (hleaves : action.leavesAt = some nowNs)
    (h : applyAction s config restrictions selfId action = .ok r) :
    ∃ a, s.opState = .idle ∧ refreshFeesBeforeValueTransfer s config nowNs = .ok a ∧
      r.state.feeAnchor = a.state.feeAnchor ∧ r.state.externalAssets = a.state.externalAssets ∧
      r.state.opState = a.state.opState ∧ r.state.totalAssets ≤ a.state.totalAssets := by
  cases action with
  | atomicWithdraw owner receiver operator assetsOut maxSharesBurned nowNs =>
    cases hleaves
    obtain ⟨a, n, hidle, -, ha, -, -, -, -, hpay⟩ := handleAtomicWithdraw_eq_ok h
    obtain ⟨-, -, -, rfl⟩ := payAtomicExit_eq_ok.mp hpay
    exact ⟨a, hidle, ha, rfl, rfl, rfl, Nat.sub_le _ _⟩
  | atomicRedeem owner receiver operator shares minAssetsOut nowNs =>
    cases hleaves
    obtain ⟨a, n, hidle, -, ha, -, -, -, hpay⟩ := handleAtomicRedeem_eq_ok h
    obtain ⟨-, -, -, rfl⟩ := payAtomicExit_eq_ok.mp hpay
    exact ⟨a, hidle, ha, rfl, rfl, rfl, Nat.sub_le _ _⟩
  | requestWithdraw owner receiver shares minAssetsOut nowNs =>
    cases hleaves
    obtain ⟨a, _, _, queue, hidle, -, -, ha, -, -, -, -, rfl⟩ := handleRequestWithdraw_eq_ok h
    exact ⟨a, hidle, ha, rfl, rfl, rfl, Nat.le_refl _⟩
  | _ => cases hleaves

/-- A head is ready only with something to pay and the idle assets to pay it. -/
theorem classifyWithdrawalHead_ready {available : Nat}
    (h : classifyWithdrawalHead w config restrictions selfId nowNs available = .ready) :
    w.expectedAssets ≠ 0 ∧ w.expectedAssets ≤ available := by
  unfold classifyWithdrawalHead at h
  split at h
  · cases h
  · rename_i hnone
    split at h
    · cases h
    split at h
    · cases h
    rename_i hliq
    refine ⟨?_, by simpa [hasActionableWithdrawalLiquidity] using hliq⟩
    unfold pendingWithdrawalSkipReason at hnone
    split at hnone
    · cases hnone
    split at hnone
    · cases hnone
    · assumption

theorem validateQueueHead_eq_ok {queue : WithdrawQueue A} {requestId escrowShares : Nat} :
    validateQueueHead queue requestId owner receiver escrowShares = .ok u ↔
      ∃ w, queue.head = some (requestId, w) ∧ w.owner = owner ∧ w.receiver = receiver ∧
        w.escrowShares = escrowShares := by
  simp only [validateQueueHead, do_ok]
  constructor
  · rintro ⟨⟨id, w⟩, hw, rfl, h⟩
    exact ⟨w, hw, h⟩
  · rintro ⟨w, hw, h⟩
    exact ⟨(requestId, w), hw, rfl, h⟩

/-- The collected assets and the escrow go back, and the head is dropped. -/
theorem handleAbortWithdrawing_eq_ok (h : handleAbortWithdrawing s selfId opId = .ok r) :
    ∃ (w : WithdrawingState A) (o : Option (Nat × PendingWithdrawal A))
      (queue : WithdrawQueue A), s.opState = .withdrawing w ∧ w.opId = opId ∧
      s.idleAssets + w.collected + s.externalAssets < 2 ^ 128 ∧
      s.withdrawQueue.dequeue = .ok (o, queue) ∧
      r = ⟨{ s with
          idleAssets := s.idleAssets + w.collected
          totalAssets := s.idleAssets + w.collected + s.externalAssets
          opState := .idle
          withdrawQueue := queue },
        refundShares selfId w.owner w.escrowShares ++
          [.emitEvent (.withdrawalStopped opId w.escrowShares)]⟩ := by
  unfold handleAbortWithdrawing at h
  split at h
  · rename_i w hop
    simp only [do_ok, checkOpId_eq_ok, restoreToIdle_eq_ok, mapTransitionResult_eq_ok,
      stopWithdrawal_eq_ok, orAbort_eq_ok] at h
    obtain ⟨hid, -, _, ⟨hlt, rfl⟩, _, ⟨w', hop', -, rfl⟩, ⟨o, queue⟩, hq, rfl⟩ := h
    cases hop.symm.trans hop'
    exact ⟨w, o, queue, hop, hid, hlt, hq, rfl⟩
  · cases h

/-- A settled payout: the shares it burned, the assets it paid and the refund. -/
theorem handleSettlePayout_eq_ok {outcome : PayoutOutcome}
    (h : handleSettlePayout s selfId opId outcome = .ok r) :
    ∃ (p : PayoutState A) (o : Option (Nat × PendingWithdrawal A))
      (queue : WithdrawQueue A), s.opState = .payout p ∧ p.opId = opId ∧
      s.withdrawQueue.dequeue = .ok (o, queue) ∧
      match outcome with
      | .success => p.burnShares ≤ p.escrowShares ∧ p.burnShares ≤ s.totalShares ∧
          p.amount ≤ s.idleAssets ∧ s.idleAssets - p.amount + s.externalAssets < 2 ^ 128 ∧
          r = ⟨{ s with
              totalShares := s.totalShares - p.burnShares
              idleAssets := s.idleAssets - p.amount
              totalAssets := s.idleAssets - p.amount + s.externalAssets
              opState := .idle
              withdrawQueue := queue },
            (if 0 < p.burnShares then [.burnShares selfId p.burnShares] else []) ++
              refundShares selfId p.owner (p.escrowShares - p.burnShares) ++
              [.emitEvent (.payoutCompleted opId true p.burnShares (p.escrowShares - p.burnShares)
                p.amount)]⟩
      | .failure =>
          r = ⟨{ s with opState := .idle, withdrawQueue := queue },
            refundShares selfId p.owner p.escrowShares ++
              [.emitEvent (.payoutCompleted opId false 0 p.escrowShares 0)]⟩ := by
  unfold handleSettlePayout at h
  split at h
  · rename_i p hop
    simp only [do_ok, checkOpId_eq_ok, applyPayoutSettlement, burnSettledShares_eq_ok,
      orAbort_eq_ok] at h
    obtain ⟨hid, -, settlement, hplan, _, ⟨_, ⟨hburn, rfl⟩, paid, hpaid, rfl⟩, ⟨o, queue⟩, hq, rfl⟩ := h
    cases outcome with
    | success =>
      simp only [planPayoutSettlement, do_ok, checkedSub_eq_some] at hplan
      obtain ⟨_, ⟨hle, rfl⟩, rfl⟩ := hplan
      simp only [paySettledAssets, ↓reduceIte, do_ok, checkedSub_eq_some,
        syncTotalAssets_eq_ok] at hpaid
      obtain ⟨_, ⟨hidle, rfl⟩, hlt, rfl⟩ := hpaid
      exact ⟨p, o, queue, hop, hid, hq, hle, hburn, hidle, hlt, rfl⟩
    | failure =>
      simp only [planPayoutSettlement, Except.ok.injEq] at hplan
      subst hplan
      simp only [paySettledAssets, Bool.false_eq_true, ↓reduceIte, Except.ok.injEq] at hpaid
      subst hpaid
      exact ⟨p, o, queue, hop, hid, hq, rfl⟩
  · cases h

/-- The head is paid if idle assets cover what it expects. -/
theorem startIdlePayout_eq_ok {minWithdrawalAssets : Nat}
    (h : startIdlePayout s minWithdrawalAssets = .ok r) :
    ∃ (w : WithdrawingState A) (id : Nat) (q : PendingWithdrawal A),
      s.opState = .withdrawing w ∧ s.withdrawQueue.head = some (id, q) ∧
      q.escrowShares = w.escrowShares ∧ q.expectedAssets ≠ 0 ∧ q.expectedAssets ≤ s.idleAssets ∧
      q.expectedAssets ≤ w.remaining ∧
      r = ⟨{ s with opState := .payout ((w.advance q.expectedAssets).toPayout q.escrowShares) },
        [.emitEvent (.withdrawalCollected w.opId q.escrowShares
          (w.advance q.expectedAssets).collected)]⟩ := by
  simp only [startIdlePayout, planIdlePayout, do_ok, applyTransitionResult_eq_ok,
    withdrawalSettled_eq_ok] at h
  obtain ⟨plan, ⟨⟨id, q⟩, hhead, hplan⟩, _, ⟨w, hop, -, hle, -, rfl⟩, rfl⟩ := h
  rw [hop] at hplan
  simp only [do_ok, hasActionableWithdrawalLiquidity, decide_eq_true_eq] at hplan
  obtain ⟨⟨-, -, hescrow⟩, hliq, settlement, hset, hne, rfl⟩ := hplan
  have hx : q.expectedAssets ≠ 0 := by
    intro hx
    simp only [computeIdleSettlement, hx, ↓reduceIte, some.injEq] at hset
    exact hne (by rw [← hset])
  simp only [computeIdleSettlement, hx, hliq, ↓reduceIte, some.injEq] at hset
  subst hset
  exact ⟨w, id, q, hop, hhead, hescrow, hx, hliq, hle, rfl⟩

end Templar.Vault
