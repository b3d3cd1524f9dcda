import Templar.Vault.Moves

/-!
# External assets and rest

What the vault holds outside is told to the kernel by synchronisation and moved to the idle
assets by a rebalance; no other action touches it. Most actions leave the kernel without an
operation.
-/

namespace Templar.Vault

open Checked

variable {A : Type}

namespace KernelAction

/-- Whether an action leaves the external assets alone. -/
def isLocal : KernelAction A → Bool
  | syncExternalAssets .. => false
  | rebalanceWithdraw .. => false
  | _ => true

/-- Whether the kernel is at rest after the action. -/
def endsIdle : KernelAction A → Bool
  | deposit .. => true
  | atomicWithdraw .. => true
  | atomicRedeem .. => true
  | requestWithdraw .. => true
  | finishAllocating .. => true
  | finishRefreshing .. => true
  | abortRefreshing .. => true
  | abortAllocating .. => true
  | abortWithdrawing .. => true
  | settlePayout .. => true
  | refreshFees .. => true
  | emergencyReset => true
  | _ => false

end KernelAction

variable {s : VaultState A} {config : VaultConfig A} {r : KernelResult A} {nowNs : Nat}

theorem Accrual.untouched (h : Accrual config s r) :
    r.state.externalAssets = s.externalAssets ∧ r.state.opState = s.opState := by
  obtain ⟨m, p, now, anchor, -, rfl⟩ := h.outcome
  exact ⟨rfl, rfl⟩

theorem refreshFees_untouched (hs : s.totalShares < 2 ^ 128)
    (h : refreshFeesBeforeValueTransfer s config nowNs = .ok r) :
    r.state.externalAssets = s.externalAssets ∧ r.state.opState = s.opState := by
  rcases refreshFees_cases hs h with rfl | haccrual
  · exact ⟨rfl, rfl⟩
  · exact haccrual.untouched

theorem handleEmergencyReset_untouched {selfId : A}
    (h : handleEmergencyReset s selfId = .ok r) :
    r.state.externalAssets = s.externalAssets ∧ r.state.opState = .idle := by
  have hcases := handleEmergencyReset_eq_ok h
  split at hcases
  · cases hcases
  · cases hcases
    exact ⟨rfl, rfl⟩
  · obtain ⟨-, rfl⟩ := hcases
    exact ⟨rfl, rfl⟩
  · obtain ⟨-, o, queue, -, rfl⟩ := hcases
    exact ⟨rfl, rfl⟩
  · obtain ⟨-, o, queue, -, rfl⟩ := hcases
    exact ⟨rfl, rfl⟩

variable [DecidableEq A] {restrictions : Option (Restrictions A)} {selfId : A}
  {action : KernelAction A}

theorem handleExecuteWithdraw_untouched
    (h : handleExecuteWithdraw s config restrictions selfId nowNs = .ok r) :
    r.state.externalAssets = s.externalAssets ∧
      (r.state.opState = .idle ∨ r.state.opState.isWithdrawing = true) := by
  simp only [handleExecuteWithdraw, do_ok, OpState.isIdle_iff] at h
  obtain ⟨hidle, -, ⟨outcome, u, F⟩, hscan, h⟩ := h
  have start : Steady (fun _ => True) 0 selfId s [] s := .refl
  obtain ⟨v, -, hidle, hout, -, hexternal⟩ :=
    nextWithdrawalQueueOutcomeLoop_steady _ start hidle hscan
  cases outcome with
  | ready request =>
    simp only [do_ok, applyTransitionResult_eq_ok, startWithdrawal_eq_ok] at h
    obtain ⟨_, ⟨_, ⟨-, -, -, rfl⟩, rfl⟩, rfl⟩ := h
    exact ⟨hexternal, .inr rfl⟩
  | none | coolingDown requestedAtNs | insufficientLiquidity =>
    cases hout
    obtain ⟨-, rfl⟩ := doneIfSkipped_eq_ok.mp h
    exact ⟨hexternal, .inl hidle⟩

theorem handleSettlePayout_untouched {opId : Nat} {outcome : PayoutOutcome}
    (h : handleSettlePayout s selfId opId outcome = .ok r) :
    r.state.externalAssets = s.externalAssets ∧ r.state.opState = .idle := by
  obtain ⟨p, o, queue, -, -, -, h⟩ := handleSettlePayout_eq_ok h
  cases outcome with
  | success =>
    obtain ⟨-, -, -, -, rfl⟩ := h
    exact ⟨rfl, rfl⟩
  | failure =>
    cases h
    exact ⟨rfl, rfl⟩

/-- What an action does to the external assets and whether it ends at rest. -/
theorem applyAction_untouched (hs : s.totalShares < 2 ^ 128)
    (h : applyAction s config restrictions selfId action = .ok r) :
    (action.isLocal = true → r.state.externalAssets = s.externalAssets) ∧
      (action.endsIdle = true → r.state.opState = .idle) := by
  cases action with
  | deposit owner receiver assetsIn minSharesOut now =>
    obtain ⟨a, n, hidle, -, ha, -, -, -, -, -, -, rfl⟩ := handleDeposit_eq_ok h
    obtain ⟨hexternal, hop⟩ := refreshFees_untouched hs ha
    exact ⟨fun _ => hexternal, fun _ => hop.trans hidle⟩
  | atomicWithdraw | atomicRedeem | requestWithdraw =>
    obtain ⟨a, hidle, ha, -, hpaid, hpaidop, -⟩ := applyAction_leaves rfl h
    obtain ⟨hexternal, hop⟩ := refreshFees_untouched hs ha
    exact ⟨fun _ => hpaid.trans hexternal, fun _ => (hpaidop.trans hop).trans hidle⟩
  | executeWithdraw now => exact ⟨fun _ => (handleExecuteWithdraw_untouched h).1, nofun⟩
  | beginAllocating opId plan now =>
    obtain ⟨-, -, -, -, rfl⟩ := handleBeginAllocating_eq_ok h
    exact ⟨fun _ => rfl, nofun⟩
  | finishAllocating opId now =>
    obtain ⟨alloc, -, -, rfl⟩ := handleFinishAllocating_eq_ok h
    exact ⟨fun _ => rfl, fun _ => rfl⟩
  | beginRefreshing opId plan now =>
    obtain ⟨t, -, rfl⟩ := applyTransitionResult_eq_ok.mp h
    exact ⟨fun _ => rfl, nofun⟩
  | finishRefreshing opId now =>
    obtain ⟨t, ht, rfl⟩ := applyTransitionResult_eq_ok.mp h
    obtain ⟨f, -, -, rfl⟩ := completeRefresh_eq_ok.mp ht
    exact ⟨fun _ => rfl, fun _ => rfl⟩
  | syncExternalAssets newExternalAssets opId now => exact ⟨nofun, nofun⟩
  | rebalanceWithdraw opId amount now => exact ⟨nofun, nofun⟩
  | abortRefreshing opId =>
    obtain ⟨f, -, -, rfl⟩ := handleAbortRefreshing_eq_ok h
    exact ⟨fun _ => rfl, fun _ => rfl⟩
  | abortAllocating opId =>
    obtain ⟨alloc, -, -, -, rfl⟩ := handleAbortAllocating_eq_ok h
    exact ⟨fun _ => rfl, fun _ => rfl⟩
  | abortWithdrawing opId =>
    obtain ⟨w, o, queue, -, -, -, -, rfl⟩ := handleAbortWithdrawing_eq_ok h
    exact ⟨fun _ => rfl, fun _ => rfl⟩
  | settlePayout opId outcome =>
    obtain ⟨hexternal, hidle⟩ := handleSettlePayout_untouched h
    exact ⟨fun _ => hexternal, fun _ => hidle⟩
  | pause paused =>
    cases h
    exact ⟨fun _ => rfl, nofun⟩
  | refreshFees now =>
    have haccrual := handleRefreshFees_accrual hs h
    exact ⟨fun _ => haccrual.untouched.1, fun _ => haccrual.untouched.2.trans haccrual.idle⟩
  | emergencyReset =>
    obtain ⟨hexternal, hidle⟩ := handleEmergencyReset_untouched h
    exact ⟨fun _ => hexternal, fun _ => hidle⟩

end Templar.Vault
