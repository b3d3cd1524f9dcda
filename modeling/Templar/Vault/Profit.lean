import Templar.Vault.Invariant

/-!
# What a performance fee is charged on

An accrual charges what the total has gained over its anchor. Between two anchors the total moves
because a synchronisation reports the markets, because an allocation sets assets aside or because
holders are paid; and a reset moves the anchor. Kept apart along a run, these explain the distance
from the anchor to the total.
-/

namespace Templar.Vault

open Checked

/-- How far the total has moved since the last accrual or deposit, and why. Hidden is what payments
took out of the total and what a reset took over into the anchor. -/
structure Drift where
  synced : Int
  setAside : Int
  hidden : Int
  deriving DecidableEq, Repr

variable {A : Type} {limit nowNs : Nat} {d : Drift} {s s' : VaultState A}
  {config : VaultConfig A} {r : KernelResult A}

namespace Drift

def none : Drift := ⟨0, 0, 0⟩

def Explains (d : Drift) (s : VaultState A) : Prop :=
  (s.totalAssets : Int) = s.feeAnchor.totalAssets + d.synced - d.setAside - d.hidden

/-- The drift after the accrual that comes before a transfer of value. -/
def refreshed (d : Drift) (s : VaultState A) (config : VaultConfig A) (nowNs : Nat) : Drift :=
  if shouldRefreshFeesForValueTransfer s config nowNs then none else d

theorem Explains.of_sameNav (h : d.Explains s) (hnav : s.SameNav s') : d.Explains s' := by
  unfold Explains at *
  rw [hnav.1, hnav.2]
  exact h

theorem none_explains (h : s.feeAnchor.totalAssets = s.totalAssets) : none.Explains s := by
  simp [Explains, none, h]

end Drift

theorem handleRefreshFees_anchor (hs : s.totalShares < 2 ^ 128)
    (h : handleRefreshFees s config nowNs = .ok r) :
    r.state.totalAssets = s.totalAssets ∧ r.state.feeAnchor = ⟨s.totalAssets, nowNs⟩ := by
  simp only [handleRefreshFees, do_ok] at h
  obtain ⟨-, -, -, h⟩ := h
  split at h
  · cases h
    exact ⟨rfl, rfl⟩
  · simp only [do_ok] at h
    obtain ⟨o, ho, rfl⟩ := h
    exact ⟨rfl, (computeFeeAccrual_eq_ok hs ho).2.2⟩

/-- The accrual before a transfer keeps the total and settles the drift. -/
theorem refreshFees_explains (hs : s.totalShares < 2 ^ 128) (hd : d.Explains s)
    (h : refreshFeesBeforeValueTransfer s config nowNs = .ok r) :
    r.state.totalAssets = s.totalAssets ∧ (d.refreshed s config nowNs).Explains r.state := by
  unfold refreshFeesBeforeValueTransfer at h
  unfold Drift.refreshed
  split at h
  · rename_i hdue
    obtain ⟨htotal, hanchor⟩ := handleRefreshFees_anchor hs h
    rw [if_pos hdue]
    exact ⟨htotal, Drift.none_explains (by rw [hanchor, htotal])⟩
  · rename_i hdue
    cases h
    rw [if_neg hdue]
    exact ⟨rfl, hd⟩

theorem handleEmergencyReset_anchor {selfId : A} (h : handleEmergencyReset s selfId = .ok r) :
    r.state.feeAnchor.totalAssets = r.state.totalAssets := by
  simp only [handleEmergencyReset, planEmergencyReset, do_ok] at h
  obtain ⟨_, ⟨_, -, _, -, rfl⟩, rfl⟩ := h
  rfl

/-- The assets an accrual at a time looks at. -/
def VaultState.feeBase (s : VaultState A) (fees : FeesSpec A) (nowNs : Nat) : Nat :=
  totalAssetsForFeeAccrual s.totalAssets s.feeAnchor.totalAssets s.feeAnchor.timestampNs nowNs
    fees.maxTotalAssetsGrowthRate

/-- What they have gained over the anchor. -/
def VaultState.profit (s : VaultState A) (fees : FeesSpec A) (nowNs : Nat) : Nat :=
  s.feeBase fees nowNs - s.feeAnchor.totalAssets

/-- With a performance fee alone, the fee is charged on the profit. -/
theorem computeFeeAccrual_performance {fees : FeesSpec A} {o : FeeAccrualOutcome}
    (hperformance : fees.performance.feeWad ≠ 0) (hmanagement : fees.management.feeWad = 0)
    (h : computeFeeAccrual s.totalAssets s.totalShares s.feeAnchor fees nowNs = .ok o) :
    o.performanceShares = Number.asU128Trunc (computeFeeSharesFromAssets
      (Wad.applyFloored fees.performance.feeWad (s.profit fees nowNs)) s.totalAssets
        s.totalShares) := by
  have hactive : fees.hasActiveSlotFees = true := by
    simp [FeesSpec.hasActiveSlotFees, FeeSlot.hasRate, hperformance]
  simp only [computeFeeAccrual, hactive, Bool.true_eq_false, ↓reduceIte, hmanagement,
    computeManagementFeeShares, true_or, do_ok] at h
  obtain ⟨-, _, ⟨-, rfl⟩, -, _, -, rfl⟩ := h
  rfl

/-- Without a cap every gain counts, unless the anchor is empty. -/
theorem profit_of_no_cap {fees : FeesSpec A} (hcap : fees.maxTotalAssetsGrowthRate = none) :
    s.profit fees nowNs =
      if s.feeAnchor.totalAssets = 0 then 0 else s.totalAssets - s.feeAnchor.totalAssets := by
  simp only [VaultState.profit, VaultState.feeBase, totalAssetsForFeeAccrual, hcap]
  split
  · exact Nat.zero_sub _
  · rfl

theorem profit_of_anchor_eq {fees : FeesSpec A} (h : s.feeAnchor.totalAssets = s.totalAssets) :
    s.profit fees nowNs = 0 := by
  unfold VaultState.profit VaultState.feeBase totalAssetsForFeeAccrual
  rw [h]
  split
  · exact Nat.zero_sub _
  split
  · exact Nat.sub_self _
  · rw [if_pos (.inl (Nat.le_refl _)), Nat.sub_self]

/-- Assets that leave under a cap take of the profit what they take of the base. -/
theorem profit_eq_iff {fees : FeesSpec A} (hcap : fees.maxTotalAssetsGrowthRate ≠ Option.none)
    (hanchor : s'.feeAnchor = s.feeAnchor) (hle : s'.totalAssets ≤ s.totalAssets)
    (hnow : s.feeAnchor.timestampNs < nowNs) :
    s'.profit fees nowNs = s.profit fees nowNs ↔
      s.profit fees nowNs = 0 ∨ s.feeBase fees nowNs ≤ s'.totalAssets := by
  obtain ⟨rate, hrate⟩ := Option.ne_none_iff_exists'.mp hcap
  have hlate : ¬ nowNs < s.feeAnchor.timestampNs := by omega
  have helapsed : nowNs - s.feeAnchor.timestampNs ≠ 0 := by omega
  simp only [VaultState.profit, VaultState.feeBase, totalAssetsForFeeAccrual, hrate, hanchor, hlate,
    helapsed, or_false, ↓reduceIte]
  generalize saturatingAdd 128 s.feeAnchor.totalAssets _ = bound
  split
  · omega
  · split
    · split <;> omega
    · split <;> omega

variable [DecidableEq A] {call : Call A} {calls : List (Call A)}
  {restrictions : Option (Restrictions A)} {selfId : A} {action : KernelAction A}

/-- The drift after an action that moved the total by `moved`. -/
def KernelAction.drift (s : VaultState A) (config : VaultConfig A) (d : Drift)
    (moved : Int) : KernelAction A → Drift
  | .deposit .. | .refreshFees _ => .none
  | .emergencyReset =>
    let setAside := if s.opState matches .allocating _ then d.setAside - moved else d.setAside
    ⟨d.synced, setAside, d.synced - setAside⟩
  | .syncExternalAssets .. => { d with synced := d.synced + moved }
  | .beginAllocating .. | .abortAllocating _ => { d with setAside := d.setAside - moved }
  | .settlePayout .. => { d with hidden := d.hidden - moved }
  | .atomicWithdraw _ _ _ _ _ nowNs | .atomicRedeem _ _ _ _ _ nowNs
  | .requestWithdraw _ _ _ _ nowNs =>
    let d := d.refreshed s config nowNs
    { d with hidden := d.hidden - moved }
  | _ => d

def Call.drift (s : VaultState A) (d : Drift) (call : Call A) : Drift :=
  match call, call.result s with
  | .act config _ _ action, .ok r =>
    action.drift s config d (r.state.totalAssets - s.totalAssets)
  | _, _ => d

def driftFrom (s : VaultState A) (d : Drift) : List (Call A) → Drift
  | [] => d
  | call :: calls => driftFrom (call.next s) (call.drift s d) calls

/-- An action adds to the drift what it moved, or takes a new anchor. -/
theorem applyAction_explains (hs : Sound limit s) (hd : d.Explains s)
    (h : applyAction s config restrictions selfId action = .ok r) :
    (action.drift s config d (r.state.totalAssets - s.totalAssets)).Explains r.state := by
  have hbalanced := hs.balanced
  unfold VaultState.Balanced at hbalanced
  -- where the anchor stays, the part of the drift that takes the move explains the new total
  have hmoved (e : Drift) (hanchor : r.state.feeAnchor = s.feeAnchor)
      (he : e.synced - e.setAside - e.hidden =
        d.synced - d.setAside - d.hidden + (r.state.totalAssets - s.totalAssets)) :
      e.Explains r.state := by
    unfold Drift.Explains at *
    rw [hanchor]
    omega
  cases action with
  | deposit owner receiver assetsIn minSharesOut nowNs =>
    obtain ⟨a, n, -, -, -, -, -, -, -, -, -, rfl⟩ := handleDeposit_eq_ok h
    exact Drift.none_explains rfl
  | refreshFees nowNs =>
    obtain ⟨htotal, hanchor⟩ := handleRefreshFees_anchor hs.shares h
    exact Drift.none_explains (by rw [hanchor, htotal])
  | emergencyReset =>
    have hanchor := handleEmergencyReset_anchor h
    simp only [Drift.Explains, KernelAction.drift, hanchor]
    omega
  | atomicWithdraw _ _ _ _ _ nowNs | atomicRedeem _ _ _ _ _ nowNs | requestWithdraw _ _ _ _ nowNs =>
    obtain ⟨a, -, ha, hanchor, -⟩ := applyAction_leaves rfl h
    obtain ⟨htotal, had⟩ := refreshFees_explains hs.shares hd ha
    unfold Drift.Explains at *
    simp only [KernelAction.drift, hanchor]
    omega
  | executeWithdraw nowNs =>
    have hnav : Moves (fun _ => True) limit selfId s r.effects r.state ∧ s.SameNav r.state :=
      handleExecuteWithdraw_moves h
    exact hd.of_sameNav hnav.2
  | syncExternalAssets newExternalAssets opId nowNs =>
    obtain ⟨-, -, -, -, rfl⟩ := handleSyncExternalAssets_eq_ok h
    exact hmoved _ rfl (by simp only [KernelAction.drift]; omega)
  | beginAllocating opId plan nowNs =>
    obtain ⟨-, -, -, -, rfl⟩ := handleBeginAllocating_eq_ok h
    exact hmoved _ rfl (by simp only [KernelAction.drift]; omega)
  | abortAllocating opId =>
    obtain ⟨_, -, -, -, rfl⟩ := handleAbortAllocating_eq_ok h
    exact hmoved _ rfl (by simp only [KernelAction.drift]; omega)
  | settlePayout opId outcome =>
    obtain ⟨p, o, queue, -, -, -, hr⟩ := handleSettlePayout_eq_ok h
    refine hmoved _ ?_ (by simp only [KernelAction.drift]; omega)
    cases outcome with
    | success => rw [hr.2.2.2.2]
    | failure => rw [hr]
  | abortWithdrawing opId =>
    -- nothing has been collected yet, so nothing comes back
    obtain ⟨w, o, queue, hop, -, -, -, rfl⟩ := handleAbortWithdrawing_eq_ok h
    obtain ⟨_, _, _, hserved⟩ := hs.served_of_withdrawing hop
    have hcollected := hserved.collected_eq_zero hop
    exact hd.of_sameNav ⟨by simp only; omega, rfl⟩
  | rebalanceWithdraw opId amount nowNs =>
    obtain ⟨-, hle, -, rfl⟩ := handleRebalanceWithdraw_eq_ok h
    exact hd.of_sameNav ⟨by simp only; omega, rfl⟩
  | abortRefreshing opId =>
    obtain ⟨_, -, -, rfl⟩ := handleAbortRefreshing_eq_ok h
    exact hd.of_sameNav ⟨rfl, rfl⟩
  | finishAllocating | beginRefreshing | finishRefreshing =>
    obtain ⟨_, -, rfl⟩ := applyTransitionResult_eq_ok.mp h
    exact hd.of_sameNav ⟨rfl, rfl⟩
  | pause paused =>
    cases h
    exact hd.of_sameNav ⟨rfl, rfl⟩

theorem Call.explains (hs : Sound limit s) (hd : d.Explains s) :
    (call.drift s d).Explains (call.next s) := by
  unfold Call.drift Call.next
  cases h : call.result s with
  | error e => cases call <;> exact hd
  | ok r =>
    cases call with
    | payout minWithdrawalAssets =>
      obtain ⟨_, _, _, -, -, -, -, -, -, rfl⟩ := startIdlePayout_eq_ok h
      exact hd.of_sameNav ⟨rfl, rfl⟩
    | act config restrictions own action => exact applyAction_explains hs hd h

theorem driftFrom_explains (hs : Sound maxPending s) (hd : d.Explains s) :
    (driftFrom s d calls).Explains (runFrom s calls) := by
  induction calls generalizing s d with
  | nil => exact hd
  | cons call calls ih =>
    have hnext : Sound maxPending (call.next s) := by
      unfold Call.next
      split
      · exact call.sound call.within_maxPending hs (by assumption)
      · exact hs
    exact ih hnext (call.explains hs hd)

/-- Every accrual charges the drift: what synchronisations reported since the last accrual or
deposit, less what allocations set aside and less what is hidden. It charges what was reported,
net of what was set aside, exactly if nothing is hidden or neither is a gain. Under a growth cap a
request or an exit at the anchor's own time leaves the anchor, and it leaves the profit of a later
accrual exactly if it leaves the base; a deposit then drops the profit. -/
theorem profit_is_the_drift {fees : FeesSpec A} (hperformance : fees.performance.feeWad ≠ 0)
    (hmanagement : fees.management.feeWad = 0) (hcap : fees.maxTotalAssetsGrowthRate = none) :
    let s := runFrom .new calls
    let d := driftFrom .new .none calls
    (∀ nowNs o, computeFeeAccrual s.totalAssets s.totalShares s.feeAnchor fees nowNs = .ok o →
      o.performanceShares = Number.asU128Trunc (computeFeeSharesFromAssets
        (Wad.applyFloored fees.performance.feeWad (s.profit fees nowNs)) s.totalAssets
          s.totalShares)) ∧
    (∀ nowNs, (s.feeAnchor.totalAssets ≠ 0 →
        s.profit fees nowNs = (d.synced - d.setAside - d.hidden).toNat) ∧
      (s.profit fees nowNs = (d.synced - d.setAside).toNat ↔
        (s.feeAnchor.totalAssets ≠ 0 ∧ d.hidden = 0) ∨ (d.synced ≤ d.setAside ∧
          (s.feeAnchor.totalAssets = 0 ∨ d.synced - d.setAside ≤ d.hidden)))) ∧
    ∀ config restrictions selfId action r, config.fees.maxTotalAssetsGrowthRate ≠ none →
      applyAction s config restrictions selfId action = .ok r →
      (action.leavesAt = some s.feeAnchor.timestampNs → r.state.feeAnchor = s.feeAnchor ∧
        (Call.drift s d (.act config restrictions selfId action)).synced = d.synced ∧
        ∀ nowNs, s.feeAnchor.timestampNs < nowNs →
          (r.state.profit config.fees nowNs = s.profit config.fees nowNs ↔
            s.profit config.fees nowNs = 0 ∨ s.feeBase config.fees nowNs ≤ r.state.totalAssets)) ∧
      ∀ owner receiver assetsIn minSharesOut,
        action = .deposit owner receiver assetsIn minSharesOut s.feeAnchor.timestampNs →
        ∀ nowNs, r.state.profit config.fees nowNs = 0 := by
  intro s d
  have hd : d.Explains s := driftFrom_explains .of_new (Drift.none_explains rfl)
  unfold Drift.Explains at hd
  refine ⟨fun nowNs o ho => computeFeeAccrual_performance hperformance hmanagement ho, ?_, ?_⟩
  · intro nowNs
    rw [profit_of_no_cap hcap]
    constructor
    · intro hanchor
      rw [if_neg hanchor]
      omega
    · split
      · omega
      · omega
  · intro config restrictions selfId action r hsome h
    constructor
    · intro hleaves
      have hkeep : shouldRefreshFeesForValueTransfer s config s.feeAnchor.timestampNs = false := by
        simp [shouldRefreshFeesForValueTransfer, performanceFeeIsDue, hsome]
      obtain ⟨a, -, ha, hsame, -, -, hle⟩ := applyAction_leaves hleaves h
      rw [refreshFeesBeforeValueTransfer, hkeep] at ha
      cases ha
      refine ⟨hsame, ?_, fun nowNs hnow => profit_eq_iff hsome hsame hle hnow⟩
      cases action with
      | atomicWithdraw | atomicRedeem | requestWithdraw =>
        cases hleaves
        simp [Call.drift, Call.result, h, KernelAction.drift, Drift.refreshed, hkeep]
      | _ => cases hleaves
    · rintro owner receiver assetsIn minSharesOut rfl nowNs
      obtain ⟨a, n, -, -, -, -, -, -, -, -, -, rfl⟩ := handleDeposit_eq_ok h
      exact profit_of_anchor_eq rfl

/-- A vault with a performance fee of a tenth, under a growth cap or none. -/
def feeCall (cap : Option Nat) (action : KernelAction Nat) : Call Nat :=
  .act ⟨⟨⟨10 ^ 17, 8⟩, ⟨0, 9⟩, cap⟩, 0, 0, 4, false, 0, 0⟩ none 0 action

/-- A deposit, what happens in between, and a synchronisation that reports 300 outside. -/
def gainRun (cap : Option Nat) (between : List (KernelAction Nat)) : List (Call Nat) :=
  List.map (feeCall cap) (.deposit 1 1 1000 0 6 :: between ++ [.beginRefreshing 3 [1] 6,
    .syncExternalAssets 300 3 6, .finishRefreshing 3 6])

/-- What an accrual without a cap mints. -/
def accrued (s : VaultState Nat) : Except FeeAccrualOverflow FeeAccrualOutcome :=
  computeFeeAccrual s.totalAssets s.totalShares s.feeAnchor ⟨⟨10 ^ 17, 8⟩, ⟨0, 9⟩, none⟩ 7

theorem profit_is_the_drift_gain :
    accrued (runFrom .new (gainRun none [])) = .ok ⟨0, 23, 1023, ⟨1300, 7⟩⟩ ∧
      23 = Number.asU128Trunc (computeFeeSharesFromAssets (Wad.applyFloored (10 ^ 17) 300) 1300 1000) := by
  have ho : accrued (runFrom .new (gainRun none [])) = .ok ⟨0, 23, 1023, ⟨1300, 7⟩⟩ := by
    decide +kernel
  have hdrift : driftFrom .new .none (gainRun none []) = ⟨300, 0, 0⟩ := by decide +kernel
  obtain ⟨hshares, hprofit, -⟩ := @profit_is_the_drift Nat _ (gainRun none [])
    ⟨⟨10 ^ 17, 8⟩, ⟨0, 9⟩, none⟩ (by decide) rfl rfl
  have hprofit := (hprofit 7).2.mpr (.inl ⟨by decide +kernel, by rw [hdrift]⟩)
  rw [hdrift] at hprofit
  have hshares := hshares 7 _ ho
  rw [hprofit] at hshares
  exact ⟨ho, hshares⟩

/-- An exit of 500 hides a later gain of 300, and a reset a gain that it finds. Under a cap a
deposit or an exit at the anchor's own time drops a gain that would be charged a year later. -/
theorem exits_and_deposits_hide_gains :
    (let calls := gainRun none [.atomicWithdraw 1 1 1 500 1000 6]
     driftFrom .new .none calls = ⟨300, 0, 500⟩ ∧
       accrued (runFrom .new calls) = .ok ⟨0, 0, 500, ⟨800, 7⟩⟩) ∧
    (let calls := gainRun none [] ++ [feeCall none (.beginRefreshing 4 [1] 6), feeCall none .emergencyReset]
     driftFrom .new .none calls = ⟨300, 0, 300⟩ ∧
       accrued (runFrom .new calls) = .ok ⟨0, 0, 1000, ⟨1300, 7⟩⟩) ∧
    (let cap := some (10 ^ 18)
     let s := runFrom .new (gainRun cap [])
     let profit := fun s : VaultState Nat => s.profit ⟨⟨10 ^ 17, 8⟩, ⟨0, 9⟩, cap⟩ (6 + yearNs)
     s.feeAnchor = ⟨1000, 6⟩ ∧ profit s = 300 ∧
       profit ((feeCall cap (.deposit 1 1 1000 0 6)).next s) = 0 ∧
       profit ((feeCall cap (.atomicWithdraw 1 1 1 500 1000 6)).next s) = 0) := by
  decide +kernel

end Templar.Vault
