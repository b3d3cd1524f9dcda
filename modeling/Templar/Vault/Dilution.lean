import Mathlib.Tactic.Linarith
import Mathlib.Tactic.Ring
import Templar.Vault.ActionSpec

/-!
# What fees take from the holders

Both fees of an accrual are paid in new shares, the second on a supply that holds the first. In
exact arithmetic a fee multiplies the supply by at most `assets / (assets - fee)`, so the holders
keep what the two fees leave; the accrual computes exactly that or reports an overflow.
-/

namespace Templar.Vault

open Checked Number

variable {A : Type}

/-- The supply after a fee is paid in shares; a fee that takes everything is not charged. -/
def afterFee (fee assets supply : Nat) : Nat :=
  if assets ≤ fee then supply else supply + fee * supply / (assets - fee)

section

variable (fees : FeesSpec A) (anchor : FeeAccrualAnchor) (assets nowNs : Nat)

def feeAssetsBase : Nat :=
  totalAssetsForFeeAccrual assets anchor.totalAssets anchor.timestampNs nowNs
    fees.maxTotalAssetsGrowthRate

def managementFeeAssets : Nat :=
  if nowNs ≤ anchor.timestampNs then 0
  else mulDivFloor (Wad.applyFloored fees.management.feeWad (feeAssetsBase fees anchor assets nowNs))
    (nowNs - anchor.timestampNs) yearNs

def performanceFeeAssets : Nat :=
  Wad.applyFloored fees.performance.feeWad
    (feeAssetsBase fees anchor assets nowNs - anchor.totalAssets)

/-- The supply that both fees ask for. -/
def supplyAfterFees (shares : Nat) : Nat :=
  afterFee (performanceFeeAssets fees anchor assets nowNs) assets
    (afterFee (managementFeeAssets fees anchor assets nowNs) assets shares)

end

theorem mulDivFloor_le (x y d : Nat) : mulDivFloor x y d ≤ x * y / d := by
  unfold mulDivFloor mulDivWithRounding
  split_ifs with h0 hd h1 hx hy
  · exact Nat.zero_le _
  · exact Nat.zero_le _
  · rw [h1, Nat.div_one]
    exact Nat.min_le_left ..
  · rw [hx, Nat.mul_div_cancel_left _ (by omega)]
  · rw [hy, Nat.mul_div_cancel _ (by omega)]
  · cases hn : mulDivNarrow x y d false with
    | none => exact Nat.mod_le ..
    | some q => exact (mulDivNarrow_eq_some (by omega) hn).le

theorem applyFloored_mul_le (rate n : Nat) : Wad.applyFloored rate n * Wad.scale ≤ rate * n := by
  rw [Nat.mul_comm rate]
  exact (Nat.mul_le_mul_right _ (mulDivFloor_le ..)).trans (Nat.div_mul_le_self ..)

@[simp] theorem applyFloored_zero (n : Nat) : Wad.applyFloored 0 n = 0 := by
  simp [Wad.applyFloored, mulWadFloor, mulDivFloor, mulDivWithRounding]

theorem le_afterFee (fee assets supply : Nat) : supply ≤ afterFee fee assets supply := by
  unfold afterFee
  split
  · exact Nat.le_refl _
  · exact Nat.le_add_right ..

@[simp] theorem afterFee_zero (assets supply : Nat) : afterFee 0 assets supply = supply := by
  simp [afterFee]

theorem afterFee_mul_le (fee assets supply : Nat) :
    afterFee fee assets supply * (assets - fee) ≤ supply * assets := by
  unfold afterFee
  split_ifs with h
  · exact Nat.mul_le_mul_left _ (Nat.sub_le ..)
  · have hquot := Nat.div_mul_le_self (fee * supply) (assets - fee)
    have hassets : supply * assets = supply * (assets - fee) + fee * supply := by
      rw [Nat.mul_comm fee, ← Nat.mul_add, Nat.sub_add_cancel (by omega)]
    rw [Nat.add_mul, hassets]
    omega

variable {fees : FeesSpec A} {anchor : FeeAccrualAnchor} {assets shares nowNs m p : Nat}

/-- The product of the two fractions is above what one fee of both would leave. -/
theorem afterFee_afterFee_mul_le (h : m + p ≤ assets) :
    (assets - m - p) * afterFee p assets (afterFee m assets shares) ≤ shares * assets := by
  rcases Nat.eq_zero_or_pos assets with rfl | hpos
  · simp
  have hm := afterFee_mul_le m assets shares
  have hp := afterFee_mul_le p assets (afterFee m assets shares)
  generalize afterFee p assets (afterFee m assets shares) = total at hp ⊢
  generalize afterFee m assets shares = after at hm hp
  have hfractions : assets * (assets - m - p) ≤ (assets - m) * (assets - p) := by
    obtain ⟨rest, rfl⟩ := Nat.exists_eq_add_of_le h
    rw [show m + p + rest - m - p = rest by omega, show m + p + rest - m = p + rest by omega,
      show m + p + rest - p = m + rest by omega]
    nlinarith
  refine Nat.le_of_mul_le_mul_left ?_ hpos
  calc assets * ((assets - m - p) * total) = assets * (assets - m - p) * total := by ring
    _ ≤ (assets - m) * (assets - p) * total := Nat.mul_le_mul_right _ hfractions
    _ = (assets - m) * (total * (assets - p)) := by ring
    _ ≤ (assets - m) * (after * assets) := Nat.mul_le_mul_left _ hp
    _ = after * (assets - m) * assets := by ring
    _ ≤ shares * assets * assets := Nat.mul_le_mul_right _ hm
    _ = assets * (shares * assets) := by ring

theorem computeFeeSharesFromAssets_eq (fee : Nat) (ha : assets < 2 ^ 128) (hs : shares < 2 ^ 128) :
    shares + computeFeeSharesFromAssets fee assets shares = afterFee fee assets shares := by
  unfold computeFeeSharesFromAssets afterFee
  split_ifs with hzero hall hall
  · rfl
  · rcases hzero with rfl | rfl <;> simp
  · rfl
  · rw [mulDivFloor, mulDivWithRounding_of_lt (by omega) hs, rounded_floor]

/-- Nothing is charged beyond the gain over the anchor, nor beyond what the rate allows. -/
theorem feeAssetsBase_sub_le : feeAssetsBase fees anchor assets nowNs - anchor.totalAssets ≤
    assets - anchor.totalAssets := by
  unfold feeAssetsBase totalAssetsForFeeAccrual
  split
  · omega
  · split
    · exact Nat.le_refl _
    · dsimp only
      split_ifs <;> omega

theorem feeAssetsBase_sub_mul_le {rate : Nat} (hrate : fees.maxTotalAssetsGrowthRate = some rate)
    (hnow : anchor.timestampNs ≤ nowNs) :
    (feeAssetsBase fees anchor assets nowNs - anchor.totalAssets) * (Wad.scale * yearNs) ≤
      rate * anchor.totalAssets * (nowNs - anchor.timestampNs) := by
  generalize hgain : feeAssetsBase fees anchor assets nowNs - anchor.totalAssets = gain
  have hcapped : gain ≤
      Wad.applyFloored rate anchor.totalAssets * (nowNs - anchor.timestampNs) / yearNs := by
    simp only [← hgain, feeAssetsBase, totalAssetsForFeeAccrual, hrate, saturatingAdd]
    have hcut := mulDivFloor_le (Wad.applyFloored rate anchor.totalAssets)
      (nowNs - anchor.timestampNs) yearNs
    generalize mulDivFloor _ _ yearNs = cut at hcut ⊢
    have hsaturated : asU128Saturating cut ≤ cut := by
      unfold asU128Saturating
      split <;> omega
    generalize _ / yearNs = bound at hcut ⊢
    split_ifs <;> omega
  calc gain * (Wad.scale * yearNs) = gain * yearNs * Wad.scale := by ring
    _ ≤ Wad.applyFloored rate anchor.totalAssets * (nowNs - anchor.timestampNs) * Wad.scale :=
      Nat.mul_le_mul_right _ ((Nat.mul_le_mul_right _ hcapped).trans (Nat.div_mul_le_self _ _))
    _ = Wad.applyFloored rate anchor.totalAssets * Wad.scale * (nowNs - anchor.timestampNs) := by ring
    _ ≤ _ := Nat.mul_le_mul_right _ (applyFloored_mul_le ..)

theorem computeManagementFeeShares_eq (ha : assets < 2 ^ 128) (hs : shares < 2 ^ 128) :
    shares + computeManagementFeeShares (feeAssetsBase fees anchor assets nowNs) assets shares
      fees.management.feeWad anchor.timestampNs nowNs =
      afterFee (managementFeeAssets fees anchor assets nowNs) assets shares := by
  unfold computeManagementFeeShares managementFeeAssets
  split_ifs with hnone hpast hpast
  · simp
  · rcases hnone with hfee | rfl | hearly
    · simp [hfee, mulDivFloor, mulDivWithRounding]
    · simp [afterFee]
    · exact absurd hearly hpast
  · omega
  · exact computeFeeSharesFromAssets_eq _ ha hs

/-- The accrual leaves the supply that the fees ask for, or reports that it does not fit. -/
theorem computeFeeAccrual_eq (ha : assets < 2 ^ 128) (hs : shares < 2 ^ 128) :
    (computeFeeAccrual assets shares anchor fees nowNs).map FeeAccrualOutcome.newTotalShares =
      if supplyAfterFees fees anchor assets nowNs shares < 2 ^ 128 then
        .ok (supplyAfterFees fees anchor assets nowNs shares)
      else .error .overflow := by
  unfold supplyAfterFees
  by_cases hactive : fees.hasActiveSlotFees = false
  · obtain ⟨hp, hm⟩ : fees.performance.feeWad = 0 ∧ fees.management.feeWad = 0 := by
      simpa [FeesSpec.hasActiveSlotFees, FeeSlot.hasRate] using hactive
    have hzero : managementFeeAssets fees anchor assets nowNs = 0 ∧
        performanceFeeAssets fees anchor assets nowNs = 0 := by
      simp [managementFeeAssets, performanceFeeAssets, hp, hm, mulDivFloor, mulDivWithRounding]
    simp only [hzero, afterFee_zero, if_pos hs, computeFeeAccrual, if_pos hactive]
    rfl
  have hmanagement := @computeManagementFeeShares_eq _ fees anchor _ _ nowNs ha hs
  simp only [computeFeeAccrual, if_neg hactive]
  rw [← feeAssetsBase, ← performanceFeeAssets]
  generalize computeManagementFeeShares _ _ _ _ _ _ = management at hmanagement ⊢
  generalize managementFeeAssets fees anchor assets nowNs = m at hmanagement ⊢
  generalize performanceFeeAssets fees anchor assets nowNs = p
  by_cases hfits : shares + management < 2 ^ 128
  · rw [ensure_of (by omega), ok_bind, asU128Trunc_of_lt (by omega), okOr_checkedAdd hfits, ok_bind,
      hmanagement]
    have hperformance := computeFeeSharesFromAssets_eq p ha (hmanagement ▸ hfits)
    generalize computeFeeSharesFromAssets _ _ _ = performance at hperformance ⊢
    by_cases hfits' : afterFee m assets shares + performance < 2 ^ 128
    · rw [ensure_of (by omega), ok_bind, asU128Trunc_of_lt (by omega), okOr_checkedAdd hfits', ok_bind,
        if_pos (by omega), hperformance]
      rfl
    · rw [ensure_of_not (by omega), error_bind, if_neg (by omega)]
      rfl
  · have hle := le_afterFee p assets (afterFee m assets shares)
    rw [ensure_of_not (by omega), error_bind, if_neg (by omega)]
    rfl

/-- Over every accrual: the supply is what the fees ask for, in exact arithmetic, and the holders
keep the assets that the fees leave; the performance fee is at most its rate of the gain and of
what the growth cap allows since the anchor; an overflow is reported exactly when there is one. -/
theorem fees_bound_dilution (fees : FeesSpec A) (anchor : FeeAccrualAnchor)
    (assets shares nowNs : Nat) (ha : assets < 2 ^ 128) (hs : shares < 2 ^ 128) :
    let m := managementFeeAssets fees anchor assets nowNs
    let p := performanceFeeAssets fees anchor assets nowNs
    (∀ o, computeFeeAccrual assets shares anchor fees nowNs = .ok o →
      o.newTotalShares = supplyAfterFees fees anchor assets nowNs shares ∧
      (m + p ≤ assets → (assets - m - p) * o.newTotalShares ≤ shares * assets)) ∧
    p * Wad.scale ≤ fees.performance.feeWad * (assets - anchor.totalAssets) ∧
    (∀ rate, fees.maxTotalAssetsGrowthRate = some rate → anchor.timestampNs ≤ nowNs →
      p * Wad.scale * (Wad.scale * yearNs) ≤ fees.performance.feeWad *
        (rate * anchor.totalAssets * (nowNs - anchor.timestampNs))) ∧
    (assets ≤ anchor.totalAssets → p = 0) ∧
    (computeFeeAccrual assets shares anchor fees nowNs = .error .overflow ↔
      2 ^ 128 - 1 < supplyAfterFees fees anchor assets nowNs shares) := by
  intro m p
  have hp : p * Wad.scale ≤ fees.performance.feeWad *
      (feeAssetsBase fees anchor assets nowNs - anchor.totalAssets) := applyFloored_mul_le ..
  have hgain := hp.trans (Nat.mul_le_mul_left _ feeAssetsBase_sub_le)
  have heq := @computeFeeAccrual_eq _ fees anchor _ _ nowNs ha hs
  refine ⟨?_, hgain, ?_, ?_, ?_⟩
  · intro o ho
    rw [ho] at heq
    split at heq
    · have htotal : o.newTotalShares = _ := Except.ok.inj heq
      rw [htotal]
      exact ⟨rfl, afterFee_afterFee_mul_le⟩
    · cases heq
  · intro rate hrate hnow
    calc p * Wad.scale * (Wad.scale * yearNs) ≤ _ := Nat.mul_le_mul_right _ hp
      _ = fees.performance.feeWad * ((feeAssetsBase fees anchor assets nowNs - anchor.totalAssets) *
          (Wad.scale * yearNs)) := Nat.mul_assoc ..
      _ ≤ _ := Nat.mul_le_mul_left _ (feeAssetsBase_sub_mul_le hrate hnow)
  · intro hle
    rw [Nat.sub_eq_zero_of_le hle, Nat.mul_zero] at hgain
    exact (Nat.mul_eq_zero.mp (Nat.le_zero.mp hgain)).resolve_right (by decide)
  · cases hr : computeFeeAccrual assets shares anchor fees nowNs with
    | ok o =>
      rw [hr] at heq
      split at heq
      · exact iff_of_false (by simp) (by omega)
      · cases heq
    | error e =>
      cases e
      rw [hr] at heq
      split at heq
      · cases heq
      · exact iff_of_true rfl (by omega)

/-- A tenth of the gain, and a hundredth of everything in a year, under a cap of the given rate. -/
def sampleFees (rate : Nat) : FeesSpec Nat := ⟨⟨10 ^ 17, 8⟩, ⟨10 ^ 16, 9⟩, some rate⟩

theorem fees_bound_dilution_year :
    computeFeeAccrual 2000 1000 ⟨1000, 0⟩ (sampleFees (5 * 10 ^ 17)) yearNs ≠ .error .overflow ∧
    supplyAfterFees (sampleFees (5 * 10 ^ 17)) ⟨1000, 0⟩ 2000 yearNs 1000 = 1032 := by
  have hsupply : supplyAfterFees (sampleFees (5 * 10 ^ 17)) ⟨1000, 0⟩ 2000 yearNs 1000 = 1032 := by
    decide +kernel
  refine ⟨?_, hsupply⟩
  intro h
  have hlarge := (fees_bound_dilution _ _ _ _ _ (by decide) (by decide)).2.2.2.2.mp h
  omega

/-- Before the anchor's own time the cap is not applied: with no growth allowed at all, a tenth of
the gain is charged. -/
theorem cap_before_anchor : performanceFeeAssets (sampleFees 0) ⟨1000, 10⟩ 2000 5 = 100 ∧
    (computeFeeAccrual 2000 1000 ⟨1000, 10⟩ (sampleFees 0) 5).map FeeAccrualOutcome.newTotalShares =
      .ok 1052 := by
  refine ⟨by decide +kernel, ?_⟩
  rw [computeFeeAccrual_eq (by decide) (by decide)]
  decide +kernel

end Templar.Vault
