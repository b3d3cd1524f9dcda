import Mathlib.Algebra.Order.Field.Power
import Mathlib.Data.Nat.Log
import Mathlib.Data.Rat.Cast.Order
import Mathlib.Order.Compare
import Templar.Decimal

/-!
# Prices and their relative changes

A price is a mantissa with a decimal exponent. Prices of different exponents are
compared by digit count first and only then rescaled; relative changes are
compared in 512-bit integers. Where a rescaling leaves that width the comparison
answers as if the change were too large, so that a rule built on it fails closed.
-/

namespace Templar.Oracle

open Checked

/-- `price` is an `i64`, `conf` a `u64`, `expo` an `i32`. -/
structure Price where
  price : Int
  conf : Nat
  expo : Int
  publishTimeNs : Nat
  deriving DecidableEq

namespace Price

def hasStrictlyPositiveConfidenceInterval (p : Price) : Bool := 0 ≤ p.price && p.conf < p.price.toNat

end Price

/-- The order of two positive scaled mantissas, by digit count first. No product
leaves its `u128`, since the mantissas have at most nineteen digits. -/
def compareMagnitude (leftAbs : Nat) (leftExponent : Int) (rightAbs : Nat) (rightExponent : Int) :
    Ordering :=
  let leftLog10 := Nat.log 10 leftAbs
  let rightLog10 := Nat.log 10 rightAbs
  let maxDigits := max leftLog10 rightLog10
  (compare (leftExponent + leftLog10) (rightExponent + rightLog10)).then
    (compare (leftAbs * 10 ^ (maxDigits - leftLog10)) (rightAbs * 10 ^ (maxDigits - rightLog10)))

def compareScaled (leftValue leftExponent rightValue rightExponent : Int) : Ordering :=
  match compare leftValue 0, compare rightValue 0 with
  | .eq, rightSign => rightSign.swap
  | leftSign, .eq => leftSign
  | leftSign, rightSign =>
    if leftSign ≠ rightSign then leftSign
    else
      let magnitudeOrder :=
        compareMagnitude leftValue.natAbs leftExponent rightValue.natAbs rightExponent
      if leftValue < 0 then magnitudeOrder.swap else magnitudeOrder

/-- The value of a mantissa with its exponent. -/
def scaledValue (value exponent : ℤ) : ℚ := value * 10 ^ exponent

theorem scaledValue_pos {v e : ℤ} (h : 0 < v) : 0 < scaledValue v e :=
  mul_pos (Int.cast_pos.mpr h) (zpow_pos (by norm_num) _)

theorem scaledValue_neg {v e : ℤ} (h : v < 0) : scaledValue v e < 0 :=
  mul_neg_of_neg_of_pos (Int.cast_lt_zero.mpr h) (zpow_pos (by norm_num) _)

theorem scaledValue_zero (e : ℤ) : scaledValue 0 e = 0 := by
  simp [scaledValue]

/-- Two comparisons agree when their strict parts do. -/
theorem compare_congr {α β : Type} [LinearOrder α] [LinearOrder β] {a b : α} {c d : β}
    (hlt : a < b ↔ c < d) (hgt : b < a ↔ d < c) : compare a b = compare c d := by
  rcases lt_trichotomy a b with h | h | h
  · rw [compare_lt_iff_lt.mpr h, compare_lt_iff_lt.mpr (hlt.mp h)]
  · have hc : c = d := by
      apply le_antisymm
      · exact not_lt.mp fun hd => absurd (hgt.mpr hd) (by rw [h]; exact lt_irrefl _)
      · exact not_lt.mp fun hd => absurd (hlt.mpr hd) (by rw [h]; exact lt_irrefl _)
    rw [compare_eq_iff_eq.mpr h, compare_eq_iff_eq.mpr hc]
  · rw [compare_gt_iff_gt.mpr h, compare_gt_iff_gt.mpr (hgt.mp h)]

/-- A number of fewer digits before its point is the smaller one. -/
theorem magnitude_lt {a b : ℕ} {ea eb : ℤ} (hb : b ≠ 0)
    (h : ea + Nat.log 10 a < eb + Nat.log 10 b) : (a : ℚ) * 10 ^ ea < b * 10 ^ eb := by
  have hten : (0 : ℚ) < 10 := by norm_num
  have hlow : (a : ℚ) < 10 ^ (Nat.log 10 a + 1 : ℤ) := by
    have := Nat.lt_pow_succ_log_self (b := 10) (by norm_num) a
    exact_mod_cast this
  have hhigh : (10 : ℚ) ^ (Nat.log 10 b : ℤ) ≤ b := by
    have := Nat.pow_log_le_self 10 hb
    exact_mod_cast this
  calc (a : ℚ) * 10 ^ ea < 10 ^ (Nat.log 10 a + 1 : ℤ) * 10 ^ ea :=
        mul_lt_mul_of_pos_right hlow (zpow_pos hten ea)
    _ = 10 ^ ((Nat.log 10 a + 1 : ℤ) + ea) := (zpow_add₀ hten.ne' _ _).symm
    _ ≤ 10 ^ ((Nat.log 10 b : ℤ) + eb) := zpow_le_zpow_right₀ (by norm_num) (by omega)
    _ = 10 ^ (Nat.log 10 b : ℤ) * 10 ^ eb := zpow_add₀ hten.ne' _ _
    _ ≤ b * 10 ^ eb := mul_le_mul_of_nonneg_right hhigh (zpow_pos hten eb).le

/-- A mantissa filled up to `m + 1` digits, and the exponent that makes up for it. -/
theorem rescaled {a m : ℕ} {e : ℤ} (h : Nat.log 10 a ≤ m) :
    (a : ℚ) * 10 ^ e = ((a * 10 ^ (m - Nat.log 10 a) : ℕ) : ℚ) * 10 ^ (e + Nat.log 10 a - m) := by
  have hten : (10 : ℚ) ≠ 0 := by norm_num
  rw [Nat.cast_mul, Nat.cast_pow, Nat.cast_ofNat, mul_assoc, ← zpow_natCast, ← zpow_add₀ hten]
  congr 2
  omega

theorem compareMagnitude_eq {a b : ℕ} (ea eb : ℤ) (ha : a ≠ 0) (hb : b ≠ 0) :
    compareMagnitude a ea b eb = compare ((a : ℚ) * 10 ^ ea) (b * 10 ^ eb) := by
  unfold compareMagnitude
  dsimp only
  rcases lt_trichotomy (ea + Nat.log 10 a) (eb + Nat.log 10 b) with h | h | h
  · rw [compare_lt_iff_lt.mpr h, compare_lt_iff_lt.mpr (magnitude_lt hb h)]
    rfl
  · rw [compare_eq_iff_eq.mpr h, Ordering.eq_then]
    -- Both values are the filled mantissas times one power of ten.
    have hpow : (0 : ℚ) < 10 ^ (eb + Nat.log 10 b - max (Nat.log 10 a) (Nat.log 10 b)) :=
      zpow_pos (by norm_num) _
    rw [rescaled (a := a) (e := ea) (le_max_left _ (Nat.log 10 b)),
      rescaled (a := b) (e := eb) (le_max_right (Nat.log 10 a) _), h]
    apply compare_congr
    · rw [mul_lt_mul_iff_left₀ hpow, Nat.cast_lt]
    · rw [mul_lt_mul_iff_left₀ hpow, Nat.cast_lt]
  · rw [compare_gt_iff_gt.mpr h, compare_gt_iff_gt.mpr (magnitude_lt ha h)]
    rfl

theorem compareScaled_eq (v e w f : ℤ) :
    compareScaled v e w f = compare (scaledValue v e) (scaledValue w f) := by
  unfold compareScaled
  rcases lt_trichotomy v 0 with hv | rfl | hv
  · rw [compare_lt_iff_lt.mpr hv]
    rcases lt_trichotomy w 0 with hw | rfl | hw
    · rw [compare_lt_iff_lt.mpr hw]
      simp only [ne_eq, not_true_eq_false, if_false, if_pos hv]
      have hneg (x : ℤ) (hx : x < 0) : (x.natAbs : ℚ) = -x := by
        rw [Nat.cast_natAbs, abs_of_neg hx, Int.cast_neg]
      rw [compareMagnitude_eq e f (by omega) (by omega), ← Std.OrientedCmp.eq_swap, hneg v hv,
        hneg w hw]
      apply compare_congr
      · rw [neg_mul, neg_mul, neg_lt_neg_iff]
        rfl
      · rw [neg_mul, neg_mul, neg_lt_neg_iff]
        rfl
    · rw [compare_eq_iff_eq.mpr rfl, scaledValue_zero, compare_lt_iff_lt.mpr (scaledValue_neg hv)]
    · rw [compare_gt_iff_gt.mpr hw,
        compare_lt_iff_lt.mpr ((scaledValue_neg hv).trans (scaledValue_pos hw))]
      rfl
  · rw [compare_eq_iff_eq.mpr rfl, scaledValue_zero]
    show (compare w 0).swap = compare 0 (scaledValue w f)
    rw [← Std.OrientedCmp.eq_swap]
    rcases lt_trichotomy w 0 with hw | rfl | hw
    · rw [compare_gt_iff_gt.mpr hw, compare_gt_iff_gt.mpr (scaledValue_neg hw)]
    · rw [scaledValue_zero, compare_eq_iff_eq.mpr rfl, compare_eq_iff_eq.mpr rfl]
    · rw [compare_lt_iff_lt.mpr hw, compare_lt_iff_lt.mpr (scaledValue_pos hw)]
  · rw [compare_gt_iff_gt.mpr hv]
    rcases lt_trichotomy w 0 with hw | rfl | hw
    · rw [compare_lt_iff_lt.mpr hw,
        compare_gt_iff_gt.mpr ((scaledValue_neg hw).trans (scaledValue_pos hv))]
      rfl
    · rw [compare_eq_iff_eq.mpr rfl, scaledValue_zero, compare_gt_iff_gt.mpr (scaledValue_pos hv)]
    · rw [compare_gt_iff_gt.mpr hw]
      simp only [ne_eq, not_true_eq_false, if_false, if_neg (not_lt.mpr hv.le)]
      have hpos (x : ℤ) (hx : 0 < x) : (x.natAbs : ℚ) = x := by
        rw [Nat.cast_natAbs, abs_of_pos hx]
      rw [compareMagnitude_eq e f (by omega) (by omega), hpos v hv, hpos w hw]
      rfl

inductive StepChange where
  | decrease
  | minor
  | increase
  deriving DecidableEq

/-- The factor `10^exponent`, multiplied up one digit at a time. -/
def checkedPowerOfTen : Nat → Option Nat
  | 0 => some 1
  | exponent + 1 => (checkedPowerOfTen exponent).bind fun factor => checkedMul 512 factor 10

def checkedScaledMagnitude (magnitude exponent : Nat) : Option Nat :=
  (checkedPowerOfTen exponent).bind fun factor => checkedMul 512 magnitude factor

def checkedShiftLeft (value bits : Nat) : Option Nat :=
  if 512 < bitLength value + bits then none else some (value <<< bits)

/-- The difference of two `i32` values as a `u32`. -/
def checkedExponentGap (expo commonExponent : Int) : Option Nat :=
  let gap := expo - commonExponent
  if 0 ≤ gap ∧ gap < 2 ^ 31 then some gap.toNat else none

/-- The absolute difference of two prices at their common exponent, with the
earlier price at that exponent. -/
def scaledDifference (previous current : Price) : Option (Nat × Nat) := do
  let commonExponent := min previous.expo current.expo
  let previousGap ← checkedExponentGap previous.expo commonExponent
  let previousScaled ← checkedScaledMagnitude previous.price.natAbs previousGap
  let currentGap ← checkedExponentGap current.expo commonExponent
  let currentScaled ← checkedScaledMagnitude current.price.natAbs currentGap
  if previous.price.sign = current.price.sign then
    if currentScaled ≤ previousScaled then some (previousScaled - currentScaled, previousScaled)
    else some (currentScaled - previousScaled, previousScaled)
  else
    let sum ← checkedAdd 512 previousScaled currentScaled
    some (sum, previousScaled)

def compareScaledChange (difference baseline : Nat) (threshold : Decimal) (inclusive : Bool) :
    Option Bool := do
  let left ← checkedShiftLeft difference 128
  let right ← checkedMul 512 baseline threshold.repr
  some (if inclusive then decide (right ≤ left) else decide (right < left))

section

variable (previous current : Price)

def compareRelativeAbsChange (threshold : Decimal) (inclusive : Bool) : Bool :=
  if previous.price = 0 then decide (current.price ≠ 0)
  else
    match scaledDifference previous current with
    | none => true
    | some (difference, baseline) =>
      (compareScaledChange difference baseline threshold inclusive).getD true

def relativeAbsChangeExceeds (maxRelativeChange : Decimal) : Bool :=
  compareRelativeAbsChange previous current maxRelativeChange false

def relativeAbsChangeAtLeast (minRelativeChange : Decimal) : Bool :=
  compareRelativeAbsChange previous current minRelativeChange true

def classifyStepChange (minRelativeStepChange : Decimal) : StepChange :=
  let ofSignificant (stepChange : StepChange) : StepChange :=
    if relativeAbsChangeAtLeast previous current minRelativeStepChange then stepChange else .minor
  match compareScaled previous.price previous.expo current.price current.expo with
  | .lt => ofSignificant .increase
  | .gt => ofSignificant .decrease
  | .eq => .minor

end

/-- The sum of positive prices at a common exponent. -/
def checkedPriceSum (prices : List Price) (commonExponent : Int) : Option Nat :=
  prices.foldlM (fun sum price => do
    if price.price ≤ 0 then none
    else
      let exponent ← checkedExponentGap price.expo commonExponent
      let scaled ← checkedScaledMagnitude price.price.toNat exponent
      checkedAdd 512 sum scaled) 0

def relativeSumChangeExceeds (previous current : List Price) (threshold : Decimal) : Bool :=
  match ((previous ++ current).map (·.expo)).min? with
  | none => false
  | some commonExponent =>
    match checkedPriceSum previous commonExponent with
    | none => true
    | some previousSum =>
      match checkedPriceSum current commonExponent with
      | none => true
      | some currentSum =>
        if previousSum = 0 then decide (currentSum ≠ 0)
        else
          let difference :=
            if currentSum ≤ previousSum then previousSum - currentSum else currentSum - previousSum
          (compareScaledChange difference previousSum threshold false).getD true

end Templar.Oracle
