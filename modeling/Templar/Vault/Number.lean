import Mathlib.Algebra.Order.Floor.Div
import Templar.Lib.Checked

/-!
# Wide numbers, rounding and fee rates

A `Number` of the kernel is an unsigned 256-bit integer whose products are formed in 512
bits. `mulDivWithRounding` takes one of six paths through a product and a quotient. As long
as the rounded quotient fits 256 bits they all return the same number, the floor or the
ceiling, which is all the rest of the kernel relies on. A `Wad` is a `Number` scaled by
`10^18`; the fee formulas are put together from the two.
-/

namespace Templar.Vault

open Checked

namespace Number

def asU128Trunc (n : Nat) : Nat := n % 2 ^ 128

def asU128Saturating (n : Nat) : Nat := if n < 2 ^ 128 then n else 2 ^ 128 - 1

def asU256Trunc (q : Nat) : Nat := q % 2 ^ 256

def asU128IfFits (value : Nat) : Option Nat := if value < 2 ^ 128 then some value else none

def saturatingMul (x y : Nat) : Nat := min (x * y) (2 ^ 256 - 1)

/-- The path for operands whose product still fits a machine word. -/
def mulDivNarrow (x y denom : Nat) (roundUp : Bool) : Option Nat := do
  let x128 ← asU128IfFits x
  let y128 ← asU128IfFits y
  let denom128 ← asU128IfFits denom
  let prod ← checkedMul 128 x128 y128
  let q := prod / denom128
  if !roundUp then some q
  else if prod % denom128 = 0 then some q
  else some (saturatingAdd 128 q 1)

/-- The general path: the product is exact, the quotient is cut to 256 bits. -/
def mulDivWide (x y denom : Nat) (roundUp : Bool) : Nat :=
  let prod := x * y
  let base := asU256Trunc (prod / denom)
  if !roundUp then base
  else if prod % denom = 0 then base
  else saturatingAdd 256 base 1

def mulDivWithRounding (x y denom : Nat) (roundUp : Bool) : Nat :=
  if x = 0 ∨ y = 0 then 0
  else if denom = 0 then 0
  else if denom = 1 then saturatingMul x y
  -- cancellation when one factor equals the denominator
  else if x = denom then y
  else if y = denom then x
  else (mulDivNarrow x y denom roundUp).getD (mulDivWide x y denom roundUp)

def mulDivFloor (x y denom : Nat) : Nat := mulDivWithRounding x y denom false

def mulDivCeil (x y denom : Nat) : Nat := mulDivWithRounding x y denom true

/-- What both directions of rounding compute when nothing is cut off. -/
def rounded (x y denom : Nat) (roundUp : Bool) : Nat :=
  if roundUp then (x * y) ⌈/⌉ denom else x * y / denom

@[simp] theorem rounded_floor (x y denom : Nat) : rounded x y denom false = x * y / denom := rfl

@[simp] theorem rounded_ceil (x y denom : Nat) : rounded x y denom true = (x * y) ⌈/⌉ denom := rfl

theorem ceilDiv_eq (n d : Nat) (hd : 0 < d) : n ⌈/⌉ d = if n % d = 0 then n / d else n / d + 1 := by
  have hn := Nat.div_add_mod n d
  have hr := Nat.mod_lt n hd
  rw [Nat.ceilDiv_eq_add_pred_div]
  split
  · rename_i h
    rw [Nat.div_eq_of_lt_le]
    · rw [Nat.mul_comm]
      omega
    · rw [Nat.add_mul, Nat.mul_comm]
      omega
  · rename_i h
    rw [Nat.div_eq_of_lt_le]
    · rw [Nat.add_mul, Nat.mul_comm]
      omega
    · rw [Nat.add_mul, Nat.add_mul, Nat.mul_comm]
      omega

theorem rounded_eq (x y denom : Nat) (roundUp : Bool) (hd : 0 < denom) : rounded x y denom roundUp =
      if roundUp = true ∧ x * y % denom ≠ 0 then x * y / denom + 1 else x * y / denom := by
  cases roundUp with
  | false => rfl
  | true =>
    rw [rounded_ceil, ceilDiv_eq _ _ hd]
    by_cases h : x * y % denom = 0 <;> simp [h]

theorem rounded_self_left (x y : Nat) (roundUp : Bool) (hx : 0 < x) : rounded x y x roundUp = y := by
  rw [rounded_eq x y x roundUp hx]
  simp [Nat.mul_div_cancel_left y hx]

theorem rounded_self_right (x y : Nat) (roundUp : Bool) (hy : 0 < y) : rounded x y y roundUp = x := by
  rw [rounded_eq x y y roundUp hy]
  simp [Nat.mul_div_cancel x hy]

theorem rounded_one (x y : Nat) (roundUp : Bool) : rounded x y 1 roundUp = x * y := by
  rw [rounded_eq x y 1 roundUp Nat.one_pos]
  simp [Nat.mod_one]

theorem asU128IfFits_eq_some {value v : Nat} :
    asU128IfFits value = some v ↔ value < 2 ^ 128 ∧ v = value := by
  simp [asU128IfFits, eq_comm]

variable {x y denom : Nat} {roundUp : Bool}

/-- On the narrow path the quotient is at most half a word, so its increment is exact. -/
theorem mulDivNarrow_eq_some {q : Nat} (hd : 1 < denom)
    (h : mulDivNarrow x y denom roundUp = some q) : q = rounded x y denom roundUp := by
  simp only [mulDivNarrow, Option.bind_eq_bind, Option.bind_eq_some_iff, asU128IfFits_eq_some,
    checkedMul_eq_some] at h
  obtain ⟨x, ⟨-, rfl⟩, y, ⟨-, rfl⟩, denom, ⟨-, rfl⟩, _, ⟨hprod, rfl⟩, h⟩ := h
  rw [rounded_eq _ _ _ roundUp (by omega)]
  cases roundUp with
  | false => simpa using h.symm
  | true =>
    by_cases hr : x * y % denom = 0
    · simpa [hr] using h.symm
    · have hhalf : x * y / denom ≤ x * y / 2 := Nat.div_le_div_left hd (by omega)
      have hsat : saturatingAdd 128 (x * y / denom) 1 = x * y / denom + 1 :=
        saturatingAdd_of_lt (by omega)
      simpa [hr, hsat] using h.symm

theorem mulDivWide_eq (hd : 0 < denom) (h : rounded x y denom roundUp < 2 ^ 256) :
    mulDivWide x y denom roundUp = rounded x y denom roundUp := by
  rw [rounded_eq x y denom roundUp hd] at h ⊢
  unfold mulDivWide asU256Trunc
  cases roundUp with
  | false =>
    simp only [Bool.false_eq_true, false_and, ↓reduceIte] at h ⊢
    exact Nat.mod_eq_of_lt h
  | true =>
    by_cases hr : x * y % denom = 0
    · simp only [hr, ne_eq, not_true_eq_false, and_false, ↓reduceIte] at h ⊢
      exact Nat.mod_eq_of_lt h
    · simp only [hr, ne_eq, not_false_eq_true, and_self, ↓reduceIte, Bool.not_true,
        Bool.false_eq_true] at h ⊢
      rw [Nat.mod_eq_of_lt (by omega)]
      exact saturatingAdd_of_lt h

/-- Every path returns the rounded quotient when that fits 256 bits. -/
theorem mulDivWithRounding_eq (h : rounded x y denom roundUp < 2 ^ 256) :
    mulDivWithRounding x y denom roundUp = rounded x y denom roundUp := by
  unfold mulDivWithRounding
  split
  · rename_i h0
    have hz : x * y = 0 := by rcases h0 with rfl | rfl <;> simp
    cases roundUp <;> simp [rounded, hz]
  split
  · rename_i hz
    subst hz
    cases roundUp <;> simp [rounded]
  split
  · rename_i h1
    subst h1
    rw [rounded_one] at h ⊢
    unfold saturatingMul
    omega
  split
  · rename_i hxy _ _ hx
    subst hx
    exact (rounded_self_left x y roundUp (by omega)).symm
  split
  · rename_i hxy _ _ _ hy
    subst hy
    exact (rounded_self_right x y roundUp (by omega)).symm
  · cases hn : mulDivNarrow x y denom roundUp with
    | none => exact mulDivWide_eq (by omega) h
    | some q => exact mulDivNarrow_eq_some (by omega) hn

/-- Multiplication and division are exact: whichever path is taken, a quotient that fits is
returned, the floor in one direction and the ceiling in the other. -/
theorem mulDivWithRounding_exact (x y denom : Nat) :
    (x * y / denom < 2 ^ 256 → mulDivWithRounding x y denom false = x * y / denom) ∧
    ((x * y) ⌈/⌉ denom < 2 ^ 256 → mulDivWithRounding x y denom true = (x * y) ⌈/⌉ denom) := by
  constructor
  · intro h
    exact @mulDivWithRounding_eq x y denom false h
  · intro h
    exact @mulDivWithRounding_eq x y denom true h

/-- The product takes more than 256 bits. -/
theorem mulDivWithRounding_exact_wide :
    mulDivWithRounding (2 ^ 200) (2 ^ 100) (2 ^ 60 + 1) true =
      (2 ^ 200 * 2 ^ 100) ⌈/⌉ (2 ^ 60 + 1) :=
  (mulDivWithRounding_exact _ _ _).2 (by decide +kernel)

/-- A quotient of machine words never leaves 256 bits. -/
theorem rounded_lt (hx : x < 2 ^ 128) (hy : y < 2 ^ 128) (denom : Nat) (roundUp : Bool) :
    rounded x y denom roundUp < 2 ^ 256 := by
  rcases Nat.eq_zero_or_pos denom with rfl | hd
  · cases roundUp <;> simp [rounded]
  have hprod : x * y ≤ (2 ^ 128 - 1) * (2 ^ 128 - 1) := Nat.mul_le_mul (by omega) (by omega)
  have hq : x * y / denom ≤ x * y := Nat.div_le_self _ _
  rw [rounded_eq x y denom roundUp hd]
  split <;> omega

theorem mulDivWithRounding_of_lt (hx : x < 2 ^ 128) (hy : y < 2 ^ 128) (denom : Nat)
    (roundUp : Bool) : mulDivWithRounding x y denom roundUp = rounded x y denom roundUp :=
  mulDivWithRounding_eq (rounded_lt hx hy denom roundUp)

theorem asU128Trunc_of_lt {n : Nat} (h : n < 2 ^ 128) : asU128Trunc n = n := Nat.mod_eq_of_lt h

end Number

open Number

def Wad.scale : Nat := 1000000000000000000

def yearNs : Nat := 365 * 24 * 60 * 60 * 1000000000

def mulWadFloor (x y : Nat) : Nat := mulDivFloor x y Wad.scale

/-- The part of an amount that a rate stands for, floored. -/
def Wad.applyFloored (rate amount : Nat) : Nat := mulWadFloor amount rate

def computeFeeSharesFromAssets (feeAssets curTotalAssets totalSupply : Nat) : Nat :=
  if feeAssets = 0 ∨ totalSupply = 0 then 0
  else if curTotalAssets ≤ feeAssets then 0
  else mulDivFloor feeAssets totalSupply (curTotalAssets - feeAssets)

/-- The total that fees are charged on. Growth from an empty anchor is left out, growth beyond
the configured rate is cut off. -/
def totalAssetsForFeeAccrual (curTotalAssets anchorTotalAssets anchorTimestampNs nowNs : Nat)
    (maxRate : Option Nat) : Nat :=
  if anchorTotalAssets = 0 then 0
  else
    match maxRate with
    | none => curTotalAssets
    | some maxRate =>
      if curTotalAssets ≤ anchorTotalAssets ∨ nowNs < anchorTimestampNs then curTotalAssets
      else
        let elapsedNs := nowNs - anchorTimestampNs
        if elapsedNs = 0 then anchorTotalAssets
        else
          let annualMaxIncrease := Wad.applyFloored maxRate anchorTotalAssets
          let maxIncrease := asU128Saturating (mulDivFloor annualMaxIncrease elapsedNs yearNs)
          min curTotalAssets (saturatingAdd 128 anchorTotalAssets maxIncrease)

def computeManagementFeeShares (feeAssetsBase curTotalAssets totalSupply managementFeeWad
    lastTimestampNs nowNs : Nat) : Nat :=
  if managementFeeWad = 0 ∨ totalSupply = 0 ∨ nowNs ≤ lastTimestampNs then 0
  else
    let elapsedNs := nowNs - lastTimestampNs
    let annualFeeAssets := Wad.applyFloored managementFeeWad feeAssetsBase
    let feeAssets := mulDivFloor annualFeeAssets elapsedNs yearNs
    computeFeeSharesFromAssets feeAssets curTotalAssets totalSupply

end Templar.Vault
