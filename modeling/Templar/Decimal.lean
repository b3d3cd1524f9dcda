import Mathlib.Tactic.Ring
import Templar.Lib.Checked

/-!
# The 512-bit fixed-point number

`Decimal` keeps 128 fractional bits in a 512-bit unsigned integer. Shifts of that
integer drop the bits that leave it; additions, subtractions and multiplications
that leave it abort. Multiplication first moves trailing zeros of its factors out
of the way, so that it aborts only when the reduced product does not fit.
-/

namespace Templar

open Checked

/-- One more than the largest 512-bit integer. -/
def u512Bound : Nat := 2 ^ 256 * 2 ^ 256

theorem u512Bound_pos : 0 < u512Bound := by decide

theorem u512Bound_eq : u512Bound = 2 ^ 512 := (Nat.pow_add 2 256 256).symm

/-- A fixed-point number of 512 bits, 128 of them after the point. -/
structure Decimal where
  repr : Nat
  isLt : repr < u512Bound
  deriving DecidableEq

def fractionalBits : Nat := 128
def fractionalDecimalDigits : Nat := 38
def wholeDecimalDigits : Nat := 115

/-- Trailing zeros of an integer of the given width; all of them for zero. -/
def trailingZeros : Nat → Nat → Nat
  | 0, _ => 0
  | bits + 1, n => if n % 2 = 0 then trailingZeros bits (n / 2) + 1 else 0

def bitLength (n : Nat) : Nat := if n = 0 then 0 else n.log2 + 1

def leadingZeros (n : Nat) : Nat := 512 - bitLength n

theorem bitLength_le_of_lt {n bits : Nat} (h : n < 2 ^ bits) : bitLength n ≤ bits := by
  unfold bitLength
  split
  · exact Nat.zero_le _
  · exact (Nat.log2_lt (by assumption)).mpr h

theorem two_pow_trailingZeros_dvd (bits n : Nat) : 2 ^ trailingZeros bits n ∣ n := by
  induction bits generalizing n with
  | zero => simp [trailingZeros]
  | succ bits ih =>
    unfold trailingZeros
    split
    · obtain ⟨k, hk⟩ := ih (n / 2)
      refine ⟨k, ?_⟩
      rw [Nat.pow_succ, Nat.mul_assoc, Nat.mul_comm 2 k, ← Nat.mul_assoc, ← hk]
      omega
    · simp

namespace Decimal

variable {a b d c : Decimal} {n value : Nat}

@[ext] theorem ext (h : a.repr = b.repr) : a = b := by
  cases a
  cases b
  simp_all

instance : LE Decimal := ⟨fun a b => a.repr ≤ b.repr⟩
instance : LT Decimal := ⟨fun a b => a.repr < b.repr⟩
instance (a b : Decimal) : Decidable (a ≤ b) := inferInstanceAs (Decidable (a.repr ≤ b.repr))
instance (a b : Decimal) : Decidable (a < b) := inferInstanceAs (Decidable (a.repr < b.repr))

theorem le_def : a ≤ b ↔ a.repr ≤ b.repr := Iff.rfl

/-- What is left of an integer after its bits beyond the 512th are dropped. -/
def wrap (n : Nat) : Decimal := ⟨n % u512Bound, Nat.mod_lt _ u512Bound_pos⟩

/-- A result that does not fit aborts. -/
def ofRepr (n : Nat) : Outcome Decimal :=
  if h : n < u512Bound then .ok ⟨n, h⟩ else .error .overflow

def zero : Decimal := ⟨0, u512Bound_pos⟩
def one : Decimal := wrap (2 ^ 128)
def maxValue : Decimal := ⟨u512Bound - 1, Nat.sub_lt u512Bound_pos Nat.one_pos⟩
def minValue : Decimal := ⟨0, u512Bound_pos⟩
def ln2 : Decimal := wrap (0xB17217F7D1CF79AB * 2 ^ 64 + 0xC9E3B39803F2F6B0)

/-- Conversion from the unsigned integer types, of at most 256 bits. -/
def ofUInt (value : Nat) : Decimal := wrap (value <<< fractionalBits)

def isZero (d : Decimal) : Bool := d.repr = 0

def add (a b : Decimal) : Outcome Decimal := ofRepr (a.repr + b.repr)

def sub (a b : Decimal) : Outcome Decimal := Checked.sub a.repr b.repr >>= ofRepr

def mul (a b : Decimal) : Outcome Decimal := do
  let shrSelf := min (trailingZeros 512 a.repr) fractionalBits
  let shr := fractionalBits - shrSelf
  let shrRhs := min (trailingZeros 512 b.repr) shr
  let product ← Checked.mul 512 (a.repr >>> shrSelf) (b.repr >>> shrRhs)
  ofRepr (product >>> (shr - shrRhs))

/-- The dividend is shifted left while it has room, the divisor right while it is even, and the
quotient makes up for the rest. -/
def div (a b : Decimal) : Outcome Decimal := do
  let shSelf := min (leadingZeros a.repr) fractionalBits
  let sh := fractionalBits - shSelf
  let shRhs := min (trailingZeros 512 b.repr) sh
  let quotient ← Checked.div (wrap (a.repr <<< shSelf)).repr (b.repr >>> shRhs)
  .ok (wrap (quotient <<< (sh - shRhs)))

/-- Multiplication by one of the unsigned integer types. -/
def mulInt (a : Decimal) (value : Nat) : Outcome Decimal := ofRepr (a.repr * value)

def divInt (a : Decimal) (value : Nat) : Outcome Decimal := Checked.div a.repr value >>= ofRepr

def toU128Floor (d : Decimal) : Option Nat :=
  let truncated := d.repr >>> fractionalBits
  if bitLength truncated ≤ 128 then some truncated else none

def toU128Ceil (d : Decimal) : Option Nat :=
  let truncated := d.repr >>> fractionalBits
  if bitLength truncated ≤ 128 then
    if d.repr % 2 ^ 128 = 0 then some truncated
    else if truncated + 1 < 2 ^ 128 then some (truncated + 1) else none
  else none

def fractionalPartAsU128Dividend (d : Decimal) : Nat := d.repr % 2 ^ 128

/-- `2^exponent`; the largest accepted exponent shifts the one out of the integer. -/
def pow2Int (exponent : Nat) : Option Decimal :=
  if exponent > 512 - fractionalBits then none else some (wrap (one.repr <<< exponent))

def pow2FracLoop (numerator : Decimal) : Nat → Nat → Decimal → Decimal → Outcome Decimal
  | 0, _, sum, _ => .ok sum
  | remaining + 1, n, sum, term => do
    let factor ← numerator.divInt n
    let term ← term.mul factor
    if term = zero then .ok sum
    else
      let sum ← sum.add term
      pow2FracLoop numerator remaining (n + 1) sum term

def pow2Frac (d : Decimal) : Outcome Decimal := do
  let numerator ← d.mul ln2
  pow2FracLoop numerator 35 1 one one

def pow2 (d : Decimal) : Outcome (Option Decimal) :=
  match d.toU128Floor with
  | none => .ok none
  | some whole =>
    if whole < 2 ^ 32 then do
      let frac ← d.sub (ofUInt whole)
      match pow2Int whole with
      | none => .ok none
      | some power =>
        let fraction ← pow2Frac frac
        let result ← power.mul fraction
        .ok (some result)
    else .ok none

/-- The square-and-multiply loop of the power of ten, with the exponent as fuel. -/
def pow10Loop : Nat → Nat → Nat → Nat → Outcome Nat
  | 0, _, x, y => Checked.mul 512 x y
  | fuel + 1, exponent, x, y =>
    if 1 < exponent then do
      let y ← if exponent % 2 = 1 then Checked.mul 512 y x else .ok y
      let x ← Checked.mul 512 x x
      pow10Loop fuel (exponent / 2) x y
    else Checked.mul 512 x y

def u512Pow10 (exponent : Nat) : Outcome Nat := pow10Loop exponent exponent 10 1

def mulPow10 (d : Decimal) (exponent : Int) : Outcome (Option Decimal) :=
  if exponent = 0 ∨ d.isZero then .ok (some d)
  else if exponent.natAbs > wholeDecimalDigits + fractionalDecimalDigits then .ok none
  else do
    let operand ← u512Pow10 exponent.natAbs
    if 0 ≤ exponent then
      if h : d.repr * operand < u512Bound then .ok (some ⟨d.repr * operand, h⟩) else .ok none
    else
      let quotient ← Checked.div d.repr operand
      if quotient = 0 then .ok none else .ok (some (wrap quotient))

@[simp] theorem ofRepr_eq_ok : ofRepr n = .ok d ↔ d.repr = n := by
  unfold ofRepr
  split
  · rename_i h
    constructor
    · intro hd
      cases hd
      rfl
    · intro hd
      exact congrArg Except.ok (ext hd.symm)
  · rename_i h
    constructor
    · intro hd
      cases hd
    · intro hd
      exact absurd (hd ▸ d.isLt) h

theorem onlyOverflow_ofRepr (n : Nat) : OnlyOverflow (ofRepr n) := by
  unfold ofRepr
  split
  · exact within_ok _
  · exact within_error rfl

theorem wrap_repr (h : n < u512Bound) : (wrap n).repr = n := Nat.mod_eq_of_lt h

@[simp] theorem one_repr : one.repr = 2 ^ 128 := wrap_repr (by decide)

theorem ofUInt_repr (h : value < 2 ^ 256) : (ofUInt value).repr = value * 2 ^ 128 := by
  unfold ofUInt
  rw [wrap_repr]
  · exact Nat.shiftLeft_eq _ _
  · rw [Nat.shiftLeft_eq]
    calc value * 2 ^ fractionalBits < 2 ^ 256 * 2 ^ 128 :=
          Nat.mul_lt_mul_of_pos_right h (Nat.two_pow_pos 128)
      _ ≤ u512Bound := by decide

@[simp] theorem add_eq_ok : a.add b = .ok c ↔ c.repr = a.repr + b.repr := ofRepr_eq_ok

@[simp] theorem sub_eq_ok : a.sub b = .ok c ↔ b.repr ≤ a.repr ∧ c.repr = a.repr - b.repr := by
  simp only [sub, do_ok, ofRepr_eq_ok]
  constructor
  · rintro ⟨n, ⟨h, rfl⟩, hc⟩
    exact ⟨h, hc⟩
  · rintro ⟨h, hc⟩
    exact ⟨_, ⟨h, rfl⟩, hc⟩

@[simp] theorem mulInt_eq_ok : a.mulInt value = .ok c ↔ c.repr = a.repr * value := ofRepr_eq_ok

@[simp] theorem divInt_eq_ok : a.divInt value = .ok c ↔ value ≠ 0 ∧ c.repr = a.repr / value := by
  simp only [divInt, do_ok, Checked.div_eq_ok, ofRepr_eq_ok]
  constructor
  · rintro ⟨n, ⟨h, rfl⟩, hc⟩
    exact ⟨h, hc⟩
  · rintro ⟨h, hc⟩
    exact ⟨_, ⟨h, rfl⟩, hc⟩

theorem sub_of_le (h : b ≤ a) : ∃ c, a.sub b = .ok c ∧ c.repr = a.repr - b.repr :=
  ⟨⟨a.repr - b.repr, (Nat.sub_le _ _).trans_lt a.isLt⟩, sub_eq_ok.mpr ⟨h, rfl⟩, rfl⟩

theorem wrap_le (n : Nat) : (wrap n).repr ≤ n := Nat.mod_le _ _

theorem ofUInt_repr_le (value : Nat) : (ofUInt value).repr ≤ value * 2 ^ 128 :=
  (wrap_le (value <<< fractionalBits)).trans (Nat.shiftLeft_eq _ _).le

/-- The whole part, whenever it is small enough to be returned. -/
theorem toU128Floor_of_lt (h : d.repr < 2 ^ 128 * 2 ^ 128) :
    d.toU128Floor = some (d.repr / 2 ^ 128) := by
  have hlt : d.repr / 2 ^ 128 < 2 ^ 128 := Nat.div_lt_of_lt_mul h
  have hbits := bitLength_le_of_lt hlt
  rw [← Nat.shiftRight_eq_div_pow] at hbits ⊢
  exact if_pos hbits

/-- Moving trailing zeros out of the factors does not change the quotient. -/
theorem shifted_product (a b i j k : Nat) (ha : 2 ^ i ∣ a) (hb : 2 ^ j ∣ b) :
    ((a >>> i) * (b >>> j)) >>> k = a * b / 2 ^ (i + j + k) := by
  obtain ⟨x, rfl⟩ := ha
  obtain ⟨y, rfl⟩ := hb
  simp only [Nat.shiftRight_eq_div_pow]
  rw [Nat.mul_div_cancel_left _ (Nat.two_pow_pos i), Nat.mul_div_cancel_left _ (Nat.two_pow_pos j)]
  have hprod : 2 ^ i * x * (2 ^ j * y) = 2 ^ (i + j) * (x * y) := by rw [Nat.pow_add]; ring
  rw [hprod, Nat.pow_add 2 (i + j) k, Nat.mul_div_mul_left _ _ (Nat.two_pow_pos _)]

/-- A product that is returned is the exact product rounded down. -/
theorem mul_repr (h : a.mul b = .ok c) : c.repr = a.repr * b.repr / 2 ^ 128 := by
  simp only [mul, do_ok, Checked.mul_eq_ok, ofRepr_eq_ok] at h
  obtain ⟨product, ⟨-, rfl⟩, hc⟩ := h
  have hi : min (trailingZeros 512 a.repr) fractionalBits ≤ trailingZeros 512 a.repr :=
    Nat.min_le_left _ _
  have hj := Nat.min_le_left (trailingZeros 512 b.repr)
    (fractionalBits - min (trailingZeros 512 a.repr) fractionalBits)
  rw [shifted_product _ _ _ _ _
    ((Nat.pow_dvd_pow 2 hi).trans (two_pow_trailingZeros_dvd 512 a.repr))
    ((Nat.pow_dvd_pow 2 hj).trans (two_pow_trailingZeros_dvd 512 b.repr))] at hc
  rw [hc]
  congr 2
  have h₁ := Nat.min_le_right (trailingZeros 512 a.repr) fractionalBits
  have h₂ := Nat.min_le_right (trailingZeros 512 b.repr)
    (fractionalBits - min (trailingZeros 512 a.repr) fractionalBits)
  simp only [fractionalBits] at h₁ h₂ ⊢
  omega

theorem onlyOverflow_mul (a b : Decimal) : OnlyOverflow (a.mul b) :=
  (Checked.onlyOverflow_mul _ _ _).bind fun _ _ => onlyOverflow_ofRepr _

theorem onlyOverflow_add (a b : Decimal) : OnlyOverflow (a.add b) := onlyOverflow_ofRepr _

theorem onlyOverflow_mulInt (a : Decimal) (value : Nat) : OnlyOverflow (a.mulInt value) :=
  onlyOverflow_ofRepr _

theorem onlyOverflow_sub (h : b ≤ a) : OnlyOverflow (a.sub b) :=
  (within_sub h).bind fun _ _ => onlyOverflow_ofRepr _

theorem onlyOverflow_divInt (a : Decimal) (h : value ≠ 0) : OnlyOverflow (a.divInt value) :=
  (within_div h).bind fun _ _ => onlyOverflow_ofRepr _

theorem shiftRight_trailingZeros_ne_zero {b k : Nat} (hb : b ≠ 0) (hk : k ≤ trailingZeros 512 b) :
    b >>> k ≠ 0 := by
  obtain ⟨y, hy⟩ := (Nat.pow_dvd_pow 2 hk).trans (two_pow_trailingZeros_dvd 512 b)
  rw [Nat.shiftRight_eq_div_pow, hy, Nat.mul_div_cancel_left _ (Nat.two_pow_pos k)]
  rintro rfl
  exact hb hy

theorem onlyOverflow_div (a : Decimal) (h : b.repr ≠ 0) : OnlyOverflow (a.div b) :=
  (within_div (shiftRight_trailingZeros_ne_zero h (Nat.min_le_left _ _))).bind fun _ _ => within_ok _

/-- A division aborts at zero only. -/
theorem div_returns (h : b.repr ≠ 0) : ∃ c, a.div b = .ok c :=
  ⟨_, bind_eq_ok.mpr ⟨_, Checked.div_eq_ok.mpr
    ⟨shiftRight_trailingZeros_ne_zero h (Nat.min_le_left _ _), rfl⟩, rfl⟩⟩

theorem leadingZeros_of_lt (h : n < 2 ^ 384) : 128 ≤ leadingZeros n := by
  have hbits := bitLength_le_of_lt h
  unfold leadingZeros
  omega

/-- With a numerator of at most 384 bits no shift is lost: the quotient rounded down. -/
theorem div_of_lt (ha : a.repr < 2 ^ 384) (hb : b.repr ≠ 0) :
    ∃ c, a.div b = .ok c ∧ c.repr = a.repr * 2 ^ 128 / b.repr := by
  have hlz := leadingZeros_of_lt ha
  have hsh : min (leadingZeros a.repr) fractionalBits = 128 := by
    simp only [fractionalBits]
    omega
  have hshift : a.repr <<< 128 < u512Bound := by
    rw [Nat.shiftLeft_eq]
    calc a.repr * 2 ^ 128 < 2 ^ 384 * 2 ^ 128 :=
          Nat.mul_lt_mul_of_pos_right ha (Nat.two_pow_pos 128)
      _ = u512Bound := by rw [u512Bound_eq, ← Nat.pow_add]
  have hquot : a.repr <<< 128 / b.repr < u512Bound := (Nat.div_le_self _ _).trans_lt hshift
  refine ⟨wrap (a.repr <<< 128 / b.repr), ?_, ?_⟩
  · have hsub : fractionalBits - 128 = 0 := rfl
    simp only [div, hsh, hsub, Nat.min_zero, Nat.shiftRight_zero, Nat.sub_zero, Nat.shiftLeft_zero,
      wrap_repr hshift, Checked.div, hb, ↓reduceIte, ok_bind]
  · rw [wrap_repr hquot, Nat.shiftLeft_eq]

/-- A product that fits before it is rounded is returned: moving zeros out only makes it smaller. -/
theorem mul_of_lt (h : a.repr * b.repr < u512Bound) : ∃ c, a.mul b = .ok c := by
  have hle : ∀ i j, a.repr >>> i * b.repr >>> j ≤ a.repr * b.repr := by
    intro i j
    rw [Nat.shiftRight_eq_div_pow, Nat.shiftRight_eq_div_pow]
    exact Nat.mul_le_mul (Nat.div_le_self _ _) (Nat.div_le_self _ _)
  have hfit : ∀ i j k, (a.repr >>> i * b.repr >>> j) >>> k < u512Bound := by
    intro i j k
    rw [Nat.shiftRight_eq_div_pow _ k]
    exact ((Nat.div_le_self _ _).trans (hle i j)).trans_lt h
  refine ⟨_, bind_eq_ok.mpr ⟨_, Checked.mul_eq_ok.mpr ⟨?_, rfl⟩, dif_pos (hfit _ _ _)⟩⟩
  rw [← u512Bound_eq]
  exact (hle _ _).trans_lt h

/-- A rounded product grows with its factors. -/
theorem mul_mono {x y : Decimal} (hac : a ≤ c) (hbd : b ≤ d) (hx : a.mul b = .ok x)
    (hy : c.mul d = .ok y) : x ≤ y := by
  rw [le_def, mul_repr hx, mul_repr hy]
  exact Nat.div_le_div_right (Nat.mul_le_mul hac hbd)

theorem mul_of_le (h : a.repr * b.repr ≤ 2 ^ 128 * n) (hn : n < 2 ^ 384) :
    ∃ c, a.mul b = .ok c ∧ c.repr ≤ n := by
  have hlt : a.repr * b.repr < u512Bound := by
    rw [u512Bound_eq]
    omega
  obtain ⟨c, hc⟩ := mul_of_lt hlt
  refine ⟨c, hc, ?_⟩
  rw [mul_repr hc]
  exact Nat.div_le_of_le_mul h

/-- A factor of at most one scales down. -/
theorem mul_of_le_one (hb : b ≤ one) (ha : a.repr < 2 ^ 384) : ∃ c, a.mul b = .ok c ∧ c ≤ a := by
  refine mul_of_le ?_ ha
  rw [Nat.mul_comm (2 ^ 128), ← one_repr]
  exact Nat.mul_le_mul_left _ hb

/-- Products are rounded down or abort, and those that fit before they are rounded are returned. The
quotient of a dividend of at most 384 bits is rounded down. No quotient aborts, so that one that does
not fit is the only kind that should. -/
theorem mul_div_exact (a b : Decimal) :
    (∀ c, a.mul b = .ok c → c.repr = a.repr * b.repr / 2 ^ 128) ∧
      (a.repr * b.repr < u512Bound → ∃ c, a.mul b = .ok c) ∧
      (b.repr ≠ 0 → (a.repr < 2 ^ 384 → ∃ c, a.div b = .ok c ∧ c.repr = a.repr * 2 ^ 128 / b.repr) ∧
        ((u512Bound ≤ a.repr * 2 ^ 128 / b.repr → ∀ c, a.div b ≠ .ok c) ↔
          a.repr * 2 ^ 128 / b.repr < u512Bound)) := by
  refine ⟨fun c hc => mul_repr hc, mul_of_lt, ?_⟩
  intro hb
  refine ⟨fun ha => div_of_lt ha hb, ?_, ?_⟩
  · intro haborts
    by_contra hwide
    obtain ⟨c, hc⟩ := div_returns (a := a) hb
    exact haborts (Nat.le_of_not_lt hwide) c hc
  · intro hfits hwide
    exact absurd hfits (Nat.not_lt_of_le hwide)

/-- A quotient that does not fit is returned without its high bits. -/
theorem div_drops_high_bits :
    ∃ c, maxValue.div ⟨1, by decide⟩ = .ok c ∧ u512Bound ≤ maxValue.repr * 2 ^ 128 / 1 :=
  ⟨wrap (maxValue.repr <<< 128), by decide +kernel⟩

end Decimal

end Templar
