import Templar.Oracle.LazerState

/-!
# Prices cut to the mantissa of a price

A wide price is divided by ten until it fits an `i64`. One conversion first jumps close to the
number of digits it has to drop, with a product that must fit a machine word; neither drops a digit
that would have fitted.
-/

namespace Templar.Oracle

open Checked Soroban Lazer

/-- The loop of repeated squaring. A product that leaves `U256` aborts. -/
def exp10Loop : Nat → Nat → Nat → Nat → Option Nat
  | 0, _, _, _ => none
  | rounds + 1, exponent, y, x =>
    if 1 < exponent then do
      let y ← if exponent % 2 = 1 then checkedMul 256 y x else some y
      let x ← checkedMul 256 x x
      exp10Loop rounds (exponent / 2) y x
    else checkedMul 256 x y

/-- The exponent is a `u32`, so that it is halved less than 32 times. -/
def u256Exp10 (exponent : Nat) : Option Nat :=
  if exponent = 0 then some 1 else exp10Loop 32 exponent 1 10

/-- The mantissa and the exponent, where a `usize` has the given width: 32 bits in the deployed
contract, whose overflows abort. The loop at the end is that of `downscale`; a `U256` has at most 78
digits. -/
def approximateU256 (width input : Nat) : Option (Int × Int) :=
  match checkedSub (bitLength input) 64 with
  | none => some (downscale 78 input 0)
  | some b => do
    -- the fraction is close to the logarithm of two
    let scaled ← checkedMul width b 103873643
    let e := scaled / 345060773
    let modulus ← u256Exp10 e
    some (downscale 78 ((input / modulus : Nat) : Int) e)

/-- The least number of digits that is dropped for the rest to fit. -/
def Drops (v k : Nat) : Prop := v / 10 ^ k < 2 ^ 63 ∧ ∀ j < k, 2 ^ 63 ≤ v / 10 ^ j

theorem div_pow_add (v i j : Nat) : v / 10 ^ (i + j) = v / 10 ^ i / 10 ^ j := by
  rw [Nat.pow_add, Nat.div_div_eq_div_mul]

/-- Digits without which the rest is still too wide can be dropped first. -/
theorem Drops.after {v i k : Nat} (hi : ∀ j < i, 2 ^ 63 ≤ v / 10 ^ j) (h : Drops (v / 10 ^ i) k) :
    Drops v (i + k) := by
  refine ⟨by rw [div_pow_add]; exact h.1, ?_⟩
  intro j hj
  by_cases hlt : j < i
  · exact hi j hlt
  · have := h.2 (j - i) (by omega)
    rwa [← div_pow_add, Nat.add_sub_cancel' (by omega)] at this

theorem downscale_eq (rounds : Nat) {v : Nat} (expo : Int) (h : v < 2 ^ 63 * 10 ^ rounds) :
    ∃ k : Nat, downscale rounds v expo = (((v / 10 ^ k : Nat) : Int), expo + k) ∧ Drops v k := by
  induction rounds generalizing v expo with
  | zero => exact ⟨0, by simp [downscale], by simpa using h, by simp⟩
  | succ rounds ih =>
    unfold downscale
    split
    · next hfits =>
      have hfits := of_decide_eq_true hfits
      exact ⟨0, by simp, by rw [Nat.pow_zero, Nat.div_one]; omega, by simp⟩
    · next hwide =>
      have hwide : ¬(-2 ^ 63 ≤ (v : Int) ∧ (v : Int) < 2 ^ 63) := by simpa [fitsI64] using hwide
      obtain ⟨k, hk, hdrops⟩ := ih (v := v / 10 ^ 1) (expo + 1) (by omega)
      refine ⟨1 + k, ?_, Drops.after ?_ hdrops⟩
      · rw [div_pow_add]
        push_cast at hk ⊢
        rw [add_assoc] at hk
        exact hk
      · intro j hj
        rw [Nat.lt_one_iff.mp hj, Nat.pow_zero, Nat.div_one]
        omega

/-- The jump stays below the number of digits to drop. -/
theorem jump_le {x b : Nat} (hx : x < 2 ^ 256) (hb : bitLength x = b + 64) :
    b ≤ 192 ∧ 2 ^ (b + 63) ≤ x := by
  unfold bitLength at hb
  split at hb
  · omega
  · have hlog : Nat.log2 x = b + 63 := by omega
    have := (Nat.log2_lt (by assumption)).mpr hx
    exact ⟨by omega, hlog ▸ Nat.log2_self_le (by assumption)⟩

theorem exp10_of_jump : ∀ b < 193, u256Exp10 (b * 103873643 / 345060773) =
    some (10 ^ (b * 103873643 / 345060773)) ∧ 10 ^ (b * 103873643 / 345060773) ≤ 2 ^ b := by
  decide +kernel

/-- The jump is made whenever its product fits the machine word. -/
theorem approximateU256_eq {width x : Nat} (hx : x < 2 ^ 256)
    (hwidth : (bitLength x - 64) * 103873643 < 2 ^ width) : ∃ e : Nat,
      approximateU256 width x = some (((x / 10 ^ e : Nat) : Int), (e : Int)) ∧ Drops x e := by
  unfold approximateU256
  split
  · obtain ⟨e, he, hdrops⟩ := downscale_eq 78 0 (hx.trans (by decide +kernel))
    exact ⟨e, by rw [he, zero_add], hdrops⟩
  · next b hb =>
    obtain ⟨hle, rfl⟩ := checkedSub_eq_some.mp hb
    obtain ⟨hb, hlow⟩ := jump_le hx (Nat.sub_add_cancel hle).symm
    obtain ⟨hexp, hpow⟩ := exp10_of_jump _ (Nat.lt_succ_of_le hb)
    dsimp only
    rw [checkedMul_eq_some.mpr ⟨hwidth, rfl⟩, Option.bind_eq_bind, Option.bind_some]
    generalize bitLength x - 64 = b at *
    generalize b * 103873643 / 345060773 = i at *
    have hfirst : ∀ j < i, 2 ^ 63 ≤ x / 10 ^ j := by
      intro j hj
      rw [Nat.le_div_iff_mul_le (Nat.pow_pos (by omega))]
      calc 2 ^ 63 * 10 ^ j ≤ 2 ^ 63 * 2 ^ b :=
            Nat.mul_le_mul_left _ ((Nat.pow_le_pow_right (by omega) hj.le).trans hpow)
        _ = 2 ^ (b + 63) := by rw [← Nat.pow_add, Nat.add_comm]
        _ ≤ x := hlow
    obtain ⟨k, hk, hdrops⟩ := downscale_eq 78 (v := x / 10 ^ i) i
      ((Nat.div_le_self _ _).trans_lt (hx.trans (by decide +kernel)))
    refine ⟨i + k, ?_, hdrops.after hfirst⟩
    rw [hexp, div_pow_add, Nat.cast_add]
    exact congrArg some hk

/-- On 32 bits the product of the jump fits for 105 bits of price and no more. -/
theorem approximateU256_of_wide {x : Nat} (h : 2 ^ 105 ≤ x) : approximateU256 32 x = none := by
  have hlog : 105 ≤ Nat.log2 x := (Nat.le_log2 (by omega)).mpr h
  have hbits : 106 ≤ bitLength x := by
    unfold bitLength
    split
    · omega
    · omega
  have hb : checkedSub (bitLength x) 64 = some (bitLength x - 64) :=
    checkedSub_eq_some.mpr ⟨by omega, rfl⟩
  have hproduct : checkedMul 32 (bitLength x - 64) 103873643 = none := if_neg (by omega)
  simp only [approximateU256, hb, hproduct]
  rfl

/-- What is lost is less than the last digit kept, which is small against the price. -/
theorem Drops.lost_lt {v k : Nat} (h : Drops v k) (hv : 0 < v) :
    (v - v / 10 ^ k * 10 ^ k) * (9 * 10 ^ 17) < v := by
  have hmod : v - v / 10 ^ k * 10 ^ k < 10 ^ k := by
    rw [Nat.mul_comm, ← Nat.mod_eq_sub]
    exact Nat.mod_lt _ (Nat.pow_pos (by omega))
  cases k with
  | zero => simpa using hv
  | succ k =>
    have hwide := h.2 k (by omega)
    rw [Nat.le_div_iff_mul_le (Nat.pow_pos (by omega))] at hwide
    rw [Nat.pow_succ] at *
    omega

theorem normalizedToSep40_eq {price : NormalizedPrice} {decimals k n r : Nat}
    (hm : price.mantissa = n) (hexpo : price.expo = -decimals + k) (hd : decimals ≤ 18)
    (hk : k ≤ 20) (hr : r = n * 10 ^ k) (hfits : r < 2 ^ 127) :
    normalizedToSep40 price decimals = .ok ⟨r, price.timestamp⟩ := by
  have hscale : (decimals : Int) + price.expo = k := by omega
  have hpower : checkedPow10 (k : Int).natAbs = some (10 ^ k) := if_pos (by omega)
  have hvalue : price.mantissa * 10 ^ k = r := by
    rw [hm, hr]
    push_cast
    rfl
  unfold normalizedToSep40
  dsimp only
  rw [hscale, hpower, ensure_of (by omega), ensure_of (by simp only [fitsI32, decide_eq_true_eq]; omega),
    okOr]
  dsimp only [bind, Except.bind]
  rw [if_pos (by omega), hvalue, ensure_of (by simp only [fitsI128, decide_eq_true_eq]; omega)]

theorem Drops.le_twenty {v k : Nat} (h : Drops v k) (hv : v < 2 ^ 127) : k ≤ 20 := by
  by_contra hlt
  have := h.2 20 (by omega)
  omega

theorem Drops.eq_of_lt {v k : Nat} (h : Drops v k) (hv : v < 2 ^ 63) : v / 10 ^ k * 10 ^ k = v := by
  cases k with
  | zero => simp
  | succ k =>
    have := h.2 0 (by omega)
    omega

theorem sourcePriceToKernel_eq {source : PriceData} {v decimals : Nat} (hsource : source.price = v)
    (hv : v < 2 ^ 127) (hd : decimals ≤ 18) : ∃ k : Nat, sourcePriceToKernel source decimals =
      .ok ⟨((v / 10 ^ k : Nat) : Int), 0, -decimals + k, fromSecs source.timestamp⟩ ∧ Drops v k := by
  have hwide : 2 ^ 127 < 2 ^ 63 * 10 ^ 39 := by decide +kernel
  obtain ⟨k, hk, hdrops⟩ := downscale_eq 39 (-decimals) (hv.trans hwide)
  refine ⟨k, ?_, hdrops⟩
  unfold sourcePriceToKernel
  rw [ensure_of hd, hsource, hk]
  rfl

/-- A conversion drops no digit that would have fitted, and on the way back nothing but the dropped
digits is missing. On a machine of 32 bits the first conversion aborts from `2 ^ 105` on. -/
theorem rescaling_tight (x : Nat) (hx : x < 2 ^ 256) (source : PriceData) (v decimals : Nat)
    (hsource : source.price = v) (hpos : 0 < v) (hv : v < 2 ^ 127) (hd : decimals ≤ 18) :
    ((∃ e : Nat, approximateU256 32 x = some (((x / 10 ^ e : Nat) : Int), (e : Int)) ∧ Drops x e) ↔
      x < 2 ^ 105) ∧
    (∃ e : Nat, approximateU256 64 x = some (((x / 10 ^ e : Nat) : Int), (e : Int)) ∧ Drops x e) ∧
    ∃ (k : Nat) (price : Price) (back : PriceData), sourcePriceToKernel source decimals = .ok price ∧
      price.price = ((v / 10 ^ k : Nat) : Int) ∧ price.expo = -decimals + k ∧ Drops v k ∧
      normalizedToSep40 (kernelPriceToNormalized price) decimals = .ok back ∧ back.price ≤ v ∧
      (v - back.price) * (9 * 10 ^ 17) < v ∧ (v < 2 ^ 63 → back.price = v) := by
  refine ⟨?_, ?_, ?_⟩
  · constructor
    · rintro ⟨e, he, -⟩
      by_contra hwide
      rw [approximateU256_of_wide (Nat.le_of_not_lt hwide)] at he
      cases he
    · intro hlt
      have hbits := bitLength_le_of_lt hlt
      exact approximateU256_eq hx (by omega)
  · have hbits := bitLength_le_of_lt hx
    exact approximateU256_eq hx (by omega)
  obtain ⟨k, hkernel, hdrops⟩ := sourcePriceToKernel_eq hsource hv hd
  have hback := Nat.div_mul_le_self v (10 ^ k)
  have hlost := hdrops.lost_lt hpos
  have hexact := @Drops.eq_of_lt v k hdrops
  refine ⟨k, _, _, hkernel, rfl, rfl, hdrops,
    normalizedToSep40_eq rfl rfl hd (hdrops.le_twenty hv) rfl (hback.trans_lt hv), ?_⟩
  generalize v / 10 ^ k * 10 ^ k = r at *
  dsimp only
  omega

theorem rescaling_tight_wide :
    (∃ e : Nat, approximateU256 32 (2 ^ 104) = some (((2 ^ 104 / 10 ^ e : Nat) : Int), (e : Int))) ∧
      ∃ (price : Price) (back : PriceData),
        sourcePriceToKernel ⟨12345678901234567899, 0⟩ 8 = .ok price ∧
        normalizedToSep40 (kernelPriceToNormalized price) 8 = .ok back ∧
        back.price ≤ 12345678901234567899 :=
  have ⟨hword, _, _, price, back, h, _, _, _, hback, hle, _⟩ :=
    rescaling_tight (2 ^ 104) (by decide) ⟨12345678901234567899, 0⟩ 12345678901234567899 8 rfl
      (by decide) (by decide) (by decide)
  have ⟨e, he, _⟩ := hword.mpr (by decide)
  ⟨⟨e, he⟩, price, back, h, hback, hle⟩

/-- The largest price is converted on 64 bits, and aborts on the 32 bits of the contract. -/
theorem largest_price_aborts : approximateU256 32 (2 ^ 256 - 1) = none ∧
    approximateU256 64 (2 ^ 256 - 1) = some (1157920892373161954, 59) := by
  decide +kernel

end Templar.Oracle
