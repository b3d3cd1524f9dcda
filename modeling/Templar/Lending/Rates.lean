import Templar.Decimal

/-!
# Interest-rate curves

The three usage curves of the market configuration. The kinked and the
exponential curve store a coefficient computed by their constructor; the
structures keep that computation as a field, so a curve with another coefficient
cannot be written down. The linear curve is read from a configuration as it is.
-/

namespace Templar.Lending

open Checked

/-- A straight line between two rates. -/
structure Linear where
  base : Decimal
  top : Decimal
  deriving DecidableEq

def Linear.new (base top : Decimal) : Option Linear := if base ≤ top then some ⟨base, top⟩ else none

def Linear.at (c : Linear) (usageRatio : Decimal) : Outcome Decimal := do
  let slope ← c.top.sub c.base
  let rise ← usageRatio.mul slope
  rise.add c.base

structure PiecewiseParams where
  base : Decimal
  optimal : Decimal
  rate1 : Decimal
  rate2 : Decimal
  deriving DecidableEq

def PiecewiseParams.intercept (p : PiecewiseParams) : Outcome Decimal := do
  let difference ← p.rate2.sub p.rate1
  let kink ← p.optimal.mul difference
  kink.sub p.base

/-- Two lines that meet at the optimal usage. -/
structure Piecewise where
  params : PiecewiseParams
  iNegativeRate2B : Decimal
  optimal_le : params.optimal ≤ Decimal.one
  rate_le : params.rate1 ≤ params.rate2
  intercept_eq : params.intercept = .ok iNegativeRate2B

def Piecewise.new (base optimal rate1 rate2 : Decimal) : Outcome (Option Piecewise) :=
  let params : PiecewiseParams := ⟨base, optimal, rate1, rate2⟩
  if ho : optimal ≤ Decimal.one then
    if hr : rate1 ≤ rate2 then
      match hi : params.intercept with
      | .ok i => .ok (some ⟨params, i, ho, hr, hi⟩)
      | .error e => .error e
    else .ok none
  else .ok none

def usageRatioText : String := "Invariant violation: Usage ratio cannot be over 100%."

/-- Usage beyond one aborts. -/
def Piecewise.at (c : Piecewise) (usageRatio : Decimal) : Outcome Decimal := do
  require (usageRatio ≤ Decimal.one) usageRatioText
  if usageRatio < c.params.optimal then
    let rise ← c.params.rate1.mul usageRatio
    rise.add c.params.base
  else
    let rise ← c.params.rate2.mul usageRatio
    rise.sub c.iNegativeRate2B

structure Exponential2Params where
  base : Decimal
  top : Decimal
  eccentricity : Decimal
  deriving DecidableEq

def Exponential2Params.factor (p : Exponential2Params) : Outcome Decimal := do
  let range ← p.top.sub p.base
  let power ← p.eccentricity.pow2
  let power ← unwrap power
  let denominator ← power.sub Decimal.one
  range.div denominator

/-- A power of two, scaled to run from base to top. -/
structure Exponential2 where
  params : Exponential2Params
  iFactor : Decimal
  base_le : params.base ≤ params.top
  eccentricity_le : params.eccentricity ≤ Decimal.ofUInt 24
  eccentricity_pos : params.eccentricity ≠ Decimal.zero
  factor_eq : params.factor = .ok iFactor

def Exponential2.new (base top eccentricity : Decimal) : Outcome (Option Exponential2) :=
  let params : Exponential2Params := ⟨base, top, eccentricity⟩
  if hb : base ≤ top then
    if he : eccentricity ≤ Decimal.ofUInt 24 then
      if hz : eccentricity ≠ Decimal.zero then
        match hf : params.factor with
        | .ok f => .ok (some ⟨params, f, hb, he, hz, hf⟩)
        | .error e => .error e
      else .ok none
    else .ok none
  else .ok none

def Exponential2.at (c : Exponential2) (usageRatio : Decimal) : Outcome Decimal := do
  require (usageRatio ≤ Decimal.one) usageRatioText
  let exponent ← c.params.eccentricity.mul usageRatio
  let power ← exponent.pow2
  let power ← unwrap power
  let growth ← power.sub Decimal.one
  let rise ← c.iFactor.mul growth
  c.params.base.add rise

inductive InterestRateStrategy where
  | linear (curve : Linear)
  | piecewise (curve : Piecewise)
  | exponential2 (curve : Exponential2)

def InterestRateStrategy.zero : InterestRateStrategy := .linear ⟨Decimal.zero, Decimal.zero⟩

def InterestRateStrategy.at (s : InterestRateStrategy) (usageRatio : Decimal) : Outcome Decimal :=
  match s with
  | .linear curve => curve.at usageRatio
  | .piecewise curve => curve.at usageRatio
  | .exponential2 curve => curve.at usageRatio

open Decimal

theorem Linear.onlyOverflow_at {c : Linear} (h : c.base ≤ c.top) (u : Decimal) :
    OnlyOverflow (c.at u) :=
  (onlyOverflow_sub h).bind fun _ _ => (Decimal.onlyOverflow_mul _ _).bind fun _ _ => onlyOverflow_add _ _

variable {u v r r' d e : Decimal} {s : InterestRateStrategy}

/-- Up to the kink one slope and past it the other: the floors of the parts are at most the floor
of the whole. -/
theorem floor_kink {o r₁ r₂ u v : Nat} (hr : r₁ ≤ r₂) (hu : u ≤ o) (hv : o ≤ v) :
    o * (r₂ - r₁) / 2 ^ 128 + r₁ * u / 2 ^ 128 ≤ r₂ * v / 2 ^ 128 := by
  have hparts : o * (r₂ - r₁) + r₁ * u ≤ r₂ * v :=
    calc o * (r₂ - r₁) + r₁ * u ≤ o * (r₂ - r₁) + o * r₁ := by
          rw [Nat.mul_comm r₁]
          exact Nat.add_le_add_left (Nat.mul_le_mul_right _ hu) _
      _ = r₂ * o := by rw [← Nat.mul_add, Nat.sub_add_cancel hr, Nat.mul_comm]
      _ ≤ r₂ * v := Nat.mul_le_mul_left _ hv
  exact Nat.div_add_div_le_add_div.trans (Nat.div_le_div_right hparts)

/-- The stored intercept and the base make up what the two slopes differ by at the kink. -/
theorem Piecewise.intercept_add_base (c : Piecewise) : c.iNegativeRate2B.repr + c.params.base.repr =
    c.params.optimal.repr * (c.params.rate2.repr - c.params.rate1.repr) / 2 ^ 128 := by
  have hi := c.intercept_eq
  simp only [PiecewiseParams.intercept, do_ok, Decimal.sub_eq_ok] at hi
  obtain ⟨difference, ⟨-, hd⟩, kink, hk, hb, hi⟩ := hi
  rw [hi, Nat.sub_add_cancel hb, mul_repr hk, hd]

/-- Past the kink the steeper line is at least what the stored intercept takes off. -/
theorem Piecewise.intercept_le {c : Piecewise} {rise : Decimal} (hu : c.params.optimal ≤ u)
    (h : c.params.rate2.mul u = .ok rise) : c.iNegativeRate2B ≤ rise := by
  have hi := c.intercept_add_base
  have hfloor := floor_kink c.rate_le (Nat.zero_le _) hu
  rw [le_def, mul_repr h]
  omega

theorem Piecewise.onlyOverflow_at (c : Piecewise) (hu : u ≤ one) : OnlyOverflow (c.at u) := by
  refine (within_require hu).bind fun _ _ => Within.ite (fun _ => ?_) (fun hn => ?_)
  · exact (Decimal.onlyOverflow_mul _ _).bind fun _ _ => onlyOverflow_add _ _
  · refine (Decimal.onlyOverflow_mul _ _).bind fun rise hrise => ?_
    have hle : c.params.optimal ≤ u := Nat.le_of_not_lt hn
    exact onlyOverflow_sub (Piecewise.intercept_le hle hrise)

theorem Piecewise.at_eq_ok {c : Piecewise} : c.at u = .ok r ↔ u ≤ one ∧
    if u < c.params.optimal then ∃ x, c.params.rate1.mul u = .ok x ∧ r.repr = x.repr + c.params.base.repr
    else ∃ x, c.params.rate2.mul u = .ok x ∧ c.iNegativeRate2B.repr ≤ x.repr ∧
      r.repr = x.repr - c.iNegativeRate2B.repr := by
  simp only [Piecewise.at, do_ok]
  split
  · simp only [do_ok, Decimal.add_eq_ok]
  · simp only [do_ok, Decimal.sub_eq_ok]

theorem pow2FracStep {x t : Decimal} {n : Nat} (hn : n ≠ 0) (hx : x ≤ one) (ht : t ≤ one) :
    ∃ q t' : Decimal, x.divInt n = .ok q ∧ q.repr = x.repr / n ∧ t.mul q = .ok t' ∧ t' ≤ one := by
  have hq : x.repr / n ≤ 2 ^ 128 := (Nat.div_le_self _ _).trans hx
  let q : Decimal := ⟨x.repr / n, hq.trans_lt (by decide)⟩
  obtain ⟨t', ht', hle⟩ := mul_of_le (a := t) (b := q) (Nat.mul_le_mul ht hq) (by decide)
  exact ⟨q, t', divInt_eq_ok.mpr ⟨hn, rfl⟩, rfl, ht', hle⟩

/-- The series is defined for numerators up to one, as no term is above one, and term by term a
larger numerator gives a larger sum; a series that has ended adds nothing. -/
theorem pow2FracLoop_mono {x x' a b t t' : Decimal} {remaining n : Nat} (hn : n ≠ 0)
    (hx : x ≤ x') (hx' : x' ≤ one) (hs : a ≤ b) (ht : t ≤ t') (ht' : t' ≤ one)
    (hroom : b.repr + remaining * 2 ^ 128 < u512Bound) :
    ∃ r r', pow2FracLoop x remaining n a t = .ok r ∧
      pow2FracLoop x' remaining n b t' = .ok r' ∧ a ≤ r ∧ r ≤ r' := by
  induction remaining generalizing n x a b t t' with
  | zero => exact ⟨a, b, rfl, rfl, Nat.le_refl _, hs⟩
  | succ remaining ih =>
    obtain ⟨q, w, hq, hqr, hw, hone⟩ := pow2FracStep hn (Nat.le_trans hx hx') (Nat.le_trans ht ht')
    obtain ⟨q', w', hq', hqr', hw', hone'⟩ := pow2FracStep hn hx' ht'
    have hqq : q ≤ q' := by
      rw [le_def, hqr, hqr']
      exact Nat.div_le_div_right hx
    have hww : w.repr ≤ w'.repr := mul_mono ht hqq hw hw'
    have hle : w'.repr ≤ 2 ^ 128 := hone'
    have hss : a.repr ≤ b.repr := hs
    have hfit' : b.repr + w'.repr < u512Bound := by omega
    have hfit : a.repr + w.repr < u512Bound := by omega
    have hrest : b.repr + w'.repr + remaining * 2 ^ 128 < u512Bound := by omega
    simp only [pow2FracLoop, hq, hq', hw, hw', ok_bind]
    by_cases hz' : w' = zero
    · rw [hz'] at hww
      have hz : w = zero := ext (Nat.le_zero.mp hww)
      rw [if_pos hz, if_pos hz']
      exact ⟨a, b, rfl, rfl, Nat.le_refl _, hs⟩
    rw [if_neg hz', (Decimal.add_eq_ok (c := ⟨_, hfit'⟩)).mpr rfl, ok_bind]
    by_cases hz : w = zero
    · obtain ⟨r', _, hr', -, hle, -⟩ := ih (a := ⟨_, hfit'⟩) (Nat.succ_ne_zero n) (Nat.le_refl _)
        (Nat.le_refl _) (Nat.le_refl _) hone' hrest
      rw [if_pos hz]
      exact ⟨a, r', rfl, hr', Nat.le_refl _, hss.trans ((Nat.le_add_right _ _).trans hle)⟩
    · rw [if_neg hz, (Decimal.add_eq_ok (c := ⟨_, hfit⟩)).mpr rfl, ok_bind]
      obtain ⟨r, r', hr, hr', hle, hrr⟩ := ih (a := ⟨_, hfit⟩) (b := ⟨_, hfit'⟩)
        (Nat.succ_ne_zero n) hx (Nat.add_le_add hss hww) hww hone' hrest
      exact ⟨r, r', hr, hr', (Nat.le_add_right _ _).trans hle, hrr⟩

theorem pow2Frac_mono {f f' : Decimal} (hf : f ≤ f') (hf' : f' ≤ one) :
    ∃ r r', f.pow2Frac = .ok r ∧ f'.pow2Frac = .ok r' ∧ one ≤ r ∧ r ≤ r' := by
  have hln2 : ln2 ≤ one := by decide
  obtain ⟨x, hx, -⟩ := mul_of_le (Nat.mul_le_mul (Nat.le_trans hf hf') hln2) (by decide)
  obtain ⟨x', hx', hone⟩ := mul_of_le (Nat.mul_le_mul hf' hln2) (by decide)
  simp only [pow2Frac, hx, hx', ok_bind]
  exact pow2FracLoop_mono (by decide) (mul_mono hf (Nat.le_refl _) hx hx') hone (Nat.le_refl _)
    (Nat.le_refl _) (Nat.le_refl _) (by decide)

/-- A fraction is raised to something between one and two, where the next whole power takes over. -/
theorem pow2Frac_ok {f : Decimal} (hf : f.repr < 2 ^ 128) :
    ∃ r, f.pow2Frac = .ok r ∧ one ≤ r ∧ r.repr ≤ 2 * 2 ^ 128 := by
  have hlast : pow2Frac (wrap (2 ^ 128 - 1)) = .ok (wrap (2 * 2 ^ 128 - 18)) := by decide +kernel
  have hle : f ≤ wrap (2 ^ 128 - 1) := by
    rw [le_def, wrap_repr (by decide)]
    omega
  obtain ⟨r, r', hr, hr', hone, hrr⟩ := pow2Frac_mono hle (by decide)
  cases hr'.symm.trans hlast
  exact ⟨r, hr, hone, Nat.le_trans hrr (by decide)⟩

/-- Exponents up to twenty-four stay inside the table of powers. Both factors are exact: the whole
part shifts the fraction. -/
theorem pow2_ok (h : d.repr ≤ 24 * 2 ^ 128) : ∃ power fraction f : Decimal,
    d.pow2 = .ok (some power) ∧ f.repr = d.repr % 2 ^ 128 ∧ f.pow2Frac = .ok fraction ∧
      power.repr = 2 ^ (d.repr / 2 ^ 128) * fraction.repr := by
  have hfloor : d.toU128Floor = some (d.repr / 2 ^ 128) :=
    toU128Floor_of_lt (lt_of_le_of_lt h (by decide))
  have hw : d.repr / 2 ^ 128 ≤ 24 := by omega
  have hw32 : d.repr / 2 ^ 128 < 2 ^ 32 := by omega
  have hp : ¬d.repr / 2 ^ 128 > 512 - fractionalBits := by simp only [fractionalBits]; omega
  have hwhole : (ofUInt (d.repr / 2 ^ 128)).repr = d.repr / 2 ^ 128 * 2 ^ 128 :=
    ofUInt_repr (lt_of_le_of_lt hw (by decide))
  have hlt : d.repr % 2 ^ 128 < 2 ^ 128 := Nat.mod_lt _ (Nat.two_pow_pos 128)
  let f : Decimal := ⟨d.repr % 2 ^ 128, hlt.trans (by decide)⟩
  have hf : d.sub (ofUInt (d.repr / 2 ^ 128)) = .ok f := by
    rw [Decimal.sub_eq_ok, hwhole]
    exact ⟨Nat.div_mul_le_self _ _, Nat.mod_eq_sub_div_mul⟩
  obtain ⟨fraction, hfraction, -, htwo⟩ := pow2Frac_ok (f := f) hlt
  have hpowle : 2 ^ 128 * 2 ^ (d.repr / 2 ^ 128) ≤ 2 ^ 128 * 2 ^ 24 :=
    Nat.mul_le_mul_left _ (Nat.pow_le_pow_right (by decide) hw)
  have hpow : (wrap (one.repr <<< (d.repr / 2 ^ 128))).repr = 2 ^ 128 * 2 ^ (d.repr / 2 ^ 128) := by
    rw [Nat.shiftLeft_eq, one_repr, wrap_repr (hpowle.trans_lt (by decide))]
  have hle : (wrap (one.repr <<< (d.repr / 2 ^ 128))).repr * fraction.repr ≤
      2 ^ 128 * 2 ^ 24 * (2 * 2 ^ 128) := by
    rw [hpow]
    exact Nat.mul_le_mul hpowle htwo
  obtain ⟨power, hpower⟩ := mul_of_lt (hle.trans_lt (by decide))
  refine ⟨power, fraction, f, ?_, rfl, hfraction, ?_⟩
  · simp only [pow2, hfloor, hw32, ↓reduceIte, hf, ok_bind, pow2Int, hp, hfraction, hpower]
  · rw [mul_repr hpower, hpow, Nat.mul_assoc, Nat.mul_div_cancel_left _ (Nat.two_pow_pos 128)]

theorem pow2_mono (hde : d ≤ e) (he : e.repr ≤ 24 * 2 ^ 128) :
    ∃ p p', d.pow2 = .ok (some p) ∧ e.pow2 = .ok (some p') ∧ one ≤ p ∧ p ≤ p' := by
  obtain ⟨p, x, f, hp, hf, hx, hpr⟩ := pow2_ok (Nat.le_trans hde he)
  obtain ⟨p', y, g, hp', hg, hy, hpr'⟩ := pow2_ok he
  obtain ⟨_, hx', hxone, htwo⟩ := pow2Frac_ok (f := f) (by omega)
  cases hx.symm.trans hx'
  have hde : d.repr ≤ e.repr := hde
  refine ⟨p, p', hp, hp', ?_, ?_⟩
  · rw [le_def, hpr]
    exact Nat.le_trans hxone (Nat.le_mul_of_pos_left _ (Nat.two_pow_pos _))
  rw [le_def, hpr, hpr']
  rcases Nat.lt_or_eq_of_le (Nat.div_le_div_right (c := 2 ^ 128) hde) with hlt | heq
  · -- a whole power further: twice the first is a lower bound of the second
    obtain ⟨_, hy', hyone, -⟩ := pow2Frac_ok (f := g) (by omega)
    cases hy.symm.trans hy'
    calc 2 ^ (d.repr / 2 ^ 128) * x.repr ≤ 2 ^ (d.repr / 2 ^ 128) * (2 * 2 ^ 128) :=
          Nat.mul_le_mul_left _ htwo
      _ = 2 ^ (d.repr / 2 ^ 128 + 1) * 2 ^ 128 := by
          rw [Nat.pow_succ 2 (d.repr / 2 ^ 128), Nat.mul_assoc]
      _ ≤ 2 ^ (e.repr / 2 ^ 128) * y.repr :=
          Nat.mul_le_mul (Nat.pow_le_pow_right (by decide) hlt) hyone
  · have hfg : f ≤ g := by
      rw [le_def]
      omega
    have hgone : g.repr ≤ 2 ^ 128 := by omega
    obtain ⟨_, _, hx', hy', -, hxy⟩ := pow2Frac_mono hfg hgone
    cases hx.symm.trans hx'
    cases hy.symm.trans hy'
    rw [heq]
    exact Nat.mul_le_mul_left _ hxy

theorem Exponential2.exponent_le {c : Exponential2} (hu : u ≤ one)
    (h : c.params.eccentricity.mul u = .ok e) : e.repr ≤ 24 * 2 ^ 128 := by
  have he : c.params.eccentricity.repr ≤ 24 * 2 ^ 128 :=
    Nat.le_trans c.eccentricity_le (ofUInt_repr_le 24)
  rw [mul_repr h]
  refine Nat.div_le_of_le_mul ?_
  rw [Nat.mul_comm]
  exact Nat.mul_le_mul hu he

theorem Exponential2.onlyOverflow_at (c : Exponential2) (hu : u ≤ one) : OnlyOverflow (c.at u) := by
  refine (within_require hu).bind fun _ _ => ?_
  refine (Decimal.onlyOverflow_mul _ _).bind fun exponent hexp => ?_
  obtain ⟨p, _, hp, -, hone, -⟩ := pow2_mono (Nat.le_refl _) (Exponential2.exponent_le hu hexp)
  rw [hp]
  refine (within_ok _).bind fun o ho => ?_
  cases ho
  refine (within_unwrap rfl).bind fun power hpower => ?_
  cases hpower
  refine (onlyOverflow_sub hone).bind fun _ _ => ?_
  exact (Decimal.onlyOverflow_mul _ _).bind fun _ _ => onlyOverflow_add _ _

theorem Exponential2.at_eq_ok {c : Exponential2} : c.at u = .ok r ↔
    ∃ e p g x : Decimal, u ≤ one ∧ c.params.eccentricity.mul u = .ok e ∧ e.pow2 = .ok (some p) ∧
      one ≤ p ∧ g.repr = p.repr - one.repr ∧ c.iFactor.mul g = .ok x ∧
      r.repr = c.params.base.repr + x.repr := by
  simp only [Exponential2.at, do_ok, unwrap_eq_ok, Decimal.sub_eq_ok, Decimal.add_eq_ok]
  constructor
  · rintro ⟨hu, e, he, o, ho, p, rfl, g, ⟨hle, hg⟩, x, hx, hr⟩
    exact ⟨e, p, g, x, hu, he, ho, hle, hg, hx, hr⟩
  · rintro ⟨e, p, g, x, hu, he, ho, hle, hg, hx, hr⟩
    exact ⟨hu, e, he, _, ho, p, rfl, g, ⟨hle, hg⟩, x, hx, hr⟩

/-- A strategy whose rate at full usage is defined. -/
def InterestRateStrategy.Sound : InterestRateStrategy → Prop
  | .linear curve => curve.base ≤ curve.top
  | _ => True

theorem InterestRateStrategy.sound_of_at (h : s.at u = .ok r) : s.Sound := by
  cases s with
  | linear curve =>
    obtain ⟨slope, hs, -⟩ := bind_eq_ok.mp h
    exact (Decimal.sub_eq_ok.mp hs).1
  | piecewise curve => trivial
  | exponential2 curve => trivial

theorem InterestRateStrategy.onlyOverflow_at (hs : s.Sound) (hu : u ≤ one) :
    OnlyOverflow (s.at u) := by
  cases s with
  | linear curve => exact Linear.onlyOverflow_at hs u
  | piecewise curve | exponential2 curve => exact curve.onlyOverflow_at hu

theorem InterestRateStrategy.at_mono (huv : u ≤ v) (hu : s.at u = .ok r) (hv : s.at v = .ok r') :
    r ≤ r' := by
  rw [le_def]
  cases s with
  | linear c =>
    simp only [InterestRateStrategy.at, Linear.at, do_ok, Decimal.add_eq_ok] at hu hv
    obtain ⟨slope, hs, x, hx, hr⟩ := hu
    obtain ⟨_, hs', y, hy, hr'⟩ := hv
    cases hs.symm.trans hs'
    have hxy : x.repr ≤ y.repr := mul_mono huv (Nat.le_refl _) hx hy
    omega
  | piecewise c =>
    obtain ⟨-, hu⟩ := Piecewise.at_eq_ok.mp hu
    obtain ⟨-, hv⟩ := Piecewise.at_eq_ok.mp hv
    by_cases hhigh : v < c.params.optimal
    · have hlow : u < c.params.optimal := Nat.lt_of_le_of_lt huv hhigh
      rw [if_pos hlow] at hu
      rw [if_pos hhigh] at hv
      obtain ⟨x, hx, hr⟩ := hu
      obtain ⟨y, hy, hr'⟩ := hv
      have hxy : x.repr ≤ y.repr := mul_mono (Nat.le_refl _) huv hx hy
      omega
    rw [if_neg hhigh] at hv
    obtain ⟨y, hy, -, hr'⟩ := hv
    by_cases hlow : u < c.params.optimal
    · rw [if_pos hlow] at hu
      obtain ⟨x, hx, hr⟩ := hu
      have hi := c.intercept_add_base
      have hfloor := floor_kink c.rate_le (Nat.le_of_lt hlow) (Nat.le_of_not_lt hhigh)
      rw [← mul_repr hx, ← mul_repr hy] at hfloor
      omega
    · rw [if_neg hlow] at hu
      obtain ⟨x, hx, -, hr⟩ := hu
      have hxy : x.repr ≤ y.repr := mul_mono (Nat.le_refl _) huv hx hy
      omega
  | exponential2 c =>
    obtain ⟨e, p, g, x, -, he, hp, -, hg, hx, hr⟩ := Exponential2.at_eq_ok.mp hu
    obtain ⟨e', p', g', y, hone, he', hp', -, hg', hy, hr'⟩ := Exponential2.at_eq_ok.mp hv
    obtain ⟨_, _, hq, hq', -, hpp⟩ := pow2_mono (mul_mono (Nat.le_refl _) huv he he')
      (Exponential2.exponent_le hone he')
    cases hq.symm.trans hp
    cases hq'.symm.trans hp'
    have hgg : g ≤ g' := by
      rw [le_def, hg, hg']
      exact Nat.sub_le_sub_right hpp _
    have hxy : x.repr ≤ y.repr := mul_mono (Nat.le_refl _) hgg hx hy
    omega

/-- A curve that its constructor accepts. -/
def InterestRateStrategy.Accepted : InterestRateStrategy → Prop
  | .linear c => Linear.new c.base c.top = some c
  | .piecewise c =>
    Piecewise.new c.params.base c.params.optimal c.params.rate1 c.params.rate2 = .ok (some c)
  | .exponential2 c =>
    Exponential2.new c.params.base c.params.top c.params.eccentricity = .ok (some c)

theorem InterestRateStrategy.Accepted.sound (h : s.Accepted) : s.Sound := by
  cases s with
  | linear c => exact of_not_not fun hn => Option.some_ne_none c (h.symm.trans (if_neg hn))
  | piecewise c | exponential2 c => trivial

def InterestRateStrategy.base : InterestRateStrategy → Decimal
  | .linear curve => curve.base
  | .piecewise curve => curve.params.base
  | .exponential2 curve => curve.params.base

theorem mul_eq_zero {a b : Decimal} (h : a.repr * b.repr = 0) : a.mul b = .ok zero := by
  obtain ⟨c, hc, hle⟩ := mul_of_le (a := a) (b := b) (n := 0) h.le (by decide)
  have hz : c = zero := ext (Nat.le_zero.mp hle)
  rw [hc, hz]

theorem InterestRateStrategy.at_zero (hs : s.Sound)
    (hkink : ∀ curve, s = .piecewise curve → curve.params.optimal ≠ Decimal.zero) :
    s.at Decimal.zero = .ok s.base := by
  have hone : Decimal.zero ≤ one := Nat.zero_le _
  cases s with
  | linear c =>
    obtain ⟨slope, hslope, -⟩ := sub_of_le hs
    refine bind_eq_ok.mpr ⟨slope, hslope, ?_⟩
    rw [mul_eq_zero (Nat.zero_mul _), ok_bind, Decimal.add_eq_ok]
    exact (Nat.zero_add _).symm
  | piecewise c =>
    have hlow : Decimal.zero < c.params.optimal := Nat.pos_of_ne_zero fun h => hkink c rfl (ext h)
    refine Piecewise.at_eq_ok.mpr ⟨hone, ?_⟩
    rw [if_pos hlow]
    exact ⟨_, mul_eq_zero (Nat.mul_zero _), (Nat.zero_add _).symm⟩
  | exponential2 c =>
    have hpow : Decimal.zero.pow2 = .ok (some one) := by decide +kernel
    exact Exponential2.at_eq_ok.mpr ⟨_, _, Decimal.zero, _, hone, mul_eq_zero (Nat.mul_zero _), hpow,
      Nat.le_refl _, (Nat.sub_self _).symm, mul_eq_zero (Nat.mul_zero _), rfl⟩

variable {top : Decimal}

/-- Before the top the slope past the kink is bounded by the rate at the top. -/
theorem le_of_kink {o r₁ r₂ : Nat} (ho : o < 2 ^ 128) :
    r₂ ≤ 2 ^ 128 * (r₂ - o * (r₂ - r₁) / 2 ^ 128) := by
  have hfloor : 2 ^ 128 * (o * (r₂ - r₁) / 2 ^ 128) ≤ o * r₂ :=
    (Nat.mul_div_le _ _).trans (Nat.mul_le_mul_left _ (Nat.sub_le _ _))
  have hroom : (o + 1) * r₂ ≤ 2 ^ 128 * r₂ := Nat.mul_le_mul_right _ ho
  rw [Nat.add_mul, Nat.one_mul] at hroom
  rw [Nat.mul_sub]
  omega

theorem Piecewise.at_of_top {c : Piecewise} (htop : c.at one = .ok top) (hlt : top.repr < 2 ^ 200)
    (hu : u ≤ one) : ∃ r, c.at u = .ok r := by
  by_cases hone : u = one
  · exact ⟨top, hone ▸ htop⟩
  have hu' : u.repr < 2 ^ 128 := Nat.lt_of_le_of_ne hu fun h => hone (ext h)
  have hi := c.intercept_add_base
  have hrates : c.params.rate1.repr ≤ c.params.rate2.repr := c.rate_le
  have hkink : c.params.optimal.repr * (c.params.rate2.repr - c.params.rate1.repr) / 2 ^ 128 ≤
      c.params.rate2.repr - c.params.rate1.repr :=
    Nat.div_le_of_le_mul (Nat.mul_le_mul_right _ c.optimal_le)
  obtain ⟨-, htop⟩ := Piecewise.at_eq_ok.mp htop
  have hhigh : ¬one < c.params.optimal := Nat.not_lt.mpr c.optimal_le
  rw [if_neg hhigh] at htop
  obtain ⟨x, hx, hxi, htop⟩ := htop
  have hx := mul_repr hx
  rw [one_repr, Nat.mul_div_cancel _ (Nat.two_pow_pos 128)] at hx
  by_cases hlow : u < c.params.optimal
  · obtain ⟨y, hy, hle⟩ := mul_of_le_one (a := c.params.rate1) hu (by omega)
    have hle : y.repr ≤ c.params.rate1.repr := hle
    have hfit : y.repr + c.params.base.repr < u512Bound := by unfold u512Bound; omega
    refine ⟨⟨_, hfit⟩, Piecewise.at_eq_ok.mpr ⟨hu, ?_⟩⟩
    rw [if_pos hlow]
    exact ⟨y, hy, rfl⟩
  · have hslope := @le_of_kink _ c.params.rate1.repr c.params.rate2.repr
      ((Nat.le_of_not_lt hlow).trans_lt hu')
    obtain ⟨y, hy, -⟩ := mul_of_le_one (a := c.params.rate2) hu (by omega)
    have hle := Piecewise.intercept_le (Nat.le_of_not_lt hlow) hy
    obtain ⟨r, -, hr⟩ := sub_of_le hle
    refine ⟨r, Piecewise.at_eq_ok.mpr ⟨hu, ?_⟩⟩
    rw [if_neg hlow]
    exact ⟨y, hy, hle, hr⟩

theorem Exponential2.at_of_top {c : Exponential2} (htop : c.at one = .ok top)
    (hlt : top.repr < 2 ^ 200) (hu : u ≤ one) : ∃ r, c.at u = .ok r := by
  obtain ⟨e, p, g, x, hone, he, hp, -, hg, hx, htop⟩ := Exponential2.at_eq_ok.mp htop
  have hbound : c.params.eccentricity.repr ≤ 24 * 2 ^ 128 :=
    Nat.le_trans c.eccentricity_le (ofUInt_repr_le 24)
  obtain ⟨e', he', -⟩ := mul_of_le_one (a := c.params.eccentricity) hu (by omega)
  obtain ⟨p', _, hp', hq, hpone, hpp⟩ := pow2_mono (mul_mono (Nat.le_refl _) hu he' he)
    (Exponential2.exponent_le hone he)
  cases hq.symm.trans hp
  obtain ⟨g', -, hg'⟩ := sub_of_le hpone
  have hgg : g' ≤ g := by
    rw [le_def, hg, hg']
    exact Nat.sub_le_sub_right hpp _
  have hxr := mul_repr hx
  have hproduct : c.iFactor.repr * g'.repr ≤ c.iFactor.repr * g.repr := Nat.mul_le_mul_left _ hgg
  obtain ⟨y, hy, -⟩ := mul_of_le (a := c.iFactor) (b := g') (n := x.repr + 1) (by omega) (by omega)
  have hyx : y.repr ≤ x.repr := mul_mono (Nat.le_refl _) hgg hy hx
  have hfit : c.params.base.repr + y.repr < u512Bound := by unfold u512Bound; omega
  exact ⟨⟨_, hfit⟩, Exponential2.at_eq_ok.mpr ⟨e', p', g', y, hu, he', hp', hpone, hg', hy, rfl⟩⟩

theorem InterestRateStrategy.at_of_top (htop : s.at one = .ok top) (hlt : top.repr < 2 ^ 200)
    (hu : u ≤ one) : ∃ r, s.at u = .ok r := by
  cases s with
  | linear c =>
    simp only [InterestRateStrategy.at, Linear.at, do_ok, Decimal.add_eq_ok] at htop ⊢
    obtain ⟨slope, hslope, x, hx, htop⟩ := htop
    have hx := mul_repr hx
    rw [one_repr, Nat.mul_div_cancel_left _ (Nat.two_pow_pos 128)] at hx
    obtain ⟨y, hy, hle⟩ := mul_of_le (Nat.mul_le_mul_right slope.repr hu) (by omega)
    have hfit : y.repr + c.base.repr < u512Bound := by unfold u512Bound; omega
    exact ⟨⟨_, hfit⟩, slope, hslope, y, hy, rfl⟩
  | piecewise c => exact c.at_of_top htop hlt hu
  | exponential2 c => exact c.at_of_top htop hlt hu

end Templar.Lending
