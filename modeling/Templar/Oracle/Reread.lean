import Templar.Oracle.BreakerRuns

/-!
# A price that is read again

A candidate is judged on the accepted history with the candidate at its end, also where the history
ends with it already. The rules about the last price and the last step do not mind. A windowed rule
sees other windows, and may trip on a price that it let pass a moment ago; when it does is said in
exact sums.
-/

namespace Templar.Oracle

open Checked Std RingBuffer

section

variable {p : Price} {threshold : Decimal} {breaker : CircuitBreaker} {h h₀ : RingBuffer Observation}
  {interval interval₀ t₁ t₂ : Nat}

/-- A price has not changed against itself. The product with the threshold stays within its width. -/
theorem relativeAbsChangeExceeds_self (hp : p.price.natAbs < 2 ^ 63)
    (ht : CircuitBreaker.validThreshold threshold = true) :
    relativeAbsChangeExceeds p p threshold = false := by
  have hone : threshold.repr ≤ 2 ^ 128 := (of_decide_eq_true ht).2
  have hwide : 2 ^ 63 * 2 ^ 128 < 2 ^ 512 := by decide +kernel
  have hprod := (Nat.mul_le_mul hp.le hone).trans_lt hwide
  have hscaled : checkedScaledMagnitude p.price.natAbs 0 = some p.price.natAbs := by
    rw [checkedScaledMagnitude, checkedPowerOfTen, Option.bind_some, checkedMul_eq_some, Nat.mul_one]
    exact ⟨hp.trans (by decide +kernel), rfl⟩
  simp [relativeAbsChangeExceeds, compareRelativeAbsChange, scaledDifference, checkedExponentGap,
    compareScaledChange, checkedShiftLeft, bitLength, hscaled, checkedMul_eq_some.mpr ⟨hprod, rfl⟩]

theorem classifyStepChange_self : classifyStepChange p p threshold = .minor := by
  simp [classifyStepChange, compareScaled_eq]

/-- The sum of prices in units of a power of ten that is not above theirs. -/
def priceSum (prices : List Price) (exponent : Int) : Nat :=
  (prices.map fun p => p.price.toNat * 10 ^ (p.expo - exponent).toNat).sum

theorem checkedPowerOfTen_eq_some {exponent factor : Nat} :
    checkedPowerOfTen exponent = some factor ↔ 10 ^ exponent < 2 ^ 512 ∧ factor = 10 ^ exponent := by
  induction exponent generalizing factor with
  | zero => simp [checkedPowerOfTen, eq_comm]
  | succ exponent ih =>
    rw [Nat.pow_succ 10 exponent]
    simp only [checkedPowerOfTen, Option.bind_eq_some_iff, checkedMul_eq_some, ih]
    constructor
    · rintro ⟨_, ⟨-, rfl⟩, h⟩
      exact h
    · rintro ⟨hlt, rfl⟩
      exact ⟨_, ⟨(Nat.le_mul_of_pos_right _ (by decide)).trans_lt hlt, rfl⟩, hlt, rfl⟩

theorem lt_of_ten_pow_lt {n : Nat} (h : 10 ^ n < 2 ^ 512) : n < 512 :=
  (Nat.pow_lt_pow_iff_right (by decide)).mp
    ((Nat.pow_le_pow_left (by decide : 2 ≤ 10) n).trans_lt h)

/-- A sum is formed exactly if every price is positive and the exact sum fits. -/
theorem checkedPriceSum_eq_some {prices : List Price} {e : Int} {sum : Nat} :
    checkedPriceSum prices e = some sum ↔
      (∀ p ∈ prices, 0 < p.price ∧ e ≤ p.expo) ∧ priceSum prices e < 2 ^ 512 ∧ sum = priceSum prices e := by
  suffices hfold : ∀ n < 2 ^ 512, prices.foldlM (fun sum price => do
      if price.price ≤ 0 then none
      else
        let exponent ← checkedExponentGap price.expo e
        let scaled ← checkedScaledMagnitude price.price.toNat exponent
        checkedAdd 512 sum scaled) n = some sum ↔ (∀ p ∈ prices, 0 < p.price ∧ e ≤ p.expo) ∧
          n + priceSum prices e < 2 ^ 512 ∧ sum = n + priceSum prices e by
    have hzero := hfold 0 (Nat.two_pow_pos 512)
    rwa [Nat.zero_add] at hzero
  induction prices with
  | nil => simp +contextual [priceSum, eq_comm]
  | cons p prices ih =>
    intro n hn
    have hcons : priceSum (p :: prices) e =
        p.price.toNat * 10 ^ (p.expo - e).toNat + priceSum prices e := rfl
    simp only [List.foldlM_cons, Option.bind_eq_bind, Option.bind_eq_some_iff, List.forall_mem_cons,
      hcons, checkedExponentGap, checkedScaledMagnitude]
    constructor
    · rintro ⟨m, hm, h⟩
      split at hm
      · cases hm
      simp only [Option.bind_eq_some_iff, Option.ite_none_right_eq_some, Option.some.injEq,
        checkedMul_eq_some, checkedAdd_eq_some, checkedPowerOfTen_eq_some] at hm
      obtain ⟨_, ⟨hgap, rfl⟩, _, ⟨_, ⟨-, rfl⟩, -, rfl⟩, hlt, rfl⟩ := hm
      obtain ⟨hall, hsum, rfl⟩ := (ih _ hlt).mp h
      exact ⟨⟨⟨by omega, by omega⟩, hall⟩, by omega, by omega⟩
    · rintro ⟨⟨⟨hpos, hexpo⟩, hall⟩, hsum, rfl⟩
      -- the factor fits because the price it multiplies is at least one
      have hone : 1 ≤ p.price.toNat := by omega
      have hfactor : 10 ^ (p.expo - e).toNat < 2 ^ 512 := by
        have hle := Nat.mul_le_mul_right (10 ^ (p.expo - e).toNat) hone
        omega
      have hgap := lt_of_ten_pow_lt hfactor
      refine ⟨n + p.price.toNat * 10 ^ (p.expo - e).toNat, ?_, (ih _ (by omega)).mpr
        ⟨hall, by omega, by omega⟩⟩
      rw [if_neg (by omega)]
      simp only [Option.bind_eq_some_iff, Option.ite_none_right_eq_some, Option.some.injEq,
        checkedMul_eq_some, checkedAdd_eq_some, checkedPowerOfTen_eq_some]
      exact ⟨_, ⟨by omega, rfl⟩, _, ⟨_, ⟨hfactor, rfl⟩, by omega, rfl⟩, by omega, rfl⟩

/-- Two windows of positive prices whose sums differ by no more than the threshold allows, in the
width of the comparison. -/
def Calm (previous current : List Price) (threshold : Decimal) : Prop :=
  let exponent := ((previous ++ current).map (·.expo)).min?.getD 0
  let before := priceSum previous exponent
  let after := priceSum current exponent
  (∀ p ∈ previous ++ current, 0 < p.price) ∧ after < 2 ^ 512 ∧ before * threshold.repr < 2 ^ 512 ∧
    (before - after + (after - before)) * 2 ^ 128 ≤ before * threshold.repr

theorem compareScaledChange_of_shift {difference baseline left : Nat}
    (hshift : checkedShiftLeft difference 128 = some left) :
    (compareScaledChange difference baseline threshold false).getD true = false ↔
      baseline * threshold.repr < 2 ^ 512 ∧ left ≤ baseline * threshold.repr := by
  rw [compareScaledChange, hshift]
  cases hright : checkedMul 512 baseline threshold.repr with
  | none =>
    constructor
    · intro h
      cases h
    · intro h
      rw [checkedMul_eq_some.mpr ⟨h.1, rfl⟩] at hright
      cases hright
  | some right =>
    obtain ⟨hlt, rfl⟩ := checkedMul_eq_some.mp hright
    change decide (baseline * threshold.repr < left) = false ↔ _
    rw [decide_eq_false_iff_not, Nat.not_lt, and_iff_right hlt]

/-- A difference too wide to be shifted exceeds every threshold whose product still fits. -/
theorem compareScaledChange_getD {difference baseline : Nat} :
    (compareScaledChange difference baseline threshold false).getD true = false ↔
      baseline * threshold.repr < 2 ^ 512 ∧ difference * 2 ^ 128 ≤ baseline * threshold.repr := by
  by_cases hwide : 512 < bitLength difference + 128
  · have hnone : checkedShiftLeft difference 128 = none := if_pos hwide
    rw [compareScaledChange, hnone]
    constructor
    · intro h
      cases h
    · rintro ⟨hbase, hle⟩
      have hpow : 2 ^ 384 * 2 ^ 128 = 2 ^ 512 := by rw [← Nat.pow_add]
      have hlt : difference * 2 ^ 128 < 2 ^ 384 * 2 ^ 128 := by
        rw [hpow]
        exact hle.trans_lt hbase
      have hbits := bitLength_le_of_lt (Nat.lt_of_mul_lt_mul_right hlt)
      exact absurd (Nat.add_le_add_right hbits 128) (Nat.not_le.mpr hwide)
  · have hshift : checkedShiftLeft difference 128 = some (difference * 2 ^ 128) := by
      rw [checkedShiftLeft, if_neg hwide, Nat.shiftLeft_eq]
    exact compareScaledChange_of_shift hshift

theorem distance_eq (a b : Nat) : (if b ≤ a then a - b else b - a) = a - b + (b - a) := by
  split <;> omega

theorem priceSum_pos {prices : List Price} {e : Int} (hne : prices ≠ [])
    (hpos : ∀ p ∈ prices, 0 < p.price) : 0 < priceSum prices e := by
  cases prices with
  | nil => exact absurd rfl hne
  | cons p prices =>
    have hp := hpos p List.mem_cons_self
    have hfirst : 0 < p.price.toNat * 10 ^ (p.expo - e).toNat :=
      Nat.mul_pos (by omega) (Nat.pow_pos (by decide))
    exact Nat.add_pos_left hfirst _

theorem relativeSumChangeExceeds_eq_false {previous current : List Price} (hne : previous ≠ [])
    (ht : CircuitBreaker.validThreshold threshold = true) :
    relativeSumChangeExceeds previous current threshold = false ↔ Calm previous current threshold := by
  have hzero : threshold.repr ≠ 0 := by
    intro hzero
    exact (of_decide_eq_true ht).1 (Decimal.ext hzero)
  obtain ⟨e, he⟩ : ∃ e, ((previous ++ current).map (·.expo)).min? = some e := by
    rw [← Option.isSome_iff_exists, List.isSome_min?_iff]
    simp [hne]
  have hmin : ∀ p ∈ previous ++ current, e ≤ p.expo := by
    intro p hp
    exact (List.min?_eq_some_iff.mp he).2 _ (List.mem_map_of_mem hp)
  simp only [relativeSumChangeExceeds, Calm, he, Option.getD_some]
  have hsum {prices : List Price} (hsub : prices ⊆ previous ++ current)
      (hpos : ∀ p ∈ previous ++ current, 0 < p.price) (hlt : priceSum prices e < 2 ^ 512) :
      checkedPriceSum prices e = some (priceSum prices e) :=
    checkedPriceSum_eq_some.mpr ⟨fun p hp => ⟨hpos p (hsub hp), hmin p (hsub hp)⟩, hlt, rfl⟩
  constructor
  · intro h
    cases hprevious : checkedPriceSum previous e with
    | none => simp [hprevious] at h
    | some before =>
      cases hcurrent : checkedPriceSum current e with
      | none => simp [hprevious, hcurrent] at h
      | some after =>
        obtain ⟨hpos, hlt, rfl⟩ := checkedPriceSum_eq_some.mp hprevious
        obtain ⟨hpos', hlt', rfl⟩ := checkedPriceSum_eq_some.mp hcurrent
        have hall : ∀ p ∈ previous ++ current, 0 < p.price := by
          intro p hp
          rcases List.mem_append.mp hp with hp | hp
          · exact (hpos p hp).1
          · exact (hpos' p hp).1
        have hpositive := (priceSum_pos hne fun p hp => (hpos p hp).1 : 0 < priceSum previous e)
        rw [hprevious, hcurrent] at h
        dsimp only at h
        rw [if_neg hpositive.ne', compareScaledChange_getD, distance_eq] at h
        exact ⟨hall, hlt', h⟩
  · rintro ⟨hpos, hafter, hbefore, hcalm⟩
    have hlt : priceSum previous e < 2 ^ 512 :=
      (Nat.le_mul_of_pos_right _ (Nat.pos_of_ne_zero hzero)).trans_lt hbefore
    have hpositive : 0 < priceSum previous e :=
      priceSum_pos hne fun p hp => hpos p (List.mem_append_left _ hp)
    rw [hsum (List.subset_append_left _ _) hpos hlt, hsum (List.subset_append_right _ _) hpos hafter]
    dsimp only
    rw [if_neg hpositive.ne', compareScaledChange_getD, distance_eq]
    exact ⟨hbefore, hcalm⟩

theorem windowPrices_push {x : Observation} {start windowLen : Nat} :
    windowPrices (h.push x) start windowLen =
      (((h.entries.map (·.price) ++ [x.price]).drop (h.entries.length + 1 - h.capacity + start)).take
        windowLen) := by
  rw [windowPrices, entries_push, List.drop_drop, List.map_take, List.map_drop, List.map_append]
  rfl

/-- A windowed rule looks at the prices on record with the newest one twice. -/
def WindowedChangeDelta.Keeps (rule : WindowedChangeDelta) (prices : List Price) : Prop :=
  let windows := (rule.lookbackWindows + 1) * rule.windowLen
  prices.length < windows ∨
    Calm ((prices.drop (prices.length - windows)).take rule.windowLen)
      (prices.drop (prices.length - rule.windowLen)) rule.maxRelativeMeanChange

theorem WindowedChangeDelta.shouldTrip_push {rule : WindowedChangeDelta}
    (hvalid : (CircuitBreaker.windowedChangeDelta rule).isValidFor interval h.capacity = true) :
    rule.shouldTrip (h.push ⟨p, t₂⟩) = false ↔ rule.Keeps (h.entries.map (·.price) ++ [p]) := by
  simp only [CircuitBreaker.isValidFor, Bool.and_eq_true, decide_eq_true_eq] at hvalid
  obtain ⟨⟨⟨hlen, hback⟩, hfits⟩, hthreshold⟩ := hvalid
  have hcapacity : (rule.lookbackWindows + 1) * rule.windowLen ≤ h.capacity := by
    obtain ⟨n, hn, hle⟩ := (Option.any_eq_true _ _).mp hfits
    obtain ⟨_, hb, hn⟩ := Option.bind_eq_some_iff.mp hn
    obtain ⟨-, rfl⟩ := checkedAdd_eq_some.mp hb
    obtain ⟨-, rfl⟩ := checkedMul_eq_some.mp hn
    rw [Nat.mul_comm]
    exact of_decide_eq_true hle
  have hfit := h.fits
  have hlength : (h.push ⟨p, t₂⟩).length =
      h.entries.length + 1 - (h.entries.length + 1 - h.capacity) := by
    rw [RingBuffer.length, entries_push, List.length_drop, List.length_append]
    rfl
  have hwindows : (rule.lookbackWindows + 1) * rule.windowLen =
      rule.lookbackWindows * rule.windowLen + rule.windowLen := Nat.succ_mul _ _
  unfold WindowedChangeDelta.shouldTrip Keeps
  rw [if_neg (by omega)]
  simp only [windowPrices_push, hlength, checkedSub]
  have hn : (h.entries.map (·.price) ++ [p]).length = h.entries.length + 1 := by simp
  generalize h.entries.map (·.price) ++ [p] = prices at hn ⊢
  rw [hn, hwindows]
  generalize rule.lookbackWindows * rule.windowLen = back at hwindows ⊢
  by_cases hshort : h.entries.length + 1 < back + rule.windowLen
  · simp only [hshort, true_or, iff_true]
    split
    · rfl
    · rename_i start hstart
      split
      · rfl
      · rename_i first hfirst
        split at hstart
        · cases hstart
          split at hfirst
          · omega
          · cases hfirst
        · cases hstart
  · have hcurrent : rule.windowLen ≤ h.entries.length + 1 - (h.entries.length + 1 - h.capacity) := by
      omega
    have hprevious : back ≤ h.entries.length + 1 - (h.entries.length + 1 - h.capacity) -
        rule.windowLen := by omega
    rw [if_pos hcurrent]
    dsimp only
    rw [if_pos hprevious]
    dsimp only
    have hfirst : h.entries.length + 1 - h.capacity + (h.entries.length + 1 -
        (h.entries.length + 1 - h.capacity) - rule.windowLen - back) =
        h.entries.length + 1 - (back + rule.windowLen) := by omega
    have hsecond : h.entries.length + 1 - h.capacity + (h.entries.length + 1 -
        (h.entries.length + 1 - h.capacity) - rule.windowLen) =
        h.entries.length + 1 - rule.windowLen := by omega
    rw [hfirst, hsecond, relativeSumChangeExceeds_eq_false ?_ hthreshold]
    · have hall : (prices.drop (h.entries.length + 1 - rule.windowLen)).take rule.windowLen =
          prices.drop (h.entries.length + 1 - rule.windowLen) :=
        List.take_of_length_le (by rw [List.length_drop]; omega)
      rw [hall]
      exact (or_iff_right hshort).symm
    · intro hnil
      have hlength := congrArg List.length hnil
      simp only [List.length_take, List.length_drop, List.length_nil] at hlength
      omega

/-- What a rule asks of a price that is read again, with the prices on record: nothing where it looks
at the last step, and of a rule about the distance from a baseline only if it was not armed before. -/
def CircuitBreaker.Keeps (breaker : CircuitBreaker) (armedBefore : Bool) (p : Price)
    (prices : List Price) : Prop :=
  match breaker with
  | stepwiseChange _ | monotonicRun _ => True
  | windowedChangeDelta rule => rule.Keeps (prices ++ [p])
  | cumulativeChange rule => armedBefore = true ∨
      relativeAbsChangeExceeds rule.baseline p rule.maxRelativeChange = false

theorem CircuitBreaker.shouldTrip_reread {armed : Bool} (hp : p.price.natAbs < 2 ^ 63)
    (hvalid : breaker.isValidFor interval h.capacity = true) (hlast : h.last = some ⟨p, t₁⟩)
    (hvalid₀ : breaker.isValidFor interval₀ h₀.capacity = true)
    (hpassed : armed = true → breaker.shouldTrip (h₀.push ⟨p, t₁⟩) = false) :
    breaker.shouldTrip (h.push ⟨p, t₂⟩) = false ↔
      breaker.Keeps armed p (h.entries.map (·.price)) := by
  cases breaker with
  | stepwiseChange rule =>
    simp only [isValidFor, Bool.and_eq_true, decide_eq_true_eq] at hvalid
    obtain ⟨l, hl⟩ := entries_push_last ⟨p, t₂⟩ hvalid.1 hlast
    simp [Keeps, shouldTrip, StepwiseChange.shouldTrip, RingBuffer.length, RingBuffer.get, hl,
      relativeAbsChangeExceeds_self hp hvalid.2]
  | monotonicRun rule =>
    simp only [isValidFor, Bool.and_eq_true, decide_eq_true_eq] at hvalid
    obtain ⟨l, hl⟩ := entries_push_last ⟨p, t₂⟩ (by omega) hlast
    simp [Keeps, shouldTrip, MonotonicRun.shouldTrip, MonotonicRun.scan, hl, classifyStepChange_self]
  | windowedChangeDelta rule => exact WindowedChangeDelta.shouldTrip_push hvalid
  | cumulativeChange rule =>
    simp only [isValidFor, Bool.and_eq_true, decide_eq_true_eq] at hvalid hvalid₀
    simp only [shouldTrip, CumulativeChange.shouldTrip, last_push hvalid.1.1,
      last_push hvalid₀.1.1, Option.any_some] at hpassed ⊢
    exact ⟨.inr, fun hkeeps => hkeeps.elim hpassed id⟩

instance {previous current : List Price} : Decidable (Calm previous current threshold) := by
  delta Calm
  infer_instance

instance {rule : WindowedChangeDelta} {prices : List Price} : Decidable (rule.Keeps prices) := by
  delta WindowedChangeDelta.Keeps
  infer_instance

instance {armed : Bool} {prices : List Price} : Decidable (breaker.Keeps armed p prices) := by
  delta CircuitBreaker.Keeps
  split <;> infer_instance

end

namespace CircuitBreakerSet

open CircuitBreakerState

variable {s : CircuitBreakerSet CircuitBreaker} {p : Price} {t : Nat}

/-- What the caller of a candidate is told. -/
def answer (s : CircuitBreakerSet CircuitBreaker) (p : Price) (t : Nat) :
    Except CircuitBreakerError PriceAcceptance :=
  (s.tryAcceptPrice p t).map (·.1.value)

theorem answer_eq_ok {a : PriceAcceptance} : s.answer p t = .ok a ↔ ∃ outcome,
      s.tryAcceptPrice p t = .ok (outcome, s.next (.tryAcceptPrice p t)) ∧ outcome.value = a := by
  simp only [answer, next, apply]
  rcases s.tryAcceptPrice p t with e | ⟨outcome, s'⟩ <;> simp [Except.map]

/-- A price with a confidence interval is answered. -/
theorem exists_answer (h : p.hasStrictlyPositiveConfidenceInterval = true) :
    ∃ a, s.answer p t = .ok a := by
  rw [answer, tryAcceptPrice, ensure_of h]
  dsimp only [bind, Except.bind]
  split_ifs <;> exact ⟨_, rfl⟩

/-- The breakers stay as they are exactly if a candidate trips none. -/
theorem breakers_judged : (s.judged p t).breakers = s.breakers ↔
      ∀ (id : Nat) (b : CircuitBreakerState CircuitBreaker), s.breakers[id]? = some b →
        b.trips (s.proposal p t) t = false := by
  constructor
  · intro h id b hb
    have hsame := getElem?_judged s p t id
    rw [h, hb, Option.map_some, Option.some.injEq] at hsame
    cases htrips : b.trips (s.proposal p t) t with
    | false => rfl
    | true =>
      -- a breaker that trips is armed, and is not armed afterwards
      rw [applyArmedTransition, if_pos htrips] at hsame
      rw [hsame] at htrips
      simp [trips, trip, isArmedAt] at htrips
  · intro h
    apply ExtTreeMap.ext_getElem?
    intro id
    rw [getElem?_judged]
    cases hb : s.breakers[id]? with
    | none => rfl
    | some b => simp [applyArmedTransition, h id b hb]

/-- A price was accepted and recorded, and is read again. Nothing changes exactly if no breaker that
is armed then objects: an armed windowed rule, to the prices on record with the newest one twice,
or a rule about the distance from a baseline that was not armed the first time. -/
theorem reread_changes_nothing (config : CircuitBreakerSetConfig) (ops : List BreakerOperation)
    (p : Price) (t₁ t₂ : Nat) (hp : p.price < 2 ^ 63) :
    let s := (new config).run ops
    let s' := s.next (.tryAcceptPrice p t₁)
    let s'' := s'.next (.tryAcceptPrice p t₂)
    s.answer p t₁ = .ok (.ok p) → s'.acceptedHistory.last = some ⟨p, t₁⟩ →
    (s'.answer p t₂ = .ok (.ok p) ∧ s''.breakers = s'.breakers ∧
        s''.acceptedHistory = s'.acceptedHistory ↔
      ∀ entry ∈ s'.breakers.toList, entry.2.isArmedAt t₂ = true →
        entry.2.breaker.Keeps (entry.2.isArmedAt t₁) p
          (s'.acceptedHistory.entries.map (·.price))) := by
  intro s s' s'' hanswer hlast
  obtain ⟨outcome, hs, hvalue⟩ := answer_eq_ok.mp hanswer
  have happly : s.apply (.tryAcceptPrice p t₁) = .ok s' := map_snd_eq_ok.mpr ⟨_, hs⟩
  have hvalid := allValidFor_iff.mp (allValidFor_run config ops)
  have hvalid' := allValidFor_iff.mp (allValidFor_apply (allValidFor_run config ops) happly)
  have hpositive : p.hasStrictlyPositiveConfidenceInterval = true := by
    simp only [tryAcceptPrice, do_ok] at hs
    exact hs.1
  have hp : p.price.natAbs < 2 ^ 63 := by
    simp only [Price.hasStrictlyPositiveConfidenceInterval, Bool.and_eq_true,
      decide_eq_true_eq] at hpositive
    omega
  obtain ⟨-, -, _, he⟩ | ⟨-, -, -, _, he⟩ | ⟨-, hquiet, -, hs'⟩ := tryAcceptPrice_eq_ok hs
  · simp [he] at hvalue
  · simp [he] at hvalue
  have hs' : s' = _ := hs'
  have hbreakers : s'.breakers = (s.judged p t₁).breakers := by
    rw [hs']
    split <;> rfl
  have hmanual : s'.isManuallyTripped = (s.judged p t₁).isManuallyTripped := by
    rw [hs']
    split <;> rfl
  have hquiet' : s'.isBlocking = false := by
    rwa [isBlocking, hmanual, hbreakers]
  -- the second reading changes nothing exactly if it leaves the breakers
  have hsecond : (s'.answer p t₂ = .ok (.ok p) ∧ s''.breakers = s'.breakers ∧
      s''.acceptedHistory = s'.acceptedHistory) ↔ (s'.judged p t₂).breakers = s'.breakers := by
    obtain ⟨a, ha⟩ := exists_answer (s := s') (t := t₂) hpositive
    obtain ⟨outcome', hs'', rfl⟩ := answer_eq_ok.mp ha
    rw [ha]
    obtain ⟨hb, -⟩ | ⟨-, hb, -, _, he⟩ | ⟨-, -, hvalue', hs''⟩ := tryAcceptPrice_eq_ok hs''
    · simp [hquiet'] at hb
    · constructor
      · intro hkept
        rw [he] at hkept
        cases hkept.1
      · intro hsilent
        have hsame : (s'.judged p t₂).isManuallyTripped = s'.isManuallyTripped :=
          isManuallyTripped_sampled s' p t₂
        rw [isBlocking, hsame, hsilent, ← isBlocking, hquiet'] at hb
        cases hb
    · rw [if_neg (by simp [advances, hlast])] at hs''
      have hs'' : s'' = s'.judged p t₂ := hs''
      rw [hvalue', hs'']
      exact ⟨fun hkept => hkept.2.1, fun hsilent => ⟨rfl, hsilent, acceptedHistory_sampled s' p t₂⟩⟩
  rw [hsecond, breakers_judged]
  have hkeeps (id : Nat) (b : CircuitBreakerState CircuitBreaker) (hb : s'.breakers[id]? = some b)
      (harm : b.isArmedAt t₂ = true) : b.breaker.shouldTrip (s'.acceptedHistory.push ⟨p, t₂⟩) = false ↔
        b.breaker.Keeps (b.isArmedAt t₁) p (s'.acceptedHistory.entries.map (·.price)) := by
    have hb₁ := hb
    rw [hbreakers, getElem?_judged] at hb₁
    obtain ⟨b₀, hb₀, heq⟩ := Option.map_eq_some_iff.mp hb₁
    cases htrips : b₀.trips (s.proposal p t₁) t₁ with
    | true =>
      -- a breaker that tripped on the first reading is not armed any more
      rw [applyArmedTransition, if_pos htrips] at heq
      cases heq
      cases harm
    | false =>
      have hsame : b₀ = b := by simpa [applyArmedTransition, htrips] using heq
      subst hsame
      refine CircuitBreaker.shouldTrip_reread hp (hvalid' id b₀ hb) hlast (hvalid id b₀ hb₀) ?_
      intro harmed
      rw [trips, harmed, Bool.true_and] at htrips
      exact htrips
  constructor
  · intro hsilent entry hmem harm
    have hb := ExtTreeMap.mem_toList_iff_getElem?_eq_some.mp hmem
    have htrips := hsilent _ _ hb
    rw [trips, harm, Bool.true_and] at htrips
    exact (hkeeps _ _ hb harm).mp htrips
  · intro hall id b hb
    cases harm : b.isArmedAt t₂ with
    | false => rw [trips, harm, Bool.false_and]
    | true =>
      rw [trips, harm, Bool.true_and]
      exact (hkeeps id b hb harm).mpr (hall _ (ExtTreeMap.mem_toList_iff_getElem?_eq_some.mpr hb) harm)

theorem reread_changes_nothing_windowed :
    (((new ⟨0, 4⟩).run [.add 0 (.windowedChangeDelta ⟨2, 1, Decimal.one⟩),
      .tryAcceptPrice ⟨100, 0, 0, 1⟩ 1, .tryAcceptPrice ⟨100, 0, 0, 2⟩ 2,
      .tryAcceptPrice ⟨100, 0, 0, 3⟩ 3]).next (.tryAcceptPrice ⟨150, 0, 0, 4⟩ 4)).answer
        ⟨150, 0, 0, 4⟩ 5 = .ok (.ok ⟨150, 0, 0, 4⟩) :=
  ((reread_changes_nothing _ _ _ _ _ (by decide) (by decide +kernel) (by decide +kernel)).mpr
    (by decide +kernel)).1

/-- The price was let through at the end of its window; read again it fills the window. -/
theorem reread_trips_windowed :
    let p : Price := ⟨299, 0, 0, 4⟩
    let s := (new ⟨0, 4⟩).run [.add 0 (.windowedChangeDelta ⟨2, 1, Decimal.one⟩),
      .tryAcceptPrice ⟨100, 0, 0, 1⟩ 1, .tryAcceptPrice ⟨100, 0, 0, 2⟩ 2,
      .tryAcceptPrice ⟨100, 0, 0, 3⟩ 3]
    let s' := s.next (.tryAcceptPrice p 4)
    s.isBlocking = false ∧ s.answer p 4 = .ok (.ok p) ∧ s'.acceptedHistory.last = some ⟨p, 4⟩ ∧
      s'.answer p 4 = .ok (.error (.breakerTripped [0])) := by
  decide +kernel

end CircuitBreakerSet

end Templar.Oracle
