import Mathlib.Data.Prod.Lex
import Templar.Lib.Sort
import Templar.Oracle.BreakerSet

/-!
# Resolving a price from its sources

A proxy drops the source prices that are invalid or not fresh, aggregates the rest
by a weighted median or by priority, and shows the result to the circuit breakers.
The median sorts without keeping the order of equal values, so the sort is a
parameter here.
-/

namespace Templar.Oracle

open Checked List

structure WeightedSource (S : Type) where
  source : S
  weight : Nat
  deriving DecidableEq

inductive AggregationError where
  | lengthMismatch (expected actual : Nat)
  | tooFewValidSources (expected actual : Nat)
  deriving DecidableEq

def AggregationError.text : AggregationError → String
  | .lengthMismatch expected actual => s!"length mismatch: expected {expected}, actual {actual}"
  | .tooFewValidSources expected actual =>
    s!"too few valid sources: expected {expected}, actual {actual}"

structure SpecificPrice where
  value : Int
  exponent : Int
  publishTimeNs : Nat
  deriving DecidableEq

def saturateI64 (n : Int) : Int := max (-2 ^ 63) (min n (2 ^ 63 - 1))

namespace SpecificPrice

/-- The two ends of the confidence interval. -/
def split (price : Price) : SpecificPrice × SpecificPrice :=
  let conf : Int := if price.conf < 2 ^ 63 then price.conf else 2 ^ 63 - 1
  (⟨saturateI64 (price.price - conf), price.expo, price.publishTimeNs⟩,
    ⟨saturateI64 (price.price + conf), price.expo, price.publishTimeNs⟩)

def toPrice (p : SpecificPrice) : Price := ⟨p.value, 0, p.exponent, p.publishTimeNs⟩

def cmp (a b : SpecificPrice) : Ordering := compareScaled a.value a.exponent b.value b.exponent

/-- The order of the votes: by price, then by weight. -/
def leVote (a b : SpecificPrice × Nat) : Bool := ((cmp a.1 b.1).then (compare a.2 b.2)).isLE

/-- The value a vote stands for. -/
def voteValue (a : SpecificPrice × Nat) : ℚ := scaledValue a.1.value a.1.exponent

theorem leVote_iff (a b : SpecificPrice × Nat) :
    leVote a b = true ↔ toLex (voteValue a, a.2) ≤ toLex (voteValue b, b.2) := by
  unfold leVote cmp
  rw [compareScaled_eq, Ordering.isLE_then_iff_or, compare_lt_iff_lt, compare_eq_iff_eq,
    Nat.isLE_compare, Prod.Lex.toLex_le_toLex]
  rfl

theorem leVote_trans (a b c : SpecificPrice × Nat) (hab : leVote a b = true)
    (hbc : leVote b c = true) : leVote a c = true := by
  rw [leVote_iff] at *
  exact hab.trans hbc

theorem leVote_total (a b : SpecificPrice × Nat) : leVote a b = true ∨ leVote b a = true := by
  rw [leVote_iff, leVote_iff]
  exact le_total _ _

end SpecificPrice

abbrev VoteSort := UnstableSort SpecificPrice.leVote

def VoteSort.stable : VoteSort :=
  .ofInsertionSort SpecificPrice.leVote_trans SpecificPrice.leVote_total

/-- The first position at which the weights add up to the target. -/
def position {α : Type} (target : Nat) : Nat → List (α × Nat) → Option Nat
  | _, [] => none
  | cumulative, (_, weight) :: rest =>
    if target ≤ cumulative + weight then some 0
    else (position target (cumulative + weight) rest).map (· + 1)

def findTarget {α : Type} (items : List (α × Nat)) (target : Nat) : Outcome Nat :=
  expect "internal error: entered unreachable code: positive total weight must reach its target"
    (position target 0 items)

/-- The positions of the lower and the upper weighted median of a sorted list. -/
def median {α : Type} (items : List (α × Nat)) : Outcome (Nat × Nat) :=
  let totalWeight := (items.map Prod.snd).sum
  if totalWeight = 0 then .ok ((items.length - 1) / 2, items.length / 2)
  else do
    let low ← findTarget items ((totalWeight + 1) / 2)
    let high ← findTarget items (totalWeight / 2 + 1)
    .ok (low, high)

inductive MedianVariant where
  | low
  | high
  deriving DecidableEq

def MedianVariant.median {α : Type} (variant : MedianVariant) (items : List (α × Nat)) :
    Outcome Nat := do
  let (lo, hi) ← Oracle.median items
  match variant with
  | .low => .ok (min lo hi)
  | .high => .ok (max lo hi)

structure Median (S : Type) where
  sources : List (WeightedSource S)
  minSources : Nat
  deriving DecidableEq

namespace Median

variable {S : Type}

/-- The prices that count, with the weights of their sources. -/
def validPrices (m : Median S) (prices : List (Option Price)) : List (Price × Nat) :=
  (prices.zip m.sources).filterMap fun (price, source) =>
    match price with
    | some price => if 0 < source.weight then some (price, source.weight) else none
    | none => none

def votes (valid : List (Price × Nat)) : List (SpecificPrice × Nat) :=
  valid.flatMap fun (price, weight) =>
    [((SpecificPrice.split price).1, weight), ((SpecificPrice.split price).2, weight)]

def aggregate (m : Median S) (variant : MedianVariant) (sorter : VoteSort)
    (prices : List (Option Price)) : Outcome (Except AggregationError Price) :=
  if prices.length ≠ m.sources.length then
    .ok (.error (.lengthMismatch m.sources.length prices.length))
  else
    let valid := m.validPrices prices
    let minSources := max m.minSources 1
    if valid.length < minSources then
      .ok (.error (.tooFewValidSources minSources valid.length))
    else do
      let values := sorter.sort (votes valid)
      let index ← variant.median values
      let vote ← unwrap values[index]?
      .ok (.ok vote.1.toPrice)

end Median

structure Priority (S : Type) where
  sources : List S
  deriving DecidableEq

def Priority.aggregate {S : Type} (p : Priority S) (prices : List (Option Price)) :
    Except AggregationError Price :=
  if prices.length ≠ p.sources.length then
    .error (.lengthMismatch p.sources.length prices.length)
  else okOr (prices.filterMap id).head? (.tooFewValidSources 1 0)

inductive Aggregator (S : Type) where
  | medianLow (median : Median S)
  | priority (priority : Priority S)
  | medianHigh (median : Median S)
  deriving DecidableEq

namespace Aggregator

variable {S : Type}

def sources : Aggregator S → List S
  | medianLow m => m.sources.map (·.source)
  | priority p => p.sources
  | medianHigh m => m.sources.map (·.source)

def aggregate (a : Aggregator S) (sorter : VoteSort) (prices : List (Option Price)) :
    Outcome (Except AggregationError Price) :=
  match a with
  | medianLow m => m.aggregate .low sorter prices
  | priority p => .ok (p.aggregate prices)
  | medianHigh m => m.aggregate .high sorter prices

end Aggregator

structure FreshnessFilter where
  maxAgeNs : Option Nat
  maxClockDriftNs : Option Nat
  deriving DecidableEq

def FreshnessFilter.accepts (f : FreshnessFilter) (price : Price) (now : Nat) : Bool :=
  let published := price.publishTimeNs
  if published ≤ now then f.maxAgeNs.all fun max => now - published ≤ max
  else f.maxClockDriftNs.all fun max => published - now ≤ max

structure Proxy (S : Type) where
  aggregator : Aggregator S
  freshnessFilter : FreshnessFilter
  deriving DecidableEq

inductive ResolveError where
  | aggregation (error : AggregationError)
  | circuitBreaker (error : CircuitBreakerError)
  deriving DecidableEq

def CircuitBreakerError.text : CircuitBreakerError → String
  | .tooManyBreakers => "too many circuit breakers"
  | .breakerNotFound breakerId => s!"circuit breaker not found: {breakerId}"
  | .unexpectedBreakerId expected actual =>
    s!"unexpected circuit breaker ID: expected {expected}, got {actual}"
  | .invalidPrice => "invalid price"
  | .invalidConfiguration => "invalid circuit breaker configuration"

def ResolveError.text : ResolveError → String
  | .aggregation error => "aggregation failed: " ++ error.text
  | .circuitBreaker error => "circuit breaker failed: " ++ error.text

namespace Proxy

variable {S R : Type} {sorter : VoteSort} {prices : List (Option Price)} {price : Price}
  {proxy : Proxy S} {now : Nat}

def sources (proxy : Proxy S) : List S := proxy.aggregator.sources

/-- The source prices that may be aggregated. -/
def usable (proxy : Proxy S) (now : Nat) (price : Option Price) : Option Price :=
  (price.filter (·.hasStrictlyPositiveConfidenceInterval)).filter
    (proxy.freshnessFilter.accepts · now)

def aggregate (proxy : Proxy S) (sorter : VoteSort) (prices : List (Option Price)) (now : Nat) :
    Outcome (Except AggregationError Price) :=
  proxy.aggregator.aggregate sorter (prices.map (proxy.usable now))

def resolve [CircuitBreakerRule R] (proxy : Proxy S) (sorter : VoteSort)
    (circuitBreakers : CircuitBreakerSet R) (prices : List (Option Price)) (now : Nat) :
    Outcome (Except ResolveError
      (CircuitBreakerOutcome R PriceAcceptance × CircuitBreakerSet R)) := do
  match ← proxy.aggregate sorter prices now with
  | .error error => .ok (.error (.aggregation error))
  | .ok price => .ok ((circuitBreakers.tryAcceptPrice price now).mapError .circuitBreaker)

theorem mem_of_median_aggregate {m : Median S} {variant : MedianVariant}
    (h : m.aggregate variant sorter prices = .ok (.ok price)) :
    ∃ p, some p ∈ prices ∧ price.publishTimeNs = p.publishTimeNs := by
  unfold Median.aggregate at h
  split at h
  · cases h
  dsimp only at h
  split at h
  · cases h
  obtain ⟨index, -, h⟩ := bind_eq_ok.mp h
  obtain ⟨vote, hvote, h⟩ := bind_eq_ok.mp h
  cases h
  have hmem := sorter.mem_sort.mp (mem_of_getElem? (unwrap_eq_ok.mp hvote))
  simp only [Median.votes, mem_flatMap, Prod.exists] at hmem
  obtain ⟨p, weight, hp, hvote⟩ := hmem
  refine ⟨p, ?_, ?_⟩
  · simp only [Median.validPrices, mem_filterMap, Prod.exists] at hp
    obtain ⟨q, source, hzip, hq⟩ := hp
    cases q with
    | none => cases hq
    | some q =>
      dsimp only at hq
      split at hq
      · cases hq
        exact (of_mem_zip hzip).1
      · cases hq
  · simp only [mem_cons, not_mem_nil, or_false] at hvote
    rcases hvote with rfl | rfl
    · rfl
    · rfl

/-- The publish time of an aggregated price is that of one of the source prices. -/
theorem publishTimeNs_of_aggregate (h : proxy.aggregate sorter prices now = .ok (.ok price)) :
    ∃ p, some p ∈ prices ∧ price.publishTimeNs = p.publishTimeNs := by
  have hsome : ∃ p, some p ∈ prices.map (proxy.usable now) ∧
      price.publishTimeNs = p.publishTimeNs := by
    unfold aggregate Aggregator.aggregate at h
    split at h
    · exact mem_of_median_aggregate h
    · simp only [Except.ok.injEq, Priority.aggregate] at h
      split at h
      · cases h
      · have hhead := mem_of_head? (okOr_eq_ok.mp h)
        simp only [mem_filterMap, id_eq] at hhead
        obtain ⟨q, hq, rfl⟩ := hhead
        exact ⟨price, hq, rfl⟩
    · exact mem_of_median_aggregate h
  obtain ⟨p, hp, htime⟩ := hsome
  obtain ⟨q, hq, hpq⟩ := mem_map.mp hp
  simp only [usable, Option.filter_eq_some_iff] at hpq
  exact ⟨p, hpq.1.1 ▸ hq, htime⟩

/-- What a resolution that reached the breakers did. -/
theorem resolve_eq_ok [CircuitBreakerRule R] {set set' : CircuitBreakerSet R}
    {outcome : CircuitBreakerOutcome R PriceAcceptance}
    (h : proxy.resolve sorter set prices now = .ok (.ok (outcome, set'))) :
    ∃ price, proxy.aggregate sorter prices now = .ok (.ok price) ∧
      set.tryAcceptPrice price now = .ok (outcome, set') := by
  unfold resolve at h
  obtain ⟨aggregated, hagg, h⟩ := bind_eq_ok.mp h
  cases aggregated with
  | error error => cases h
  | ok price => exact ⟨price, hagg, mapError_eq_ok.mp (Except.ok.inj h)⟩

end Proxy

end Templar.Oracle
