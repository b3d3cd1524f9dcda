import Mathlib.Algebra.BigOperators.Ring.List
import Templar.Lib.Table

/-!
# Apportioning frozen totals

Rounds are closed one after the other, and a closed round has a total: what all entries of
a table held when it was closed. Every entry takes its part of a round later and at its own
pace; it keeps the first round it has not taken part in. `Apportioned` says that in each
closed round the parts taken and the parts still to be taken add up to the total, and that
no key takes part twice.

Parts are often turned into shares of something by rounding down. The last section bounds
what the rounded shares add up to.
-/

namespace Templar

open List AList

variable {K V : Type} {next : V → Nat} {amountAt : Nat → V → Nat} {k : Nat} {v : V}

/-- What an entry still has to take of a round. -/
def outstanding (next : V → Nat) (amountAt : Nat → V → Nat) (k : Nat) (v : V) : Nat :=
  if next v ≤ k then amountAt k v else 0

theorem outstanding_of_lt (h : k < next v) : outstanding next amountAt k v = 0 := if_neg (by omega)

theorem outstanding_of_le (h : next v ≤ k) :
    outstanding next amountAt k v = amountAt k v := if_pos h

variable [DecidableEq K]

/-- The first `n` rounds are closed with the given totals; `log` lists the keys that took
part in a round, each with its part. -/
structure Apportioned (next : V → Nat) (amountAt : Nat → V → Nat) (n : Nat) (total : Nat → Nat)
    (t : Table K V) (log : Nat → List (K × Nat)) : Prop where
  sum : ∀ k, k < n →
    ((log k).map Prod.snd).sum + Table.total (outstanding next amountAt k) t = total k
  next_le : ∀ a v, t.lookup a = some v → next v ≤ n
  before : ∀ a v, t.lookup a = some v → ∀ k, a ∈ (log k).map Prod.fst → k < next v
  nodup : ∀ k, ((log k).map Prod.fst).Nodup
  closed : ∀ k, n ≤ k → log k = []

namespace Apportioned

variable {n : Nat} {total total' : Nat → Nat}
variable {t : Table K V} {log log' : Nat → List (K × Nat)} {a : K} {v' : V}

theorem empty (hn : ∀ k, k < n → total k = 0) :
    Apportioned next amountAt n total (∅ : Table K V) fun _ => [] where
  sum := by
    intro k hk
    simp [hn k hk]
  next_le := by simp
  before := by simp
  nodup := by simp
  closed := by simp

section

variable (h : Apportioned next amountAt n total t log)
include h

theorem congr (hlog : ∀ k, log' k = log k)
    (htotal : ∀ k, k < n → total' k = total k) : Apportioned next amountAt n total' t log' := by
  obtain rfl : log' = log := funext hlog
  refine ⟨fun k hk => ?_, h.next_le, h.before, h.nodup, h.closed⟩
  rw [htotal k hk]
  exact h.sum k hk

/-- A key that took part did so in a closed round. -/
theorem lt_of_mem (ha : a ∈ (log k).map Prod.fst) : k < n := by
  by_contra hk
  rw [h.closed k (by omega)] at ha
  simp at ha

theorem insert (hle : next v ≤ n)
    (hpart : ∀ k, k < n → outstanding next amountAt k v =
      Table.part (outstanding next amountAt k) t a)
    (hbefore : ∀ k, a ∈ (log k).map Prod.fst → k < next v) :
    Apportioned next amountAt n total (t.insert a v) log where
  sum := by
    intro k hk
    have hsum := h.sum k hk
    have hinsert := Table.total_insert (outstanding next amountAt k) t a v
    have hv := hpart k hk
    omega
  next_le := Table.forall_insert h.next_le hle
  before := Table.forall_insert h.before hbefore
  nodup := h.nodup
  closed := h.closed

/-- An entry is written back as it is. -/
theorem reinsert (ha : t.lookup a = some v) :
    Apportioned next amountAt n total (t.insert a v) log :=
  h.insert (h.next_le a v ha) (fun _ _ => (Table.part_of_lookup ha).symm) (h.before a v ha)

/-- A new entry takes part in the rounds that are still open. -/
theorem create (ha : t.lookup a = none)
    (hv : next v = n) : Apportioned next amountAt n total (t.insert a v) log := by
  refine h.insert hv.le (fun k hk => ?_) fun k hk => ?_
  · rw [Table.part_of_none ha, outstanding_of_lt (by omega)]
  · rw [hv]
    exact h.lt_of_mem hk

end

/-- An entry takes its parts of the rounds up to `stop`; what it holds later may not change. -/
theorem pass {stop : Nat} (h : Apportioned next amountAt n total (t.insert a v) log)
    (hle : next v ≤ stop) (hstop : stop ≤ n) (hnext : next v' = stop)
    (hlog : ∀ k, log' k = log k ++ if next v ≤ k ∧ k < stop then [(a, amountAt k v)] else [])
    (hsame : ∀ k, stop ≤ k → k < n → amountAt k v' = amountAt k v) :
    Apportioned next amountAt n total (t.insert a v') log' := by
  have hfresh := h.before a v (lookup_insert _)
  refine ⟨fun k hk => ?_, ?_, ?_, fun k => ?_, fun k hk => ?_⟩
  · have hsum := h.sum k hk
    have hreplace := Table.total_replace (outstanding next amountAt k) t a v v'
    rw [hlog k]
    -- Before `next v` and from `stop` on nothing changes; in between the part is taken.
    by_cases hbefore : k < next v
    · rw [outstanding_of_lt hbefore, outstanding_of_lt (by omega)] at hreplace
      rw [if_neg (by omega), append_nil]
      omega
    · by_cases hin : k < stop
      · rw [outstanding_of_le (by omega), outstanding_of_lt (by omega)] at hreplace
        rw [if_pos ⟨by omega, hin⟩]
        simp only [map_append, map_cons, map_nil, sum_append, sum_cons, sum_nil]
        omega
      · rw [outstanding_of_le (by omega), outstanding_of_le (by omega),
          hsame k (by omega) hk] at hreplace
        rw [if_neg (by omega), append_nil]
        omega
  · exact Table.forall_replace h.next_le (fun _ _ hb => hb) (hnext.le.trans hstop)
  · intro b w hb k hmem
    have hmem : b ∈ (log k).map Prod.fst ∨ b = a ∧ next v ≤ k ∧ k < stop := by
      rw [hlog k, map_append, mem_append] at hmem
      rcases hmem with hmem | hmem
      · exact Or.inl hmem
      · split at hmem
        · exact Or.inr ⟨by simpa using hmem, ‹_›⟩
        · simp at hmem
    by_cases hba : b = a
    · subst hba
      rw [lookup_insert] at hb
      cases hb
      rcases hmem with hmem | ⟨-, -, hk⟩
      · have hlt := hfresh k hmem
        omega
      · omega
    · rw [lookup_insert_ne hba] at hb
      rcases hmem with hmem | ⟨rfl, -⟩
      · exact h.before b w (by rw [lookup_insert_ne hba]; exact hb) k hmem
      · exact absurd rfl hba
  · rw [hlog k]
    split
    · rename_i hk
      rw [map_append]
      refine List.Nodup.append (h.nodup k) (by simp) ?_
      simp only [map_cons, map_nil, disjoint_singleton]
      intro hmem
      have hlt := hfresh k hmem
      omega
    · rw [append_nil]
      exact h.nodup k
  · rw [hlog k, h.closed k hk, if_neg (by omega)]
    rfl

/-- An entry changes what it holds, but not in the rounds it still has to take part in. -/
theorem replace (h : Apportioned next amountAt n total (t.insert a v) log)
    (hnext : next v' = next v)
    (hsame : ∀ k, next v ≤ k → k < n → amountAt k v' = amountAt k v) :
    Apportioned next amountAt n total (t.insert a v') log := by
  refine h.pass (Nat.le_refl _) (h.next_le a v (lookup_insert _)) hnext (fun k => ?_) hsame
  rw [if_neg (by omega), append_nil]

section

variable (h : Apportioned next amountAt n total t log)
include h

theorem erase (ha : t.lookup a = some v)
    (hzero : ∀ k, k < n → amountAt k v = 0) :
    Apportioned next amountAt n total (t.erase a) log where
  sum := by
    intro k hk
    have hsum := h.sum k hk
    have herase := Table.total_erase (outstanding next amountAt k) t a
    have hv : outstanding next amountAt k v = 0 := by
      rw [outstanding, hzero k hk, ite_self]
    rw [Table.part_of_lookup ha, hv] at herase
    omega
  next_le := Table.forall_erase h.next_le
  before := Table.forall_erase h.before
  nodup := h.nodup
  closed := h.closed

/-- One more round is closed, with what the entries hold at that time. -/
theorem close (hsame : ∀ k, k < n → total' k = total k)
    (htotal : total' n = Table.total (amountAt n) t) :
    Apportioned next amountAt (n + 1) total' t log where
  sum := by
    intro k hk
    by_cases hkn : k = n
    · subst hkn
      have hall : Table.total (outstanding next amountAt k) t = Table.total (amountAt k) t :=
        Table.total_congr fun a v ha => outstanding_of_le (h.next_le a v ha)
      rw [h.closed k (Nat.le_refl _), htotal, hall]
      simp
    · rw [hsame k (by omega)]
      exact h.sum k (by omega)
  next_le := fun a v ha => Nat.le_succ_of_le (h.next_le a v ha)
  before := h.before
  nodup := h.nodup
  closed := fun k hk => h.closed k (by omega)

/-- The parts taken never exceed the total. -/
theorem sum_le (hk : k < n) : ((log k).map Prod.snd).sum ≤ total k := by
  have hsum := h.sum k hk
  omega

/-- A round in which every entry took part is apportioned exactly. -/
theorem sum_eq (hk : k < n)
    (hall : ∀ a v, t.lookup a = some v → k < next v) : ((log k).map Prod.snd).sum = total k := by
  have hsum := h.sum k hk
  have hzero : Table.total (outstanding next amountAt k) t = 0 :=
    Table.total_eq_zero fun a v ha => outstanding_of_lt (hall a v ha)
  omega

end

end Apportioned

section Floors

variable {α : Type} {d : Nat}

/-- Scaled bounds of the members bound the scaled sum. -/
theorem mul_sum_le_mul_sum {c : Nat} {f g : α → Nat} {l : List α} (h : ∀ x ∈ l, c * f x ≤ d * g x) :
    c * (l.map f).sum ≤ d * (l.map g).sum := by
  rw [← sum_map_mul_left, ← sum_map_mul_left]
  exact sum_le_sum h

/-- Shares that are rounded down add up to no more than the rounded whole. -/
theorem sum_div_le (c d : Nat) (l : List Nat) : (l.map fun p => p * c / d).sum ≤ l.sum * c / d := by
  induction l with
  | nil => simp
  | cons p l ih =>
    simp only [map_cons, sum_cons, Nat.add_mul]
    exact Nat.le_trans (Nat.add_le_add_left ih _) Nat.div_add_div_le_add_div

/-- Only shares of something lose by rounding, and each less than one. -/
theorem mul_sum_le_div (c : Nat) (hd : 0 < d) (l : List Nat) :
    l.sum * c + (l.filter (· ≠ 0)).length ≤
      d * ((l.map fun p => p * c / d).sum + (l.filter (· ≠ 0)).length) := by
  induction l with
  | nil => simp
  | cons p l ih =>
    have hdiv := Nat.div_add_mod (p * c) d
    have hmod := Nat.mod_lt (p * c) hd
    by_cases hp : p = 0
    · simpa [hp] using ih
    · simp only [map_cons, sum_cons, Nat.add_mul, ne_eq, hp, not_false_eq_true,
        decide_true, filter_cons_of_pos, length_cons, Nat.mul_add] at ih ⊢
      omega

/-- The rounded whole exceeds the rounded shares by less than the number of shares of
something. -/
theorem le_sum_div (c : Nat) (hd : 0 < d) (l : List Nat) :
    l.sum * c / d ≤ (l.map fun p => p * c / d).sum + ((l.filter (· ≠ 0)).length - 1) := by
  have hbound := mul_sum_le_div c hd l
  by_cases hzero : (l.filter (· ≠ 0)).length = 0
  · rw [hzero] at hbound ⊢
    exact Nat.div_le_of_le_mul hbound
  · have hlt : l.sum * c / d < (l.map fun p => p * c / d).sum + (l.filter (· ≠ 0)).length := by
      apply Nat.div_lt_of_lt_mul
      omega
    omega

end Floors

end Templar
