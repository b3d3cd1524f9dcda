import Mathlib.Algebra.BigOperators.Group.List.Basic
import Mathlib.Algebra.Order.Ring.Nat
import Mathlib.Data.List.Nodup
import Mathlib.Tactic.Common

/-!
# Maps that remember the order of insertion

A short map kept as a list of pairs and searched from the front. Writing to a key that is
there replaces the value in its place; a new key goes to the end. No key occurs twice, which
is a field of the structure, so a lookup and membership in the list are the same thing.

`total f` adds `f` up over the pairs. One write or removal moves it by the contribution of
the key it touches, where an absent key contributes nothing.
-/

namespace Templar

open Function List

/-- A map that lists its keys in the order they came. -/
structure OrderedMap (K V : Type) where
  entries : List (K × V)
  nodup : (entries.map Prod.fst).Nodup
  deriving DecidableEq

namespace OrderedMap

variable {K V : Type} {m n : OrderedMap K V} {f : K → V → Nat}

@[ext] theorem ext (h : m.entries = n.entries) : m = n := by
  cases m
  cases n
  simp_all

def empty : OrderedMap K V := ⟨[], nodup_nil⟩

def keys (m : OrderedMap K V) : List K := m.entries.map Prod.fst

def values (m : OrderedMap K V) : List V := m.entries.map Prod.snd

def retain (m : OrderedMap K V) (p : K → V → Bool) : OrderedMap K V :=
  ⟨m.entries.filter (fun e => p e.1 e.2), (filter_sublist.map _).nodup m.nodup⟩

def mapValues (m : OrderedMap K V) (f : K → V → V) : OrderedMap K V :=
  ⟨m.entries.map (fun e => (e.1, f e.1 e.2)), by
    have h : (m.entries.map (fun e => (e.1, f e.1 e.2))).map Prod.fst = m.entries.map Prod.fst := by
      simp
    rw [h]
    exact m.nodup⟩

@[simp] theorem keys_empty : (empty : OrderedMap K V).keys = [] := rfl

@[simp] theorem keys_mapValues (m : OrderedMap K V) (f : K → V → V) :
    (m.mapValues f).keys = m.keys := by
  simp [keys, mapValues]

/-- The sum of `f` over the pairs. -/
def total (f : K → V → Nat) (m : OrderedMap K V) : Nat := (m.entries.map (fun e => f e.1 e.2)).sum

variable [DecidableEq K]

def get (m : OrderedMap K V) (k : K) : Option V :=
  (m.entries.find? (fun e => decide (e.1 = k))).map Prod.snd

def contains (m : OrderedMap K V) (k : K) : Bool := m.entries.any (fun e => decide (e.1 = k))

/-- Replaces the value of one key, if it is there. -/
def modify (m : OrderedMap K V) (k : K) (f : V → V) : OrderedMap K V :=
  m.mapValues (fun a v => if a = k then f v else v)

theorem contains_iff {k : K} : m.contains k = true ↔ k ∈ m.keys := by
  simp [contains, keys]

/-- A key that is known keeps its place. -/
def insert (m : OrderedMap K V) (k : K) (v : V) : OrderedMap K V :=
  if h : m.contains k = true then m.modify k (fun _ => v)
  else ⟨m.entries ++ [(k, v)], by
    have hk : k ∉ m.entries.map Prod.fst := fun hk => h (contains_iff.mpr hk)
    rw [map_append, nodup_append]
    refine ⟨m.nodup, by simp, ?_⟩
    rintro a ha b hb rfl
    obtain rfl : a = k := mem_singleton.mp hb
    exact hk ha⟩

def remove (m : OrderedMap K V) (k : K) : OrderedMap K V :=
  ⟨m.entries.eraseP (fun e => decide (e.1 = k)), ((eraseP_sublist).map _).nodup m.nodup⟩

variable {a k : K} {v w : V}

/-- Looking up finds exactly what is listed. -/
theorem get_eq_some : m.get k = some v ↔ (k, v) ∈ m.entries := by
  constructor
  · intro h
    obtain ⟨⟨k', v'⟩, hfind, rfl⟩ := Option.map_eq_some_iff.mp h
    have hk : k' = k := by simpa using find?_some hfind
    subst hk
    exact mem_of_find?_eq_some hfind
  · intro h
    have hsome : (m.entries.find? (fun e => decide (e.1 = k))).isSome := by
      rw [find?_isSome]
      exact ⟨(k, v), h, by simp⟩
    obtain ⟨⟨k', v'⟩, hfind⟩ := Option.isSome_iff_exists.mp hsome
    have hk : k' = k := by simpa using find?_some hfind
    subst hk
    have heq := inj_on_of_nodup_map m.nodup (mem_of_find?_eq_some hfind) h rfl
    rw [get, hfind, heq]
    rfl

theorem get_eq_none : m.get k = none ↔ k ∉ m.keys := by
  simp only [get, keys, Option.map_eq_none_iff, find?_eq_none, decide_eq_true_eq, mem_map,
    not_exists, not_and]

theorem mem_keys_iff : k ∈ m.keys ↔ ∃ v, m.get k = some v := by
  rw [← Option.isSome_iff_exists, ← Option.ne_none_iff_isSome, Ne, get_eq_none, not_not]

theorem mem_of_get (h : m.get k = some v) : k ∈ m.keys := mem_keys_iff.mpr ⟨v, h⟩

@[simp] theorem get_empty : (empty : OrderedMap K V).get k = none := rfl

@[simp] theorem keys_modify (f : V → V) : (m.modify k f).keys = m.keys := keys_mapValues m _

@[simp] theorem get_mapValues (f : K → V → V) : (m.mapValues f).get k = (m.get k).map (f k) := by
  cases h : m.get k with
  | none =>
    rw [get_eq_none] at h
    simpa [get_eq_none] using h
  | some v =>
    rw [get_eq_some] at h
    rw [Option.map_some, get_eq_some]
    exact mem_map.mpr ⟨_, h, rfl⟩

theorem get_modify (f : V → V) :
    (m.modify k f).get a = if a = k then (m.get a).map f else m.get a := by
  rw [modify, get_mapValues]
  split
  · rfl
  · simp

theorem get_insert : (m.insert k v).get a = if a = k then some v else m.get a := by
  unfold insert
  split
  · next h =>
    rw [get_modify]
    obtain ⟨old, hold⟩ := mem_keys_iff.mp (contains_iff.mp h)
    by_cases ha : a = k
    · subst ha
      simp [hold]
    · simp [ha]
  · next h =>
    by_cases ha : a = k
    · subst ha
      simp [get_eq_some]
    · rw [if_neg ha]
      unfold get
      rw [find?_append]
      have hlast : [(k, v)].find? (fun e => decide (e.1 = a)) = none := by simp [Ne.symm ha]
      rw [hlast, Option.or_none]

@[simp] theorem get_insert_self : (m.insert k v).get k = some v := by simp [get_insert]

theorem get_insert_of_ne (h : a ≠ k) : (m.insert k v).get a = m.get a := by simp [get_insert, h]

theorem mem_keys_insert : a ∈ (m.insert k v).keys ↔ a = k ∨ a ∈ m.keys := by
  simp only [mem_keys_iff, get_insert]
  by_cases h : a = k <;> simp [h]

theorem keys_insert_of_mem (h : k ∈ m.keys) : (m.insert k v).keys = m.keys := by
  rw [insert, dif_pos (contains_iff.mpr h), keys_modify]

theorem entries_insert_of_get (h : m.get k = some w) :
    (m.insert k v).entries = m.entries.map (fun e => (e.1, if e.1 = k then v else e.2)) := by
  rw [insert, dif_pos (contains_iff.mpr (mem_of_get h))]
  rfl

/-- What the new value shares with the old one is the same all over the map. -/
theorem map_entries_insert {β : Type} {g : V → β} (h : m.get k = some w) (hg : g v = g w) :
    (m.insert k v).entries.map (fun e => (e.1, g e.2)) = m.entries.map (fun e => (e.1, g e.2)) := by
  rw [entries_insert_of_get h, map_map]
  apply map_congr_left
  intro e he
  by_cases hk : e.1 = k
  · have hget : m.get k = some e.2 := get_eq_some.mpr (hk ▸ he)
    obtain rfl : w = e.2 := Option.some.inj (h.symm.trans hget)
    simp [hk, hg]
  · simp [hk]

theorem get_insert_eq_update : (m.insert k v).get = update m.get k (some v) := by
  funext a
  rw [get_insert, update_apply]

theorem entries_insert_of_notMem (h : k ∉ m.keys) :
    (m.insert k v).entries = m.entries ++ [(k, v)] := by
  rw [insert, dif_neg (fun hc => h (contains_iff.mp hc))]

/-- A removal takes one pair out of the list, or finds none. -/
theorem remove_cases (m : OrderedMap K V) (k : K) : (m.get k = none ∧ m.remove k = m) ∨
      ∃ v l₁ l₂, m.get k = some v ∧ m.entries = l₁ ++ (k, v) :: l₂ ∧
        (m.remove k).entries = l₁ ++ l₂ := by
  cases h : m.get k with
  | none =>
    refine .inl ⟨rfl, ext (eraseP_of_forall_not ?_)⟩
    intro e he hek
    exact get_eq_none.mp h (mem_map.mpr ⟨e, he, by simpa using hek⟩)
  | some v =>
    obtain ⟨⟨k', v'⟩, l₁, l₂, -, hk', hl, he⟩ :=
      exists_of_eraseP (p := fun e => decide (e.1 = k)) (get_eq_some.mp h) (by simp)
    obtain rfl : k' = k := by simpa using hk'
    obtain rfl : v' = v := by
      have hmem : m.get k' = some v' := get_eq_some.mpr (by rw [hl]; simp)
      exact Option.some.inj (hmem.symm.trans h)
    exact .inr ⟨v', l₁, l₂, rfl, hl, he⟩

theorem get_remove : (m.remove k).get a = if a = k then none else m.get a := by
  rcases remove_cases m k with ⟨hnone, hsame⟩ | ⟨v, l₁, l₂, -, hl, he⟩
  · rw [hsame]
    split
    · next h => exact h ▸ hnone
    · rfl
  · by_cases ha : a = k
    · have hnodup := m.nodup
      rw [hl, map_append, map_cons, nodup_middle, nodup_cons] at hnodup
      rw [if_pos ha, get_eq_none, keys, he, map_append, ha]
      exact hnodup.1
    · rw [if_neg ha]
      ext w
      rw [get_eq_some, get_eq_some, he, hl]
      simp [ha]

theorem get_remove_eq_update : (m.remove k).get = update m.get k none := by
  funext a
  rw [get_remove, update_apply]

theorem mem_keys_remove : a ∈ (m.remove k).keys ↔ a ≠ k ∧ a ∈ m.keys := by
  simp only [mem_keys_iff, get_remove]
  by_cases h : a = k <;> simp [h]

/-- Keys in order and lookups determine a map. -/
theorem ext_get (hkeys : m.keys = n.keys) (hget : ∀ k, m.get k = n.get k) : m = n := by
  apply ext
  -- each list of pairs is the list of keys with what is found under each of them
  have key_pairs : ∀ o : OrderedMap K V, o.entries.map some = o.keys.map fun k => (o.get k).map (k, ·) := by
    intro o
    rw [keys, map_map]
    apply map_congr_left
    intro e he
    simp [get_eq_some.mpr he]
  apply map_injective_iff.mpr (Option.some_injective (K × V))
  rw [key_pairs, key_pairs, hkeys]
  exact map_congr_left fun k _ => by rw [hget]

/-- What one key contributes. -/
def part (f : K → V → Nat) (m : OrderedMap K V) (k : K) : Nat := (m.get k).elim 0 (f k)

theorem part_of_get (h : m.get k = some v) : part f m k = f k v := by
  simp [part, h]

theorem part_of_none (h : m.get k = none) : part f m k = 0 := by
  simp [part, h]

/-- A key takes its part of the total with it. -/
theorem total_remove (f : K → V → Nat) (m : OrderedMap K V) (k : K) :
    total f (m.remove k) + part f m k = total f m := by
  rcases remove_cases m k with ⟨hnone, hsame⟩ | ⟨v, l₁, l₂, hv, hl, he⟩
  · rw [part_of_none hnone, hsame, Nat.add_zero]
  · rw [part_of_get hv, total, total, he, hl]
    simp only [map_append, map_cons, sum_append, sum_cons]
    omega

private theorem sum_map_replace (f : K → V → Nat) (k : K) (v : V) (l : List (K × V))
    (hl : (l.map Prod.fst).Nodup) (w : V) (hw : (k, w) ∈ l) :
    (l.map (fun e => f e.1 (if e.1 = k then v else e.2))).sum + f k w =
      (l.map (fun e => f e.1 e.2)).sum + f k v := by
  induction l with
  | nil => cases hw
  | cons e l ih =>
    rw [map_cons, nodup_cons] at hl
    simp only [map_cons, sum_cons]
    by_cases he : e.1 = k
    · have hrest : ∀ e' ∈ l, f e'.1 (if e'.1 = k then v else e'.2) = f e'.1 e'.2 := by
        intro e' he'
        have hne : e'.1 ≠ k := fun h => hl.1 (by rw [he, ← h]; exact mem_map_of_mem he')
        rw [if_neg hne]
      have hew : e = (k, w) := by
        rcases mem_cons.mp hw with hw | hw
        · exact hw.symm
        · exact absurd (he ▸ mem_map_of_mem hw) hl.1
      rw [map_congr_left hrest, hew]
      simp only [↓reduceIte]
      omega
    · have hw : (k, w) ∈ l := by
        rcases mem_cons.mp hw with hw | hw
        · exact absurd (by rw [← hw]) he
        · exact hw
      have hsum := ih hl.2 hw
      rw [if_neg he]
      omega

/-- One write replaces the key's contribution and leaves every other alone. -/
theorem total_insert (f : K → V → Nat) (m : OrderedMap K V) (k : K) (v : V) :
    total f (m.insert k v) + part f m k = total f m + f k v := by
  cases h : m.get k with
  | none =>
    rw [part_of_none h, total, total, entries_insert_of_notMem (get_eq_none.mp h)]
    simp
  | some w =>
    rw [part_of_get h, total, total, entries_insert_of_get h, map_map]
    exact sum_map_replace f k v m.entries m.nodup w (get_eq_some.mp h)

end OrderedMap

end Templar
