import Mathlib.Data.List.AList
import Mathlib.Algebra.BigOperators.Group.List.Basic
import Mathlib.Algebra.Order.BigOperators.Group.List
import Mathlib.Algebra.Order.Ring.Nat

/-!
# Keyed tables and their totals

A key-value store is an association list without repeated keys. `Table.total f`
adds `f` up over the stored values; writing or erasing one entry moves the total
by exactly the contribution of that entry. An absent key contributes zero, so
the same equation covers the creation of an entry and its update.
-/

namespace Templar

open List

abbrev Table (K V : Type) := AList (fun _ : K => V)

namespace Table

variable {K V : Type} {f : V → Nat} {t : Table K V} {a b : K} {v : V} {P : K → V → Prop}
  {p : V → Bool}

def total (f : V → Nat) (t : Table K V) : Nat := (t.entries.map (fun e => f e.2)).sum

@[simp] theorem total_empty (f : V → Nat) : total f (∅ : Table K V) = 0 := rfl

theorem total_add (f g : V → Nat) (t : Table K V) :
    total (fun v => f v + g v) t = total f t + total g t := by
  unfold total
  induction t.entries with
  | nil => rfl
  | cons e l ih =>
    simp only [map_cons, sum_cons, ih]
    omega

variable [DecidableEq K]

/-- The contribution of one key; an absent key contributes nothing. -/
def part (f : V → Nat) (t : Table K V) (a : K) : Nat := (t.lookup a).elim 0 f

theorem part_of_lookup (h : t.lookup a = some v) : part f t a = f v := by simp [part, h]

theorem part_of_none (h : t.lookup a = none) : part f t a = 0 := by simp [part, h]

section

variable (f : V → Nat) (t : Table K V)

@[simp] theorem part_insert_same (a : K) (v : V) : part f (t.insert a v) a = f v := by simp [part]

theorem part_insert_other (v : V) (h : b ≠ a) :
    part f (t.insert a v) b = part f t b := by simp [part, AList.lookup_insert_ne h]

@[simp] theorem part_erase_same (a : K) : part f (t.erase a) a = 0 := by simp [part]

theorem part_erase_other (h : b ≠ a) :
    part f (t.erase a) b = part f t b := by simp [part, AList.lookup_erase_ne h]

end

theorem lookup_of_erase (h : (t.erase a).lookup b = some v) : b ≠ a ∧ t.lookup b = some v := by
  by_cases hb : b = a
  · subst hb
    rw [AList.lookup_erase] at h
    cases h
  · rw [AList.lookup_erase_ne hb] at h
    exact ⟨hb, h⟩

section

variable (f : V → Nat) (t : Table K V) (a : K)

theorem total_erase : total f (t.erase a) + part f t a = total f t := by
  by_cases ha : a ∈ t
  · obtain ⟨b, l₁, l₂, -, hl, he⟩ := exists_of_kerase (AList.mem_keys.mp ha)
    have hb : t.lookup a = some b := by
      apply AList.mem_lookup_iff.mpr
      rw [hl]
      simp
    have he : (t.erase a).entries = l₁ ++ l₂ := he
    rw [part_of_lookup hb, total, total, he, hl]
    simp only [map_append, map_cons, sum_append, sum_cons]
    omega
  · have hn : t.lookup a = none := AList.lookup_eq_none.mpr ha
    have he : t.erase a = t := AList.ext (kerase_of_notMem_keys (fun h => ha h))
    rw [part_of_none hn, he]
    omega

theorem total_insert_erase (v : V) : total f (t.insert a v) = f v + total f (t.erase a) := rfl

/-- One write replaces the key's contribution and leaves every other alone. -/
theorem total_insert (v : V) : total f (t.insert a v) + part f t a = f v + total f t := by
  have h := total_erase f t a
  rw [total_insert_erase]
  omega

/-- Of two writes to one key, the second takes the place of the first. -/
theorem total_replace (v w : V) : total f (t.insert a w) + f v = total f (t.insert a v) + f w := by
  simp only [total_insert_erase]
  omega

theorem part_le_total : part f t a ≤ total f t := by
  have h := total_erase f t a
  omega

end

theorem le_total (h : t.lookup a = some v) : f v ≤ total f t := by
  rw [← part_of_lookup (f := f) h]
  exact part_le_total f t a

/-- A bound on every entry bounds the total. -/
theorem total_le_sum {g : K → Nat} (h : ∀ a, part f t a ≤ g a) :
    total f t ≤ (t.keys.map g).sum := by
  have hle : ∀ e ∈ t.entries, f e.2 ≤ g e.1 := by
    intro e he
    have hlookup : t.lookup e.1 = some e.2 := AList.mem_lookup_iff.mpr he
    rw [← part_of_lookup (f := f) hlookup]
    exact h e.1
  unfold total AList.keys keys
  rw [map_map]
  exact sum_le_sum hle

theorem total_congr {g : V → Nat} (h : ∀ a v, t.lookup a = some v → f v = g v) :
    total f t = total g t := by
  unfold total
  congr 1
  apply map_congr_left
  intro e he
  exact h e.1 e.2 (AList.mem_lookup_iff.mpr he)

theorem total_eq_zero (h : ∀ a v, t.lookup a = some v → f v = 0) : total f t = 0 := by
  rw [total_congr (g := fun _ => 0) h]
  simp [total]

/-- Distinct keys contribute at most the whole. -/
theorem sum_part_le_total (f : V → Nat) (l : List K) (t : Table K V) (hl : l.Nodup) :
    (l.map (part f t)).sum ≤ total f t := by
  induction l generalizing t with
  | nil => simp
  | cons a l ih =>
    obtain ⟨ha, hl⟩ := nodup_cons.mp hl
    have hrest : l.map (part f t) = l.map (part f (t.erase a)) := by
      apply map_congr_left
      intro b hb
      have hne : b ≠ a := by rintro rfl; exact ha hb
      exact (part_erase_other f t hne).symm
    have h := ih (t.erase a) hl
    have he := total_erase f t a
    rw [map_cons, sum_cons, hrest]
    omega

/-- A property of all stored values survives a write of a value that has it. -/
theorem forall_insert (h : ∀ b w, t.lookup b = some w → P b w) (hv : P a v) :
    ∀ b w, (t.insert a v).lookup b = some w → P b w := by
  intro b w hb
  by_cases hba : b = a
  · subst hba
    rw [AList.lookup_insert] at hb
    cases hb
    exact hv
  · rw [AList.lookup_insert_ne hba] at hb
    exact h b w hb

/-- The second of two writes to one key keeps what held of the other keys. -/
theorem forall_replace {Q : K → V → Prop} {w : V}
    (h : ∀ b u, (t.insert a v).lookup b = some u → P b u) (hPQ : ∀ b u, P b u → Q b u) (hw : Q a w) :
    ∀ b u, (t.insert a w).lookup b = some u → Q b u := by
  intro b u hb
  by_cases hba : b = a
  · subst hba
    rw [AList.lookup_insert] at hb
    cases hb
    exact hw
  · rw [AList.lookup_insert_ne hba] at hb
    exact hPQ b u (h b u (by rw [AList.lookup_insert_ne hba]; exact hb))

theorem forall_erase (h : ∀ b w, t.lookup b = some w → P b w) :
    ∀ b w, (t.erase a).lookup b = some w → P b w := by
  intro b w hb
  by_cases hba : b = a
  · subst hba
    simp at hb
  · rw [AList.lookup_erase_ne hba] at hb
    exact h b w hb

def retain (p : V → Bool) (t : Table K V) : Table K V :=
  ⟨t.entries.filter (fun e => p e.2), t.nodupKeys.sublist filter_sublist⟩

omit [DecidableEq K] in
theorem mem_entries_retain {e : Sigma fun _ : K => V} :
    e ∈ (t.retain p).entries ↔ e ∈ t.entries ∧ p e.2 = true := mem_filter

theorem lookup_retain_eq_some :
    (t.retain p).lookup a = some v ↔ t.lookup a = some v ∧ p v = true := by
  constructor
  · intro h
    obtain ⟨hmem, hp⟩ := mem_entries_retain.mp (AList.mem_lookup_iff.mp h)
    exact ⟨AList.mem_lookup_iff.mpr hmem, hp⟩
  · rintro ⟨h, hp⟩
    exact AList.mem_lookup_iff.mpr (mem_entries_retain.mpr ⟨AList.mem_lookup_iff.mp h, hp⟩)

end Table

end Templar
