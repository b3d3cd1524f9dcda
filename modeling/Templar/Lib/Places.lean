import Mathlib.Algebra.Order.Ring.Nat
import Mathlib.Data.List.Basic

/-!
# Lists changed at one place

An element of a list is replaced or taken out by its place. `Sole p l o` says that at most one
element of the list has a property, namely the one in `o`; it is followed through such changes.
-/

namespace Templar

variable {α : Type} {l : List α} {i : Nat} {a : α}

/-- A list taken apart at a place. -/
theorem exists_split (h : l[i]? = some a) :
    ∃ l₁ l₂, l = l₁ ++ a :: l₂ ∧ l.eraseIdx i = l₁ ++ l₂ ∧ ∀ b, l.set i b = l₁ ++ b :: l₂ := by
  obtain ⟨hi, rfl⟩ := List.getElem?_eq_some_iff.mp h
  refine ⟨l.take i, l.drop (i + 1), ?_, List.eraseIdx_eq_take_drop_succ l i, ?_⟩
  · rw [List.getElem_cons_drop, List.take_append_drop]
  · intro b
    rw [List.set_eq_take_append_cons_drop, if_pos hi]

theorem map_set_of_eq {β : Type} {f : α → β} {b : α} (h : l[i]? = some a) (hf : f b = f a) :
    (l.set i b).map f = l.map f := by
  obtain ⟨l₁, l₂, rfl, -, hset⟩ := exists_split h
  simp [hset, hf]

theorem sum_eraseIdx {l : List Nat} {n : Nat} (h : l[i]? = some n) : n + (l.eraseIdx i).sum = l.sum := by
  obtain ⟨l₁, l₂, rfl, herase, -⟩ := exists_split h
  simp only [herase, List.sum_append, List.sum_cons]
  omega

/-- The elements with the property are those of `o`. -/
def Sole (p : α → Bool) (l : List α) (o : Option α) : Prop := l.filter p = o.toList

namespace Sole

variable {p : α → Bool} {o : Option α} {b : α}

theorem nil : Sole p [] none := rfl

theorem append_one (h : Sole p l none) (hb : p b = true) : Sole p (l ++ [b]) (some b) := by
  have hnil : l.filter p = [] := h
  simp [Sole, List.filter_append, hnil, hb]

theorem append_other (h : Sole p l o) (hb : p b = false) : Sole p (l ++ [b]) o := by
  have hl : l.filter p = o.toList := h
  simp [Sole, List.filter_append, hl, hb]

/-- The element at a place, if it has the property, is the sole one. -/
theorem at_place (h : Sole p l o) (ha : l[i]? = some a) (hp : p a = true) :
    o = some a ∧ Sole p (l.eraseIdx i) none ∧ ∀ b, p b = true → Sole p (l.set i b) (some b) := by
  obtain ⟨l₁, l₂, rfl, herase, hset⟩ := exists_split ha
  have hl : l₁.filter p ++ a :: l₂.filter p = o.toList := by
    have hf : (l₁ ++ a :: l₂).filter p = o.toList := h
    simpa [List.filter_append, hp] using hf
  have hempty : l₁.filter p = [] ∧ l₂.filter p = [] ∧ o = some a := by
    cases o with
    | none => simp at hl
    | some c =>
      cases h₁ : l₁.filter p with
      | nil =>
        simp only [h₁, List.nil_append, Option.toList_some, List.cons.injEq] at hl
        exact ⟨rfl, hl.2, congrArg some hl.1.symm⟩
      | cons d ds => simp [h₁] at hl
  obtain ⟨h₁, h₂, rfl⟩ := hempty
  refine ⟨rfl, ?_, ?_⟩
  · simp [Sole, herase, List.filter_append, h₁, h₂]
  · intro b hb
    simp [Sole, hset, List.filter_append, h₁, h₂, hb]

/-- Elements without the property come and go. -/
theorem at_other (h : Sole p l o) (ha : l[i]? = some a) (hp : p a = false) :
    Sole p (l.eraseIdx i) o ∧ ∀ b, p b = false → Sole p (l.set i b) o := by
  obtain ⟨l₁, l₂, rfl, herase, hset⟩ := exists_split ha
  have hl : l₁.filter p ++ l₂.filter p = o.toList := by
    have hf : (l₁ ++ a :: l₂).filter p = o.toList := h
    simpa [List.filter_append, hp] using hf
  refine ⟨?_, ?_⟩
  · simpa [Sole, herase, List.filter_append] using hl
  · intro b hb
    simpa [Sole, hset, List.filter_append, hb] using hl

end Sole

end Templar
