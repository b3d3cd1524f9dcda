import Mathlib.Data.List.Sort

/-!
# Sorting that is not stable

A sort that keeps no order among equal elements is any function that returns a
sorted permutation. Results about a program that uses one hold for all of them.
-/

namespace Templar

structure UnstableSort {α : Type} (le : α → α → Bool) where
  sort : List α → List α
  perm : ∀ l, (sort l).Perm l
  sorted : ∀ l, (sort l).Pairwise fun a b => le a b = true

namespace UnstableSort

variable {α : Type} {le : α → α → Bool}

/-- For an order that is transitive and total there is one. -/
def ofInsertionSort (trans : ∀ a b c, le a b = true → le b c = true → le a c = true)
    (total : ∀ a b, le a b = true ∨ le b a = true) : UnstableSort le where
  sort l := l.insertionSort fun a b => le a b = true
  perm l := List.perm_insertionSort _ l
  sorted l :=
    have : IsTrans α fun a b => le a b = true := ⟨trans⟩
    have : Std.Total fun a b => le a b = true := ⟨total⟩
    List.pairwise_insertionSort _ l

theorem mem_sort (s : UnstableSort le) {a : α} {l : List α} : a ∈ s.sort l ↔ a ∈ l :=
  (s.perm l).mem_iff

end UnstableSort

end Templar
