import Mathlib.Data.List.Pairwise
import Mathlib.Order.Basic

/-!
# Lists that ascend by a key

A list is extended at its end by entries whose key is above that of its last entry.
-/

namespace Templar.Ascending

open List

variable {α β : Type} [Preorder β] (key : α → β) {l : List α} {a last : α}

theorem le_getLast (h : l.Pairwise (key · < key ·)) (ha : a ∈ l) (hlast : l.getLast? = some last) :
    key a ≤ key last := by
  obtain ⟨init, rfl⟩ := getLast?_eq_some_iff.mp hlast
  rcases mem_append.mp ha with ha | ha
  · exact ((pairwise_append.mp h).2.2 a ha last (mem_singleton_self last)).le
  · rw [mem_singleton.mp ha]

theorem concat (h : l.Pairwise (key · < key ·))
    (hlast : ∀ z, l.getLast? = some z → key z < key a) : (l ++ [a]).Pairwise (key · < key ·) := by
  rw [pairwise_append]
  refine ⟨h, pairwise_singleton _ _, ?_⟩
  intro x hx b hb
  rw [mem_singleton.mp hb]
  cases hz : l.getLast? with
  | none =>
    rw [getLast?_eq_none_iff.mp hz] at hx
    cases hx
  | some z => exact lt_of_le_of_lt (le_getLast key h hx hz) (hlast z hz)

end Templar.Ascending
