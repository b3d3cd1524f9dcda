import Mathlib.Data.List.Perm.Basic
import Mathlib.Data.List.Nodup

/-!
# Lists kept in pages

A list whose members are put on pages, each on the page that its key names, is read back page
by page. With every page listed once the result is the list in another order.
-/

namespace Templar

open List

variable {α κ : Type} [DecidableEq κ]

/-- The members of a list, page after page. -/
def readPages (pageOf : α → κ) (pages : List κ) (l : List α) : List α :=
  pages.flatMap fun page => l.filter fun a => decide (pageOf a = page)

/-- Pages without repetition that hold every member hold each of them once. -/
theorem readPages_perm {pageOf : α → κ} {pages : List κ} (hnodup : pages.Nodup) :
    ∀ {l : List α}, (∀ a ∈ l, pageOf a ∈ pages) → (readPages pageOf pages l).Perm l := by
  induction pages with
  | nil =>
    intro l hcover
    cases l with
    | nil => exact .refl _
    | cons a l => cases hcover a mem_cons_self
  | cons page pages ih =>
    intro l hcover
    obtain ⟨hpage, hnodup⟩ := nodup_cons.mp hnodup
    -- the other pages only see what is not on this one
    have hrest : readPages pageOf pages l =
        readPages pageOf pages (l.filter fun a => !decide (pageOf a = page)) := by
      apply flatMap_congr
      intro other hother
      rw [filter_filter]
      apply filter_congr
      intro a _
      by_cases ha : pageOf a = other
      · have hne : pageOf a ≠ page := by
          rintro rfl
          exact hpage (ha ▸ hother)
        simp [ha, ha ▸ hne]
      · simp [ha]
    have hcovered : ∀ a ∈ l.filter fun a => !decide (pageOf a = page), pageOf a ∈ pages := by
      intro a ha
      obtain ⟨ha, hne⟩ := mem_filter.mp ha
      rcases mem_cons.mp (hcover a ha) with heq | hmem
      · simp [heq] at hne
      · exact hmem
    change ((l.filter fun a => decide (pageOf a = page)) ++ readPages pageOf pages l).Perm l
    rw [hrest]
    exact ((ih hnodup hcovered).append_left _).trans (filter_append_perm _ l)

end Templar
