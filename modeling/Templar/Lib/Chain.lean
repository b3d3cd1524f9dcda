import Mathlib.Data.List.Nodup
import Mathlib.Logic.Function.Basic

/-!
# Doubly linked chains

Cells live in a store that is only ever read through a lookup function.
`Segment get p l e` says that following the links lists exactly `l`, that the cell
before the first one is `p` and the one after the last is `e`. A segment splits
wherever its list does, and a write to one cell leaves the segments it is not part
of alone; linking, unlinking and updating a cell are put together from these two
facts.
-/

namespace Templar.Chain

open Function

structure Cell (Id α : Type) where
  content : α
  prev : Option Id
  next : Option Id

variable {Id α : Type} {l l₁ l₂ : List (Id × α)} {c : Id × α} {i : Id}

def first (l : List (Id × α)) (e : Option Id) : Option Id :=
  match l with
  | [] => e
  | c :: _ => some c.1

def last : List (Id × α) → Option Id → Option Id
  | [], p => p
  | c :: l, _ => last l (some c.1)

def Segment (get : Id → Option (Cell Id α)) : Option Id → List (Id × α) → Option Id → Prop
  | _, [], _ => True
  | p, c :: l, e => get c.1 = some ⟨c.2, p, first l e⟩ ∧ Segment get (some c.1) l e

@[simp] theorem first_nil (e : Option Id) : first ([] : List (Id × α)) e = e := rfl

@[simp] theorem first_cons (c : Id × α) (l : List (Id × α)) (e : Option Id) :
    first (c :: l) e = some c.1 := rfl

@[simp] theorem last_nil (p : Option Id) : last ([] : List (Id × α)) p = p := rfl

@[simp] theorem last_cons (c : Id × α) (l : List (Id × α)) (p : Option Id) :
    last (c :: l) p = last l (some c.1) := rfl

theorem first_append (l₁ l₂ : List (Id × α)) (e : Option Id) :
    first (l₁ ++ l₂) e = first l₁ (first l₂ e) := by
  cases l₁ <;> rfl

theorem last_append (l₁ l₂ : List (Id × α)) (p : Option Id) :
    last (l₁ ++ l₂) p = last l₂ (last l₁ p) := by
  induction l₁ generalizing p with
  | nil => rfl
  | cons c l₁ ih => exact ih (some c.1)

theorem last_of_ne_nil (h : l ≠ []) (p p' : Option Id) : last l p = last l p' := by
  cases l with
  | nil => exact absurd rfl h
  | cons c l => rfl

theorem first_of_ne_nil (h : l ≠ []) (e e' : Option Id) : first l e = first l e' := by
  cases l with
  | nil => exact absurd rfl h
  | cons c l => rfl

variable {get get' : Id → Option (Cell Id α)} {p e : Option Id}

theorem segment_append : Segment get p (l₁ ++ l₂) e ↔
      Segment get p l₁ (first l₂ e) ∧ Segment get (last l₁ p) l₂ e := by
  induction l₁ generalizing p with
  | nil => simp [Segment]
  | cons c l₁ ih => simp [Segment, ih, first_append, and_assoc]

/-- A segment depends only on the cells it lists. -/
theorem Segment.congr (h : Segment get p l e) (hget : ∀ c ∈ l, get' c.1 = get c.1) :
    Segment get' p l e := by
  induction l generalizing p with
  | nil => trivial
  | cons c l ih =>
    obtain ⟨hc, hl⟩ := h
    refine ⟨?_, ih hl fun d hd => hget d (List.mem_cons_of_mem _ hd)⟩
    rw [hget c (List.mem_cons_self ..)]
    exact hc

/-- The cell in the middle of a segment points to both its neighbours. -/
theorem Segment.get_middle (h : Segment get p (l₁ ++ c :: l₂) e) :
    get c.1 = some ⟨c.2, last l₁ p, first l₂ e⟩ :=
  (segment_append.mp h).2.1

variable [DecidableEq Id]

theorem Segment.update_other {c : Option (Cell Id α)} (h : Segment get p l e)
    (hi : i ∉ l.map Prod.fst) : Segment (update get i c) p l e := by
  refine h.congr fun d hd => update_of_ne ?_ _ _
  rintro rfl
  exact hi (List.mem_map_of_mem hd)

/-- Redirecting the forward link of the last cell moves the end of the segment. -/
theorem Segment.set_next {e' : Option Id} (h : Segment get p (l ++ [c]) e)
    (hc : c.1 ∉ l.map Prod.fst) :
    Segment (update get c.1 (some ⟨c.2, last l p, e'⟩)) p (l ++ [c]) e' := by
  obtain ⟨hl, -⟩ := segment_append.mp h
  exact segment_append.mpr ⟨hl.update_other hc, by simp [Segment]⟩

/-- Redirecting the backward link of the first cell moves its start. -/
theorem Segment.set_prev {p' : Option Id} (h : Segment get p (c :: l) e) (hc : c.1 ∉ l.map Prod.fst) :
    Segment (update get c.1 (some ⟨c.2, p', first l e⟩)) p' (c :: l) e :=
  ⟨update_self .., h.2.update_other hc⟩

theorem Segment.set_content {a b : α} (h : Segment get p (l₁ ++ (i, a) :: l₂) e)
    (h₁ : i ∉ l₁.map Prod.fst) (h₂ : i ∉ l₂.map Prod.fst) :
    Segment (update get i (some ⟨b, last l₁ p, first l₂ e⟩)) p (l₁ ++ (i, b) :: l₂) e := by
  obtain ⟨hl₁, -, hl₂⟩ := segment_append.mp h
  exact segment_append.mpr ⟨hl₁.update_other h₁, update_self .., hl₂.update_other h₂⟩

end Templar.Chain
