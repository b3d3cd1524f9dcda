import Mathlib.Data.List.Nodup

/-!
# Duplicate-free first-in first-out lists

The abstract queue: a list of keyed values in order of arrival in which no key
stands twice. A key that is present is updated where it stands, a new one is
appended, and both ways to delete keep the order of the rest.
-/

namespace Templar

open List

/-- A queue with at most one item for each key. -/
structure Fifo (K V : Type) where
  items : List (K × V)
  nodup : (items.map Prod.fst).Nodup

namespace Fifo

variable {K V : Type}

def empty : Fifo K V := ⟨[], nodup_nil⟩

variable [DecidableEq K]

variable (f : Fifo K V)

def has (k : K) : Bool := decide (k ∈ f.items.map Prod.fst)

def value (k : K) : Option V := (f.items.find? (fun e => e.1 = k)).map Prod.snd

def replace (k : K) (v : V) (l : List (K × V)) : List (K × V) :=
  l.map (fun e => if e.1 = k then (k, v) else e)

/-- The keys stay in their order. -/
theorem keys_replace (k : K) (v : V) (l : List (K × V)) :
    (replace k v l).map Prod.fst = l.map Prod.fst := by
  simp only [replace, map_map]
  apply map_congr_left
  intro e _
  by_cases h : e.1 = k <;> simp [h]

/-- A key that is queued keeps its place. -/
def insertOrUpdate (k : K) (v : V) : Fifo K V :=
  if h : k ∈ f.items.map Prod.fst then
    ⟨replace k v f.items, by rw [keys_replace]; exact f.nodup⟩
  else
    ⟨f.items ++ [(k, v)], by
      rw [map_append]
      refine f.nodup.append (nodup_singleton _) ?_
      simpa [disjoint_singleton] using h⟩

def remove (k : K) : Fifo K V :=
  ⟨f.items.filter (fun e => e.1 ≠ k), f.nodup.sublist (filter_sublist.map _)⟩

def pop : Fifo K V := ⟨f.items.tail, f.nodup.sublist ((tail_sublist _).map _)⟩

omit [DecidableEq K] in
theorem keys_modifyHead (g : V → V) (l : List (K × V)) :
    (l.modifyHead fun e => (e.1, g e.2)).map Prod.fst = l.map Prod.fst := by
  cases l <;> rfl

def mutHead (g : V → V) : Fifo K V :=
  ⟨f.items.modifyHead fun e => (e.1, g e.2), by rw [keys_modifyHead]; exact f.nodup⟩

/-- The number of entries ahead of a key. -/
def index (k : K) : Nat := f.items.findIdx (fun e => e.1 = k)

theorem items_update {f : Fifo K V} {k : K} (h : k ∈ f.items.map Prod.fst) (v : V) :
    (f.insertOrUpdate k v).items = replace k v f.items := by
  rw [insertOrUpdate, dif_pos h]

theorem items_append {f : Fifo K V} {k : K} (h : k ∉ f.items.map Prod.fst) (v : V) :
    (f.insertOrUpdate k v).items = f.items ++ [(k, v)] := by
  rw [insertOrUpdate, dif_neg h]

section Split

variable {k : K} {v : V} {l l₁ l₂ : List (K × V)}

omit [DecidableEq K] in
theorem ne_of_notMem {e : K × V} (h : k ∉ l.map Prod.fst) (he : e ∈ l) : e.1 ≠ k := by
  rintro rfl
  exact h (mem_map_of_mem he)

theorem replace_of_notMem (h : k ∉ l.map Prod.fst) (w : V) : replace k w l = l := by
  have hid : ∀ e ∈ l, (if e.1 = k then (k, w) else e) = e := by
    intro e he
    exact if_neg (ne_of_notMem h he)
  exact (map_congr_left hid).trans (map_id' l)

theorem replace_split (h₁ : k ∉ l₁.map Prod.fst) (h₂ : k ∉ l₂.map Prod.fst) (w : V) :
    replace k w (l₁ ++ (k, v) :: l₂) = l₁ ++ (k, w) :: l₂ := by
  have hl₁ := replace_of_notMem h₁ w
  have hl₂ := replace_of_notMem h₂ w
  simp only [replace] at hl₁ hl₂ ⊢
  simp [hl₁, hl₂]

theorem filter_of_notMem (h : k ∉ l.map Prod.fst) : l.filter (fun e => e.1 ≠ k) = l := by
  apply filter_eq_self.mpr
  intro e he
  exact decide_eq_true (ne_of_notMem h he)

theorem filter_split (h₁ : k ∉ l₁.map Prod.fst) (h₂ : k ∉ l₂.map Prod.fst) :
    (l₁ ++ (k, v) :: l₂).filter (fun e => e.1 ≠ k) = l₁ ++ l₂ := by
  rw [filter_append, filter_cons, filter_of_notMem h₁, filter_of_notMem h₂]
  simp

theorem find?_of_notMem (h : k ∉ l.map Prod.fst) : l.find? (fun e => e.1 = k) = none := by
  apply find?_eq_none.mpr
  intro e he
  simpa using ne_of_notMem h he

theorem find?_split (h₁ : k ∉ l₁.map Prod.fst) :
    (l₁ ++ (k, v) :: l₂).find? (fun e => e.1 = k) = some (k, v) := by
  rw [find?_append, find?_of_notMem h₁]
  simp

theorem findIdx_split (h₁ : k ∉ l₁.map Prod.fst) :
    (l₁ ++ (k, v) :: l₂).findIdx (fun e => e.1 = k) = l₁.length := by
  induction l₁ with
  | nil => simp [findIdx_cons]
  | cons e l₁ ih =>
    have hne : e.1 ≠ k := ne_of_notMem h₁ (mem_cons_self ..)
    have ih := ih fun hk => h₁ (mem_cons_of_mem _ hk)
    simp [findIdx_cons, hne, ih]

end Split

end Fifo

end Templar
