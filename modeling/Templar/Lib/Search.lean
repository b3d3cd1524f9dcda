import Mathlib.Algebra.Order.Ring.Nat
import Mathlib.Data.List.GetD

/-!
# Binary search in a sorted list

The search of the standard library keeps a window of places and halves it until one place is
left. In a list of strictly increasing keys it finds the one place of a key, or the place where
the key belongs.
-/

namespace Templar

/-- The last place of the window at which the search ends. -/
def narrow (keys : List Nat) (want : Nat) : Nat → Nat → Nat → Nat
  | 0, base, _ => base
  | fuel + 1, base, size =>
    if size ≤ 1 then base
    else narrow keys want fuel
      (if want < keys.getD (base + size / 2) 0 then base else base + size / 2) (size - size / 2)

/-- The place of a key, or else the place to insert it at. -/
def binarySearch (keys : List Nat) (want : Nat) : Except Nat Nat :=
  if keys.length = 0 then .error 0
  else
    let base := narrow keys want keys.length 0 keys.length
    let key := keys.getD base 0
    if key = want then .ok base else .error (if key < want then base + 1 else base)

/-- The wanted key is neither before the window nor behind it. -/
structure Window (keys : List Nat) (want base size : Nat) : Prop where
  inside : base + size ≤ keys.length
  pos : 0 < size
  low : base = 0 ∨ keys.getD base 0 ≤ want
  high : ∀ i, base + size ≤ i → i < keys.length → want < keys.getD i 0

section

variable {keys : List Nat} {want base size : Nat}

section

variable (hs : keys.Pairwise (· < ·))
include hs

theorem getD_lt_of_lt {i j : Nat} (hij : i < j)
    (hj : j < keys.length) : keys.getD i 0 < keys.getD j 0 := by
  have hi : i < keys.length := hij.trans hj
  rw [List.getD_eq_getElem _ _ hi, List.getD_eq_getElem _ _ hj]
  exact List.pairwise_iff_getElem.mp hs i j hi hj hij

theorem getD_le_of_le {i j : Nat} (hij : i ≤ j)
    (hj : j < keys.length) : keys.getD i 0 ≤ keys.getD j 0 := by
  rcases Nat.lt_or_eq_of_le hij with hlt | rfl
  · exact (getD_lt_of_lt hs hlt hj).le
  · exact Nat.le_refl _

/-- One step keeps the half that the key can be in. -/
theorem Window.step (h : Window keys want base size)
    (hsize : ¬ size ≤ 1) :
    Window keys want (if want < keys.getD (base + size / 2) 0 then base else base + size / 2)
      (size - size / 2) := by
  have hinside := h.inside
  split
  · rename_i hgt
    refine ⟨by omega, by omega, h.low, ?_⟩
    intro i hi hlen
    exact hgt.trans_le (getD_le_of_le hs (by omega) hlen)
  · rename_i hle
    refine ⟨by omega, by omega, .inr (by omega), ?_⟩
    intro i hi hlen
    exact h.high i (by omega) hlen

/-- The search ends with a window of one place. -/
theorem Window.narrow {fuel : Nat} (h : Window keys want base size)
    (hfuel : size ≤ fuel + 1) : Window keys want (narrow keys want fuel base size) 1 := by
  induction fuel generalizing base size with
  | zero =>
    have hone : size = 1 := by
      have := h.pos
      omega
    rw [← hone]
    exact h
  | succ fuel ih =>
    unfold Templar.narrow
    split
    · have hone : size = 1 := by
        have := h.pos
        omega
      rw [← hone]
      exact h
    · exact ih (h.step hs ‹_›) (by omega)

theorem window_found (hne : keys.length ≠ 0) :
    Window keys want (Templar.narrow keys want keys.length 0 keys.length) 1 := by
  refine Window.narrow hs ⟨by omega, by omega, .inl rfl, ?_⟩ (by omega)
  intro i hi hlen
  omega

end

/-- A key that is found stands at the place, and one that is not belongs there, between the smaller
and the larger ones. -/
theorem binarySearch_spec (hs : keys.Pairwise (· < ·)) (want : Nat) :
    match binarySearch keys want with
    | .ok i => keys[i]? = some want
    | .error i => i ≤ keys.length ∧ (∀ j < i, keys.getD j 0 < want) ∧
        ∀ j, i ≤ j → j < keys.length → want < keys.getD j 0 := by
  unfold binarySearch
  by_cases hempty : keys.length = 0
  · rw [if_pos hempty]
    exact ⟨Nat.zero_le _, fun j hj => absurd hj (Nat.not_lt_zero j), fun j _ hj => by omega⟩
  have hwin : Window keys want _ 1 := window_found hs hempty
  have hinside := hwin.inside
  rw [if_neg hempty]
  dsimp only
  by_cases hkey : keys.getD (Templar.narrow keys want keys.length 0 keys.length) 0 = want
  · rw [if_pos hkey]
    rw [List.getD_eq_getElem _ _ (by omega)] at hkey
    exact List.getElem?_eq_some_iff.mpr ⟨by omega, hkey⟩
  rw [if_neg hkey]
  dsimp only
  split
  · rename_i hlt
    refine ⟨hinside, ?_, fun j hj hlen => hwin.high j hj hlen⟩
    intro j hj
    have hle := getD_le_of_le hs (Nat.le_of_lt_succ hj) (by omega)
    exact hle.trans_lt hlt
  · -- the window cannot stand at a larger key unless it never moved
    have hzero : Templar.narrow keys want keys.length 0 keys.length = 0 := by
      rcases hwin.low with hzero | hle
      · exact hzero
      · omega
    refine ⟨by omega, by omega, ?_⟩
    intro j hj hlen
    have hle := getD_le_of_le hs hj hlen
    omega

end

end Templar
