import Mathlib.Algebra.BigOperators.Group.Multiset.Basic
import Templar.Lib.Table

/-!
# Loads and their cover

A multiset collects what is under way, each member with a weight for every key.
`Covers` says that a table holds, for every key, at least what is under way for it.
Starting something under a key, settling it or losing it keeps the cover as long as the
table changes at that key by no less.
-/

namespace Templar

open Table

variable {Φ K V : Type}

/-- The weight of all members together. -/
def load (w : Φ → Nat) (F : Multiset Φ) : Nat := (F.map w).sum

@[simp] theorem load_zero (w : Φ → Nat) : load w 0 = 0 := rfl

@[simp] theorem load_cons (w : Φ → Nat) (φ : Φ) (F : Multiset Φ) :
    load w (φ ::ₘ F) = w φ + load w F := by
  simp [load]

theorem load_mono (w : Φ → Nat) {F F' : Multiset Φ} (h : F' ≤ F) : load w F' ≤ load w F := by
  obtain ⟨G, rfl⟩ := Multiset.le_iff_exists_add.mp h
  rw [load, load, Multiset.map_add, Multiset.sum_add]
  exact Nat.le_add_right _ _

theorem le_load (w : Φ → Nat) {φ : Φ} {F : Multiset Φ} (h : φ ∈ F) : w φ ≤ load w F := by
  obtain ⟨G, rfl⟩ := Multiset.exists_cons_of_mem h
  simp

variable [DecidableEq K]

/-- For every key the table holds what is under way for it. -/
def Covers (f : V → Nat) (t : Table K V) (w : K → Φ → Nat) (F : Multiset Φ) : Prop :=
  ∀ a, load (w a) F ≤ part f t a

namespace Covers

variable {f : V → Nat} {t : Table K V} {w : K → Φ → Nat} {F F' : Multiset Φ} {a : K} {v v' : V}

theorem empty (f : V → Nat) (w : K → Φ → Nat) : Covers f (∅ : Table K V) w 0 := by
  intro a
  simp

theorem mono (h : Covers f t w F) (hle : ∀ a, load (w a) F' ≤ load (w a) F) : Covers f t w F' :=
  fun a => Nat.le_trans (hle a) (h a)

theorem insert (h : Covers f t w F) (hv : part f t a ≤ f v) : Covers f (t.insert a v) w F := by
  intro b
  by_cases hb : b = a
  · subst hb
    rw [part_insert_same]
    exact Nat.le_trans (h b) hv
  · rw [part_insert_other f t v hb]
    exact h b

/-- One key's value and load change together; the other keys' loads do not grow. -/
theorem replace (h : Covers f (t.insert a v) w F) (ha : load (w a) F' + f v ≤ load (w a) F + f v')
    (hb : ∀ b, b ≠ a → load (w b) F' ≤ load (w b) F) : Covers f (t.insert a v') w F' := by
  intro b
  by_cases hba : b = a
  · subst hba
    have hcover := h b
    rw [part_insert_same] at hcover ⊢
    omega
  · have hcover := h b
    rw [part_insert_other f t v hba] at hcover
    rw [part_insert_other f t v' hba]
    exact Nat.le_trans (hb b hba) hcover

theorem erase (h : Covers f t w F) (ha : part f t a = 0) : Covers f (t.erase a) w F := by
  intro b
  by_cases hba : b = a
  · subst hba
    have hcover := h b
    rw [part_erase_same]
    omega
  · rw [part_erase_other f t hba]
    exact h b

theorem le_of_mem (h : Covers f (t.insert a v) w F) {φ : Φ} (hφ : φ ∈ F) : w a φ ≤ f v := by
  have hcover := h a
  rw [part_insert_same] at hcover
  exact Nat.le_trans (le_load (w a) hφ) hcover

end Covers

end Templar
