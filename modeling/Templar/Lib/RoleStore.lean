import Mathlib.Data.Finset.Card

/-!
# Who holds which role

A store of roles that is known by its interface alone: accounts are added, removed, looked up and
counted, and what it holds for a role is a finite set. Results about a program that uses one hold
for every store that keeps to this.
-/

namespace Templar

class RoleStore (S : Type) (A Role : outParam Type) where
  empty : S
  has : S → A → Role → Bool
  add : S → A → Role → S
  remove : S → A → Role → S
  count : S → Role → Nat
  /-- The accounts that hold a role. -/
  members : S → Role → Finset A
  has_iff : ∀ s a role, has s a role = true ↔ a ∈ members s role
  count_eq : ∀ s role, count s role = (members s role).card
  members_empty : ∀ role, members empty role = ∅
  mem_add : ∀ s a role b other,
    b ∈ members (add s a role) other ↔ (b = a ∧ other = role) ∨ b ∈ members s other
  mem_remove : ∀ s a role b other,
    b ∈ members (remove s a role) other ↔ ¬(b = a ∧ other = role) ∧ b ∈ members s other

namespace RoleStore

/-- Sets of accounts are such a store. -/
instance {A Role : Type} [DecidableEq A] [DecidableEq Role] : RoleStore (Role → Finset A) A Role where
  empty := fun _ => ∅
  has s a role := decide (a ∈ s role)
  add s a role := fun other => if other = role then insert a (s other) else s other
  remove s a role := fun other => if other = role then (s other).erase a else s other
  count s role := (s role).card
  members s := s
  has_iff _ _ _ := decide_eq_true_iff
  count_eq _ _ := rfl
  members_empty _ := rfl
  mem_add s a role b other := by
    by_cases h : other = role <;> simp [h]
  mem_remove s a role b other := by
    by_cases h : other = role <;> simp [h]

variable {S A Role : Type} [RoleStore S A Role] {s : S} {a : A} {role other : Role}

theorem exists_has_add (h : ∃ b, has s b other = true) : ∃ b, has (add s a role) b other = true := by
  obtain ⟨b, hb⟩ := h
  rw [has_iff] at hb
  exact ⟨b, (has_iff _ _ _).mpr ((mem_add s a role b other).mpr (.inr hb))⟩

/-- A role keeps a holder if it loses none or has two. -/
theorem exists_has_remove (h : ∃ b, has s b other = true)
    (htwo : other = role → has s a role = true → 1 < count s role) :
    ∃ b, has (remove s a role) b other = true := by
  simp only [has_iff, mem_remove] at h htwo ⊢
  obtain ⟨b, hb⟩ := h
  by_cases hgone : b = a ∧ other = role
  · obtain ⟨rfl, rfl⟩ := hgone
    rw [count_eq] at htwo
    obtain ⟨c, hc, hne⟩ := Finset.exists_mem_ne (htwo rfl hb) b
    exact ⟨c, fun h => hne h.1, hc⟩
  · exact ⟨b, hgone, hb⟩

end RoleStore

end Templar
