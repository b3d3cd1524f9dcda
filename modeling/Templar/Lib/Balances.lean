import Templar.Lib.Table

/-!
# Balances of a token

A table of balances with minting, burning and transfers. Burning and transfers are refused when
the account holds less than the amount.
-/

namespace Templar

open Table

abbrev Balances (K : Type) := Table K Nat

namespace Balances

variable {K : Type} [DecidableEq K]

variable (b : Balances K)

def balance (a : K) : Nat := part (fun n => n) b a

def supply : Nat := total (fun n => n) b

def mint (a : K) (n : Nat) : Balances K := b.insert a (b.balance a + n)

def burn (a : K) (n : Nat) : Option (Balances K) :=
  if n ≤ b.balance a then some (b.insert a (b.balance a - n)) else none

def transfer (source target : K) (n : Nat) : Option (Balances K) :=
  (b.burn source n).map (fun c => c.mint target n)

variable {b c : Balances K} {a x : K} {n : Nat}

@[simp] theorem balance_mint_same : (b.mint a n).balance a = b.balance a + n :=
  part_insert_same _ b a _

theorem balance_mint_other (h : x ≠ a) : (b.mint a n).balance x = b.balance x :=
  part_insert_other _ b _ h

@[simp] theorem supply_mint : (b.mint a n).supply = b.supply + n := by
  have h := total_insert (fun n => n) b a (b.balance a + n)
  change (b.mint a n).supply + b.balance a = b.balance a + n + b.supply at h
  omega

theorem burn_isSome : (b.burn a n).isSome = true ↔ n ≤ b.balance a := by
  unfold burn
  split <;> simp_all

theorem burn_eq_some (h : b.burn a n = some c) :
    n ≤ b.balance a ∧ c.balance a = b.balance a - n ∧ c.supply + n = b.supply ∧
      ∀ x, x ≠ a → c.balance x = b.balance x := by
  unfold burn at h
  split at h
  · rename_i hle
    cases h
    refine ⟨hle, part_insert_same _ b a _, ?_, ?_⟩
    · have h := total_insert (fun n => n) b a (b.balance a - n)
      change supply _ + b.balance a = b.balance a - n + b.supply at h
      omega
    · intro x hx
      exact part_insert_other _ b _ hx
  · cases h

theorem transfer_isSome : (b.transfer a x n).isSome = true ↔ n ≤ b.balance a := by
  rw [transfer, Option.isSome_map, burn_isSome]

/-- A transfer between two accounts. -/
theorem transfer_eq_some (hne : x ≠ a) (h : b.transfer a x n = some c) :
    n ≤ b.balance a ∧ c.balance a = b.balance a - n ∧ c.balance x = b.balance x + n ∧
      c.supply = b.supply := by
  obtain ⟨d, hd, rfl⟩ := Option.map_eq_some_iff.mp h
  obtain ⟨hle, hsame, hsupply, hother⟩ := burn_eq_some hd
  refine ⟨hle, ?_, ?_, ?_⟩
  · rw [balance_mint_other hne.symm, hsame]
  · rw [balance_mint_same, hother x hne]
  · rw [supply_mint, hsupply]

end Balances

end Templar
