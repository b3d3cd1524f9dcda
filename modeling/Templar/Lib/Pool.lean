import Mathlib.Algebra.Order.Ring.Nat
import Mathlib.Tactic.Ring
import Mathlib.Tactic.Linarith

/-!
# A pool of assets and its shares

Prices of a share are compared by multiplying out. A trade that gives no more shares than the
price allows, or takes no fewer, never lowers the price; and whoever starts without shares and
trades against a price that never falls takes out no more than they put in.
-/

namespace Templar

structure Pool where
  assets : Nat
  shares : Nat
  deriving DecidableEq, Repr

namespace Pool

/-- A share of `q` is worth at least a share of `p`. -/
def PriceLe (p q : Pool) : Prop := p.assets * q.shares ≤ q.assets * p.shares

variable {p q r : Pool} {a n : Nat}

theorem PriceLe.refl (p : Pool) : p.PriceLe p := Nat.le_refl _

theorem PriceLe.trans (hpq : p.PriceLe q) (hqr : q.PriceLe r) (hq : 0 < q.shares) : p.PriceLe r := by
  unfold PriceLe at *
  apply Nat.le_of_mul_le_mul_right _ hq
  calc p.assets * r.shares * q.shares = p.assets * q.shares * r.shares := by ring
    _ ≤ q.assets * p.shares * r.shares := Nat.mul_le_mul_right _ hpq
    _ = q.assets * r.shares * p.shares := by ring
    _ ≤ r.assets * q.shares * p.shares := Nat.mul_le_mul_right _ hqr
    _ = r.assets * p.shares * q.shares := by ring

/-- `n` shares for `a` assets, rounded against the one who joins. -/
theorem priceLe_join (h : n * p.assets ≤ a * p.shares) :
    p.PriceLe ⟨p.assets + a, p.shares + n⟩ := by
  unfold PriceLe
  dsimp only
  linarith [Nat.mul_add p.assets p.shares n, Nat.add_mul p.assets a p.shares,
    Nat.mul_comm n p.assets]

/-- `a` assets for `n` shares, rounded against the one who leaves. -/
theorem priceLe_leave (ha : a ≤ p.assets) (hn : n ≤ p.shares) (h : a * p.shares ≤ n * p.assets) :
    p.PriceLe ⟨p.assets - a, p.shares - n⟩ := by
  unfold PriceLe
  dsimp only
  obtain ⟨A, hA⟩ := Nat.exists_eq_add_of_le ha
  obtain ⟨S, hS⟩ := Nat.exists_eq_add_of_le hn
  rw [hA, hS] at h ⊢
  rw [Nat.add_sub_cancel_left, Nat.add_sub_cancel_left]
  linarith [Nat.mul_add a n S, Nat.mul_add n a A, Nat.add_mul a A S, Nat.mul_add A n S,
    Nat.mul_comm a n, Nat.mul_comm A n]

/-- Shares held at a price that did not fall are worth what was put in for them, so no more was
taken out than put in. -/
theorem received_le_paid {holdings paid received : Nat} (h : p.PriceLe q) (hp : 0 < p.shares)
    (hshares : q.shares = p.shares + holdings) (hassets : q.assets + received = p.assets + paid) :
    received ≤ paid := by
  unfold PriceLe at h
  rw [hshares] at h
  have hle : p.assets ≤ q.assets := by
    apply Nat.le_of_mul_le_mul_right _ hp
    calc p.assets * p.shares ≤ p.assets * (p.shares + holdings) :=
          Nat.mul_le_mul_left _ (Nat.le_add_right _ _)
      _ ≤ q.assets * p.shares := h
  omega

end Pool

end Templar
