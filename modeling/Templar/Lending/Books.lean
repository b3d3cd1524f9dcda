import Mathlib.Algebra.BigOperators.Group.Multiset.Basic
import Templar.Lending.Contract
import Templar.Lending.QueueRuns
import Templar.Lending.SupplySpec

/-!
# The books of a market

The books are the market, the transfers whose outcome is still to be recorded, and the
clock. Every entry point and every callback changes the books by a few moves: it takes a
snapshot, takes a position out, applies operations to it and writes it back. What holds
of new books and is kept by every move holds throughout every run.

The operations that change what a position holds or owes ask for a position that has
accrued every snapshot; the two settlements of a transfer to a supplier do not. Some
results need more of a withdrawal or of a settled borrow than the code checks: such a
need is a condition, and the moves are those that meet it.
-/

namespace Templar.Lending

open Checked Market

variable {A : Type} {m : Market A} {a : A} {e : Effect A}

/-- A transfer that was sent and not yet settled. -/
inductive Flight (A : Type) where
  | borrow (accountId : A) (initialBorrow : InitialBorrow)
  | collateral (accountId : A) (amount : Nat)
  | withdrawal (withdrawal : Withdrawal A)
  | staticYield (accountId : A) (amount : Nat)

structure Books (A : Type) where
  market : Market A
  flights : Multiset (Flight A)
  time : Nat

/-- What a result asks of the withdrawals and of the successful borrows of a run, beyond
what the code checks. -/
structure Conditions (A : Type) where
  withdrawal : SupplyPositionGuard A → Nat → Prop
  borrow : BorrowPositionGuard A → InitialBorrow → Prop

def Conditions.none : Conditions A := ⟨fun _ _ => True, fun _ _ => True⟩

/-- Operations on a supply position, with the flights before and after. -/
inductive SupplyOp [DecidableEq A] (C : Conditions A) (now : Nat)
    (g : SupplyPositionGuard A) : Multiset (Flight A) →
    SupplyPositionGuard A → Multiset (Flight A) → Prop where
  | accumulate {F g' limit} (h : g.accumulateYieldPartial limit = .ok g') : SupplyOp C now g F g' F
  | deposit {F g' amount} (hg : g.Accrued) (h : g.recordDeposit amount now = .ok g') :
      SupplyOp C now g F g' F
  | withdraw {F g' requested} {attempt : WithdrawalAttempt A} {w} (hg : g.Accrued)
      (hr : requested ≠ 0) (hc : C.withdrawal g requested)
      (h : g.recordWithdrawalInitial requested now = .ok (attempt, g'))
      (hw : attempt.withdrawal = some w) : SupplyOp C now g F g' (.withdrawal w ::ₘ F)
  | settle {F g'} {w : Withdrawal A} {success} (ha : w.accountId = g.accountId)
      (h : g.recordWithdrawalFinal w success = .ok g') : SupplyOp C now g (.withdrawal w ::ₘ F) g' F

/-- The position has accrued every finalized snapshot. -/
def BorrowPositionGuard.Accrued (g : BorrowPositionGuard A) : Prop :=
  g.position.interest.nextSnapshotIndex = g.market.finalizedSnapshots.length

/-- Operations on a borrow position, with the flights before and after. -/
inductive BorrowOp (C : Conditions A) (now : Nat) (g : BorrowPositionGuard A) :
    Multiset (Flight A) → BorrowPositionGuard A →
    Multiset (Flight A) → Prop where
  | accumulate {F g' limit} (h : g.accumulateInterestPartial limit = .ok g') :
      BorrowOp C now g F g' F
  | collateralize {F g' amount} (h : g.recordCollateralAssetDeposit amount = .ok g') :
      BorrowOp C now g F g' F
  | withdraw {F g' amount} (h : g.recordCollateralAssetWithdrawalInitial amount = .ok g') :
      BorrowOp C now g F g' (.collateral g.accountId amount ::ₘ F)
  | settleWithdrawal {F g' amount success}
      (h : g.recordCollateralAssetWithdrawalFinal amount success = .ok g') :
      BorrowOp C now g (.collateral g.accountId amount ::ₘ F) g' F
  | borrow {F g' amount pricePair initialBorrow} (hg : g.Accrued)
      (h : g.recordBorrowInitial amount pricePair now = .ok (.ok (initialBorrow, g'))) :
      BorrowOp C now g F g' (.borrow g.accountId initialBorrow ::ₘ F)
  | settleBorrow {F g' initialBorrow success} (hg : g.Accrued)
      (hc : success = true → C.borrow g initialBorrow)
      (h : g.recordBorrowFinal initialBorrow success now = .ok g') :
      BorrowOp C now g (.borrow g.accountId initialBorrow ::ₘ F) g' F
  | repay {F g' amount refund} (hg : g.Accrued) (h : g.recordRepay amount = .ok (refund, g')) :
      BorrowOp C now g F g' F
  | liquidate {F g' liquidated recovered} (hg : g.Accrued)
      (h : g.settleLiquidation liquidated recovered = .ok g') : BorrowOp C now g F g' F

/-- Changes of the withdrawal queue; no request in it is ever for nothing. -/
inductive QueueStep [DecidableEq A] (q q' : WithdrawalQueue A) : Prop where
  | insert {accountId amount} (ha : amount ≠ 0) (h : q.insertOrUpdate accountId amount = .ok q')
  | remove {accountId amount} (h : q.remove accountId = .ok (amount, q'))
  | pop {request} (h : q.pop = .ok (request, q'))
  | mutHead {remaining reply} (hr : remaining ≠ 0)
      (h : q.mutHead (fun _ => ((), remaining)) = .ok (reply, q'))

/-- A withdrawal of static yield takes from the account and from the balance. -/
theorem Market.withdrawStaticYield_eq_ok [DecidableEq A] {amount : Option Nat}
    (h : m.withdrawStaticYield a amount = .ok e) : ∃ record sent,
      m.staticYield.lookup a = some record ∧ sent ≤ record.total ∧ sent ≤ m.borrowAssetBalance ∧
      e = ({ m with
        staticYield := m.staticYield.insert a { record with total := record.total - sent }
        borrowAssetBalance := m.borrowAssetBalance - sent
        journal := m.journal ++ [.staticYieldWithdrawn sent] }, [.withdrawStaticYield01 a sent]) := by
  simp only [withdrawStaticYield, Accumulator.remove, do_ok, unwrapSub_eq_ok] at h
  obtain ⟨record, hrecord, hle, after, ⟨total, ⟨-, rfl⟩, hafter⟩, balance, ⟨hbal, rfl⟩, h⟩ := h
  cases hafter
  cases h
  exact ⟨record, _, hrecord, hle, hbal, rfl⟩

/-- A failed transfer of static yield returns to the account and to the balance. -/
theorem Market.withdrawStaticYield01Finalize_eq_ok [DecidableEq A] {amount : Nat}
    {reply : Reply} (h : m.withdrawStaticYield01Finalize reply a amount = .ok e) :
    e = (m, []) ∨ ∃ record,
      m.staticYield.lookup a = some record ∧
      e = ({ m with
        staticYield := m.staticYield.insert a { record with total := record.total + amount }
        borrowAssetBalance := m.borrowAssetBalance + amount
        journal := m.journal ++ [.staticYieldReturned amount] }, []) := by
  unfold withdrawStaticYield01Finalize at h
  split at h
  · cases h
    exact Or.inl rfl
  · simp only [Accumulator.addOnce, do_ok] at h
    obtain ⟨record, hrecord, after, ⟨total, ⟨-, rfl⟩, hafter⟩, balance, ⟨-, rfl⟩, h⟩ := h
    cases hafter
    cases h
    exact Or.inr ⟨record, hrecord, rfl⟩

/-- One move of the books. -/
inductive Move [DecidableEq A] (C : Conditions A) :
    Books A → Books A → Prop where
  | tick {m F t t'} (h : t ≤ t') (ht : t' < 2 ^ 64) : Move C ⟨m, F, t⟩ ⟨m, F, t'⟩
  | lose {m F F' t} (h : F' ≤ F) : Move C ⟨m, F, t⟩ ⟨m, F', t⟩
  | snapshot {m m' : Market A} {F t} (h : m.snapshot t = .ok m') : Move C ⟨m, F, t⟩ ⟨m', F, t⟩
  | queue {m : Market A} {q F t} (h : QueueStep m.withdrawalQueue q) :
      Move C ⟨m, F, t⟩ ⟨{ m with withdrawalQueue := q }, F, t⟩
  | openSupply {m : Market A} {a p F t} (h : m.supplyPositions.lookup a = some p) :
      Move C ⟨m, F, t⟩ ⟨SupplyPositionGuard.drop ⟨m, a, p⟩, F, t⟩
  | createSupply {m : Market A} {a} {g₁ g₂ : SupplyPositionGuard A} {amount F t}
      (h : m.supplyPositions.lookup a = none)
      (h₁ : SupplyPositionGuard.accumulateYield
        ⟨m, a, SupplyPosition.new m.finalizedSnapshots.length⟩ = .ok g₁)
      (h₂ : g₁.recordDeposit amount t = .ok g₂) : Move C ⟨m, F, t⟩ ⟨g₂.drop, F, t⟩
  | supply {g g' : SupplyPositionGuard A} {F F' t} (h : SupplyOp C t g F g' F') :
      Move C ⟨g.drop, F, t⟩ ⟨g'.drop, F', t⟩
  | cleanupSupply {m : Market A} {a} {p : SupplyPosition} {F t}
      (h : m.supplyPositions.lookup a = some p) (hp : p.canBeRemoved = .ok true) :
      Move C ⟨m, F, t⟩ ⟨{ m with supplyPositions := m.supplyPositions.erase a }, F, t⟩
  | openBorrow {m : Market A} {a p F t}
      (h : m.borrowPositions.lookup a = some p ∨
        m.borrowPositions.lookup a = none ∧ p = BorrowPosition.new m.finalizedSnapshots.length) :
      Move C ⟨m, F, t⟩ ⟨BorrowPositionGuard.drop ⟨m, a, p⟩, F, t⟩
  | borrow {g g' : BorrowPositionGuard A} {F F' t} (h : BorrowOp C t g F g' F') :
      Move C ⟨g.drop, F, t⟩ ⟨g'.drop, F', t⟩
  | cleanupBorrow {m : Market A} {a} {p : BorrowPosition} {F t}
      (h : m.borrowPositions.lookup a = some p) (hp : p.exists' = .ok false) :
      Move C ⟨m, F, t⟩ ⟨{ m with borrowPositions := m.borrowPositions.erase a }, F, t⟩
  | accumulateStaticYield {m m' : Market A} {a limit F t}
      (h : m.accumulateStaticYield a limit = .ok (some m')) : Move C ⟨m, F, t⟩ ⟨m', F, t⟩
  | withdrawStaticYield {m m' : Market A} {a amount sent F t}
      (h : m.withdrawStaticYield a amount = .ok (m', [.withdrawStaticYield01 a sent])) :
      Move C ⟨m, F, t⟩ ⟨m', .staticYield a sent ::ₘ F, t⟩
  | settleStaticYield {m m' : Market A} {a amount reply F t}
      (h : m.withdrawStaticYield01Finalize reply a amount = .ok (m', [])) :
      Move C ⟨m, .staticYield a amount ::ₘ F, t⟩ ⟨m', F, t⟩

/-- The books a run can reach. -/
inductive Booked [DecidableEq A] (C : Conditions A) : Books A → Prop where
  | new {configuration m time} (ht : time < 2 ^ 64) (h : new configuration time = .ok m) :
      Booked C ⟨m, 0, time⟩
  | move {b b'} (h : Booked C b) (hm : Move C b b') : Booked C b'

end Templar.Lending
