import Templar.Lending.Books

/-!
# What the operations on a borrow position do

`BorrowEffect` says of every operation of the guard which checks have held and what it has
done, with the flights before and after; repayments and liquidations are payments. The lemmas
about runs take the operations apart by it. Then the same for the yield of static accounts.
-/

namespace Templar.Lending

open Checked BorrowPositionGuard BorrowPosition JournalEntry Market

variable {A : Type}

namespace BorrowPositionGuard

/-- What a position owes interest on. -/
def owed (p : BorrowPosition) : Nat := p.borrowAssetPrincipal + p.borrowAssetInFlight

/-- What returns to the position when a collateral transfer is settled. -/
def returned (amount : Nat) (success : Bool) : Nat := if success then 0 else amount

/-- What becomes principal when a borrow is settled. -/
def lent (amount : Nat) (success : Bool) : Nat := if success then amount else 0

end BorrowPositionGuard

open BorrowPositionGuard in
/-- What an operation on a borrow position has checked and done. -/
inductive BorrowEffect (C : Conditions A) (g : BorrowPositionGuard A) :
    Multiset (Flight A) → BorrowPositionGuard A → Multiset (Flight A) → Prop where
  | interest {F stop} {interest : Accumulator} {entries}
      (hfrom : g.position.interest.nextSnapshotIndex ≤ stop)
      (hstop : stop ≤ g.market.finalizedSnapshots.length) (hnext : interest.nextSnapshotIndex = stop)
      (hpassed : Passed interestShare g.accountId (fun _ => owed g.position)
        (InterestRule g.market (owed g.position)) g.position.interest.nextSnapshotIndex stop entries) :
      BorrowEffect C g F { g with
        position.interest := interest
        market.journal := g.market.journal ++ entries } F
  | deposit {F amount} : BorrowEffect C g F { g with
      position.collateralAssetDeposit := g.position.collateralAssetDeposit + amount
      market.collateralAssetDeposited := g.market.collateralAssetDeposited + amount } F
  | withdraw {F amount} (hp : amount ≤ g.position.collateralAssetDeposit)
      (hm : amount ≤ g.market.collateralAssetDeposited) : BorrowEffect C g F { g with
        position.collateralAssetDeposit := g.position.collateralAssetDeposit - amount
        position.collateralAssetInFlight := g.position.collateralAssetInFlight + amount
        market.collateralAssetDeposited := g.market.collateralAssetDeposited - amount }
      (.collateral g.accountId amount ::ₘ F)
  | settleWithdrawal {F amount} (success : Bool)
      (hle : amount ≤ g.position.collateralAssetInFlight) :
      BorrowEffect C g (.collateral g.accountId amount ::ₘ F) { g with
        position.collateralAssetInFlight := g.position.collateralAssetInFlight - amount
        position.collateralAssetDeposit := g.position.collateralAssetDeposit + returned amount success
        market.collateralAssetDeposited :=
          g.market.collateralAssetDeposited + returned amount success } F
  | borrow {F distribution} (initialBorrow : InitialBorrow) (hg : g.Accrued)
      (havailable : initialBorrow.amount ≤ g.market.borrowAssetDepositedActive -
        (g.market.borrowAssetBorrowed + g.market.borrowAssetBorrowedInFlight))
      (hrange : g.market.configuration.borrowRange.contains
        (owed g.position + initialBorrow.amount) = true)
      (hbalance : initialBorrow.amount ≤ g.market.borrowAssetBalance) : BorrowEffect C g F { g with
        position.borrowAssetInFlight := g.position.borrowAssetInFlight + initialBorrow.amount
        position.fees := g.position.fees + initialBorrow.fees
        market.borrowAssetBorrowedInFlight :=
          g.market.borrowAssetBorrowedInFlight + initialBorrow.amount
        market.currentYieldDistribution := distribution
        market.borrowAssetBalance := g.market.borrowAssetBalance - initialBorrow.amount }
      (.borrow g.accountId initialBorrow ::ₘ F)
  | settleBorrow {F} {b : InitialBorrow} {startedAt} (success : Bool) (hg : g.Accrued)
      (hc : success = true → C.borrow g b)
      (hm : b.amount ≤ g.market.borrowAssetBorrowedInFlight)
      (hp : b.amount ≤ g.position.borrowAssetInFlight) :
      BorrowEffect C g (.borrow g.accountId b ::ₘ F) { g with
        position.borrowAssetInFlight := g.position.borrowAssetInFlight - b.amount
        position.borrowAssetPrincipal := g.position.borrowAssetPrincipal + lent b.amount success
        position.startedAtBlockTimestampMs := startedAt
        market.borrowAssetBorrowedInFlight := g.market.borrowAssetBorrowedInFlight - b.amount
        market.borrowAssetBorrowed := g.market.borrowAssetBorrowed + lent b.amount success
        market.borrowAssetBalance := g.market.borrowAssetBalance + returned b.amount success } F
  | pay {F} {r : LiabilityReduction}
      {startedAt deposit deposited rest balance distribution journal} (kept : Nat) (hg : g.Accrued)
      (hcollateral : deposited + g.position.collateralAssetDeposit =
        g.market.collateralAssetDeposited + deposit)
      (hp : r.toPrincipal = amountToPrincipal g.position.borrowAssetPrincipal
        g.market.configuration.borrowRange.minimum rest)
      (hb : r.toPrincipal ≤ g.market.borrowAssetBorrowed)
      (hbalance : balance = g.market.borrowAssetBalance + r.toFees + r.toInterest + r.toPrincipal + kept)
      (hjournal : journal = g.market.journal ∧ kept = 0 ∨
        journal = g.market.journal ++ [.liquidationKept kept]) : BorrowEffect C g F { g with
        position.collateralAssetDeposit := deposit
        position.fees := g.position.fees - r.toFees
        position.interest.total := g.position.interest.total - r.toInterest
        position.borrowAssetPrincipal := g.position.borrowAssetPrincipal - r.toPrincipal
        position.startedAtBlockTimestampMs := startedAt
        market.collateralAssetDeposited := deposited
        market.borrowAssetPaidToFees := g.market.borrowAssetPaidToFees + (r.toFees + r.toInterest)
        market.borrowAssetBorrowed := g.market.borrowAssetBorrowed - r.toPrincipal
        market.currentYieldDistribution := distribution
        market.borrowAssetBalance := balance
        market.journal := journal } F

namespace BorrowPositionGuard

variable {C : Conditions A} {F : Multiset (Flight A)} {amount now : Nat}
  {success : Bool} {pricePair : PricePair}
variable {g g' : BorrowPositionGuard A}

theorem accumulateInterestPartial_eq_ok {limit : Nat}
    (h : g.accumulateInterestPartial limit = .ok g') :
    ∃ stop interest entries,
      stop = g.position.interest.nextSnapshotIndex +
        min limit (g.market.finalizedSnapshots.length - g.position.interest.nextSnapshotIndex) ∧
      1 ≤ g.position.interest.nextSnapshotIndex ∧
      g.position.interest.nextSnapshotIndex ≤ g.market.finalizedSnapshots.length ∧
      owed g.position < 2 ^ 128 ∧
      interest.nextSnapshotIndex = stop ∧
      Passed interestShare g.accountId (fun _ => owed g.position)
        (InterestRule g.market (owed g.position)) g.position.interest.nextSnapshotIndex stop entries ∧
      g' = { g with
        position := { g.position with interest := interest }
        market := { g.market with journal := g.market.journal ++ entries } } := by
  simp only [accumulateInterestPartial, calculateInterest, getBorrowAssetPrincipal, do_ok] at h
  obtain ⟨⟨record, entries⟩, ⟨principal, ⟨hlt, rfl⟩, prevEnd, hprev, ⟨accumulated, l⟩, hloop,
    amount, -, hcalc⟩, interest, hinterest, h⟩ := h
  cases hcalc
  cases h
  obtain ⟨hpos, hle, hs₀⟩ := previousEnd_eq_ok hprev
  have hend := accrueLoop_invariant (fun k (x : Decimal × List (JournalEntry A)) =>
      g.position.interest.nextSnapshotIndex ≤ k ∧
      Passed interestShare g.accountId (fun _ => owed g.position)
        (InterestRule g.market (owed g.position)) g.position.interest.nextSnapshotIndex k x.2)
    (fun k s prevEnd x x' hat hx hstep => by
      simp only [interestStep, do_ok] at hstep
      obtain ⟨d, hd, _, -, rfl⟩ := hstep
      exact ⟨Nat.le_succ_of_le hx.1, hx.2.snoc hx.1 rfl ⟨s, prevEnd, d, hat, hd, rfl⟩⟩)
    hpos hs₀ hloop ⟨Nat.le_refl _, passed_nil _⟩
  obtain ⟨-, hnext, -⟩ := SupplyPositionGuard.accumulate_eq_ok hinterest
  rw [g.market.pendingSnapshots_length] at hnext
  rw [List.length_take, List.length_drop] at hend
  exact ⟨_, interest, l, rfl, hpos, hle, hlt, hnext, hend.2, rfl⟩

theorem recordCollateralAssetDeposit_eq_ok (h : g.recordCollateralAssetDeposit amount = .ok g') :
    g' = { g with
      position := { g.position with
        collateralAssetDeposit := g.position.collateralAssetDeposit + amount }
      market := { g.market with
        collateralAssetDeposited := g.market.collateralAssetDeposited + amount } } := by
  simp only [recordCollateralAssetDeposit, do_ok] at h
  obtain ⟨deposit, ⟨-, rfl⟩, deposited, ⟨-, rfl⟩, rfl⟩ := h
  rfl

theorem recordCollateralAssetWithdrawal_eq_ok
    (h : g.recordCollateralAssetWithdrawal amount = .ok g') :
    amount ≤ g.position.collateralAssetDeposit ∧ amount ≤ g.market.collateralAssetDeposited ∧
      g' = { g with
        position := { g.position with
          collateralAssetDeposit := g.position.collateralAssetDeposit - amount }
        market := { g.market with
          collateralAssetDeposited := g.market.collateralAssetDeposited - amount } } := by
  simp only [recordCollateralAssetWithdrawal, do_ok] at h
  obtain ⟨deposit, ⟨h₁, rfl⟩, deposited, ⟨h₂, rfl⟩, rfl⟩ := h
  exact ⟨h₁, h₂, rfl⟩

theorem recordCollateralAssetWithdrawalInitial_effect
    (h : g.recordCollateralAssetWithdrawalInitial amount = .ok g') :
    BorrowEffect C g F g' (.collateral g.accountId amount ::ₘ F) := by
  simp only [recordCollateralAssetWithdrawalInitial, do_ok] at h
  obtain ⟨inFlight, ⟨-, rfl⟩, h⟩ := h
  obtain ⟨hp, hm, rfl⟩ := recordCollateralAssetWithdrawal_eq_ok h
  exact .withdraw hp hm

theorem recordCollateralAssetWithdrawalFinal_effect
    (h : g.recordCollateralAssetWithdrawalFinal amount success = .ok g') :
    BorrowEffect C g (.collateral g.accountId amount ::ₘ F) g' F := by
  simp only [recordCollateralAssetWithdrawalFinal, do_ok, unwrapSub_eq_ok] at h
  obtain ⟨inFlight, ⟨hle, rfl⟩, h⟩ := h
  cases success with
  | true =>
    cases h
    exact .settleWithdrawal true hle
  | false =>
    rw [recordCollateralAssetDeposit_eq_ok h]
    exact .settleWithdrawal false hle

theorem amountToPrincipal_le (principal minimum amount : Nat) :
    amountToPrincipal principal minimum amount ≤ principal := by
  unfold amountToPrincipal
  split <;> omega

/-- A payment splits over fees, interest, principal and a rest. -/
theorem reduceBorrowAssetLiability_eq_ok {reduction : LiabilityReduction}
    (h : g.reduceBorrowAssetLiability amount = .ok (reduction, g')) : ∃ startedAt,
      reduction.toFees + reduction.toInterest + reduction.toPrincipal + reduction.toRefund = amount ∧
      reduction.toPrincipal = amountToPrincipal g.position.borrowAssetPrincipal
        g.market.configuration.borrowRange.minimum
        (amount - reduction.toFees - reduction.toInterest) ∧
      reduction.toPrincipal ≤ g.market.borrowAssetBorrowed ∧
      g' = { g with
        position := { g.position with
          fees := g.position.fees - reduction.toFees
          interest := { g.position.interest with
            total := g.position.interest.total - reduction.toInterest }
          borrowAssetPrincipal := g.position.borrowAssetPrincipal - reduction.toPrincipal
          startedAtBlockTimestampMs := startedAt }
        market := { g.market with
          borrowAssetPaidToFees :=
            g.market.borrowAssetPaidToFees + (reduction.toFees + reduction.toInterest)
          borrowAssetBorrowed := g.market.borrowAssetBorrowed - reduction.toPrincipal } } := by
  simp only [reduceBorrowAssetLiability, Accumulator.remove, do_ok, unwrapSub_eq_ok] at h
  obtain ⟨rest₁, ⟨hle₁, rfl⟩, fees, ⟨-, rfl⟩, rest₂, ⟨hle₂, rfl⟩, interest, ⟨total, ⟨-, rfl⟩, rfl⟩,
    paid, ⟨-, rfl⟩, paidToFees, ⟨-, rfl⟩, rest₃, ⟨hle₃, rfl⟩, principal, ⟨-, rfl⟩, borrowed,
    ⟨hb, rfl⟩, rfl, rfl⟩ := h
  exact ⟨_, by simp only; omega, rfl, hb, rfl⟩

/-- A borrow that was started fits into what is left to borrow and into the range. -/
theorem recordBorrowInitial_effect {initialBorrow : InitialBorrow} (hg : g.Accrued)
    (h : g.recordBorrowInitial amount pricePair now = .ok (.ok (initialBorrow, g'))) :
    BorrowEffect C g F g' (.borrow g.accountId initialBorrow ::ₘ F) := by
  simp only [recordBorrowInitial, getBorrowAssetAvailableToBorrow, borrowed, do_ok] at h
  obtain ⟨available, ⟨-, -, -, -, retained, -, borrowed, ⟨-, rfl⟩, rfl⟩, hav, fees?, -, h⟩ := h
  cases fees? with
  | none => cases h
  | some fees =>
    simp only [withinAllowableBorrowRange, getBorrowAssetPrincipal, do_ok, Bool.not_eq_eq_eq_not,
      Bool.not_true, Bool.not_eq_false] at h
    obtain ⟨marketInFlight, ⟨-, rfl⟩, inFlight, ⟨-, rfl⟩, positionFees, ⟨-, rfl⟩, status, -, -, within,
      ⟨principal, ⟨-, rfl⟩, rfl⟩, hin, market, hmarket, balance, ⟨hbal, rfl⟩, rfl, rfl⟩ := h
    rw [← Nat.add_assoc] at hin
    -- The fees join the current distribution, unless they are zero.
    obtain ⟨distribution, rfl⟩ : ∃ d, market = { g.market with
        borrowAssetBorrowedInFlight := g.market.borrowAssetBorrowedInFlight + amount
        currentYieldDistribution := d } := by
      unfold recordBorrowAssetYieldDistribution at hmarket
      split at hmarket
      · cases hmarket
        exact ⟨_, rfl⟩
      · obtain ⟨d, -, rfl, rfl⟩ := bind_eq_ok.mp hmarket
        exact ⟨d, rfl⟩
    refine .borrow ⟨amount, fees⟩ hg ?_ hin hbal
    simp only
    omega

theorem increaseBorrowAssetPrincipal_eq_ok {p p' : BorrowPosition}
    (h : p.increaseBorrowAssetPrincipal amount now = .ok p') : ∃ startedAt, p' = { p with
      startedAtBlockTimestampMs := startedAt
      borrowAssetPrincipal := p.borrowAssetPrincipal + amount } := by
  unfold increaseBorrowAssetPrincipal at h
  split at h
  · simp only [do_ok] at h
    obtain ⟨restart, -, principal, ⟨-, rfl⟩, rfl⟩ := h
    exact ⟨_, rfl⟩
  · simp only [do_ok] at h
    obtain ⟨liability, -, restart, -, principal, ⟨-, rfl⟩, rfl⟩ := h
    exact ⟨_, rfl⟩

theorem recordBorrowFinal_effect {borrow : InitialBorrow} (hg : g.Accrued)
    (hc : success = true → C.borrow g borrow) (h : g.recordBorrowFinal borrow success now = .ok g') :
    BorrowEffect C g (.borrow g.accountId borrow ::ₘ F) g' F := by
  simp only [recordBorrowFinal, do_ok] at h
  obtain ⟨marketInFlight, ⟨h₁, rfl⟩, inFlight, ⟨h₂, rfl⟩, h⟩ := h
  cases success with
  | true =>
    simp only [↓reduceIte, do_ok] at h
    obtain ⟨position, hp, borrowed, ⟨-, rfl⟩, h⟩ := h
    obtain ⟨startedAt, rfl⟩ := increaseBorrowAssetPrincipal_eq_ok hp
    cases h
    exact .settleBorrow true hg hc h₁ h₂
  | false =>
    simp only [Bool.false_eq_true, ↓reduceIte, do_ok] at h
    obtain ⟨balance, ⟨-, rfl⟩, rfl⟩ := h
    exact .settleBorrow false hg hc h₁ h₂

/-- A repayment keeps what it needs of the amount. -/
theorem recordRepay_effect {refund : Nat} (hg : g.Accrued)
    (h : g.recordRepay amount = .ok (refund, g')) : BorrowEffect C g F g' F := by
  simp only [recordRepay, do_ok] at h
  obtain ⟨balance, ⟨-, rfl⟩, ⟨reduction, g₁⟩, hreduce, liability, -, rest, ⟨-, rfl⟩, rfl, rfl⟩ := h
  obtain ⟨startedAt, hsum, hp, hb, rfl⟩ := reduceBorrowAssetLiability_eq_ok hreduce
  refine .pay 0 hg rfl hp hb ?_ (.inl ⟨rfl, rfl⟩)
  simp only
  omega

/-- A liquidation pays the liability with what was recovered and keeps the rest. -/
theorem settleLiquidation_effect {liquidated recovered : Nat} (hg : g.Accrued)
    (h : g.settleLiquidation liquidated recovered = .ok g') : BorrowEffect C g F g' F := by
  simp only [settleLiquidation, do_ok] at h
  obtain ⟨g₁, hw, ⟨reduction, g₂⟩, hr, market, hm, balance, ⟨-, rfl⟩, rfl⟩ := h
  obtain ⟨hc₁, hc₂, rfl⟩ := recordCollateralAssetWithdrawal_eq_ok hw
  obtain ⟨startedAt, hsum, hp, hb, rfl⟩ := reduceBorrowAssetLiability_eq_ok hr
  have hcollateral : g.market.collateralAssetDeposited - liquidated + g.position.collateralAssetDeposit =
      g.market.collateralAssetDeposited + (g.position.collateralAssetDeposit - liquidated) := by
    omega
  have hbalance : g.market.borrowAssetBalance + recovered = g.market.borrowAssetBalance +
      reduction.toFees + reduction.toInterest + reduction.toPrincipal + reduction.toRefund := by
    omega
  unfold recordBorrowAssetYieldDistribution at hm
  split at hm
  · cases hm
    exact .pay _ hg hcollateral hp hb hbalance (.inr rfl)
  · obtain ⟨d, -, rfl, rfl⟩ := bind_eq_ok.mp hm
    exact .pay _ hg hcollateral hp hb hbalance (.inr rfl)

theorem recordLiquidation_eq_ok {sent : Nat} {request : Option Nat} {liquidation : Liquidation}
    (h : g.recordLiquidation sent request pricePair now = .ok (.ok (liquidation, g'))) :
    ∃ recovered, g.settleLiquidation liquidation.liquidated recovered = .ok g' := by
  obtain ⟨status, -, h⟩ := bind_eq_ok.mp h
  cases status with
  | healthy => cases h
  | maintenanceRequired => cases h
  | liquidation reason =>
    simp only [do_ok] at h
    obtain ⟨available, -, -, value, -, h⟩ := h
    cases hceil : value.toU128Ceil with
    | none =>
      rw [hceil] at h
      cases h
    | some ceiling =>
      simp only [hceil, do_ok] at h
      obtain ⟨kept, -, discounted, -, floor, -, -, g₁, hg₁, rfl, rfl⟩ := h
      exact ⟨_, hg₁⟩

end BorrowPositionGuard

theorem BorrowOp.effect {C : Conditions A} {t : Nat} {F F' : Multiset (Flight A)}
    {g g' : BorrowPositionGuard A} (op : BorrowOp C t g F g' F') : BorrowEffect C g F g' F' := by
  cases op with
  | accumulate h =>
    obtain ⟨stop, interest, entries, rfl, -, hle, -, hnext, hpassed, rfl⟩ :=
      accumulateInterestPartial_eq_ok h
    exact .interest (Nat.le_add_right _ _) (by omega) hnext hpassed
  | collateralize h =>
    rw [recordCollateralAssetDeposit_eq_ok h]
    exact .deposit
  | withdraw h => exact recordCollateralAssetWithdrawalInitial_effect h
  | settleWithdrawal h => exact recordCollateralAssetWithdrawalFinal_effect h
  | borrow hg h => exact recordBorrowInitial_effect hg h
  | settleBorrow hg hc h => exact recordBorrowFinal_effect hg hc h
  | repay hg h => exact recordRepay_effect hg h
  | liquidate hg h => exact settleLiquidation_effect hg h

/-- A position is removed when it has no collateral, no liability and nothing in flight. -/
theorem BorrowPosition.exists_eq_false {p : BorrowPosition} (h : p.exists' = .ok false) :
    p.collateralAssetDeposit = 0 ∧ p.borrowAssetPrincipal = 0 ∧ p.borrowAssetInFlight = 0 ∧
      p.collateralAssetInFlight = 0 := by
  unfold exists' at h
  split at h
  · cases h
  · rename_i hc
    simp only [getTotalBorrowAssetLiability, do_ok] at h
    obtain ⟨liability, ⟨principal, ⟨-, rfl⟩, withInterest, ⟨-, rfl⟩, -, rfl⟩, hb⟩ := h
    simp only [Bool.false_eq, ne_eq, decide_not, Bool.or_eq_false_iff, Bool.not_eq_eq_eq_not,
      Bool.not_false, decide_eq_true_eq] at hb
    omega

namespace Market

variable [DecidableEq A] {m m' : Market A} {accountId : A}

theorem cleanupBorrowPosition_eq_ok {cleaned : Bool}
    (h : m.cleanupBorrowPosition accountId = .ok (cleaned, m')) :
    m' = m ∨ ∃ p, m.borrowPositions.lookup accountId = some p ∧ p.exists' = .ok false ∧
      m' = { m with borrowPositions := m.borrowPositions.erase accountId } := by
  unfold cleanupBorrowPosition at h
  cases hp : m.borrowPositions.lookup accountId with
  | none =>
    rw [hp] at h
    cases h
    exact Or.inl rfl
  | some p =>
    simp only [hp, do_ok] at h
    obtain ⟨present, hr, h⟩ := h
    cases present with
    | true =>
      cases h
      exact Or.inl rfl
    | false =>
      cases h
      exact Or.inr ⟨p, rfl, hr, rfl⟩

/-- Accrual of the yield of a static account. -/
theorem accumulateStaticYield_eq_ok {limit : Nat}
    (h : m.accumulateStaticYield accountId limit = .ok (some m')) :
    ∃ numerator before after stop entries,
      m.configuration.yieldWeights.static.lookup accountId = some numerator ∧
      before = (m.staticYield.lookup accountId).getD (Accumulator.new 1) ∧
      stop = before.nextSnapshotIndex +
        min limit (m.finalizedSnapshots.length - before.nextSnapshotIndex) ∧
      1 ≤ before.nextSnapshotIndex ∧ before.nextSnapshotIndex ≤ m.finalizedSnapshots.length ∧
      after.nextSnapshotIndex = stop ∧
      Passed staticShare accountId (fun _ => 0) (StaticYieldRule m numerator)
        before.nextSnapshotIndex stop entries ∧
      m' = { m with
        staticYield := m.staticYield.insert accountId after
        journal := m.journal ++ entries } := by
  unfold accumulateStaticYield at h
  cases hn : m.configuration.yieldWeights.static.lookup accountId with
  | none =>
    rw [hn] at h
    cases h
  | some numerator =>
    simp only [hn, do_ok] at h
    obtain ⟨denominator, hweight, prevEnd, hprev, ⟨accumulated, entries⟩, hloop, amount, -,
      after, hafter, rfl, rfl⟩ := h
    obtain ⟨hpos, hle, hs₀⟩ := previousEnd_eq_ok hprev
    have hend := accrueLoop_invariant (fun k (x : Decimal × List (JournalEntry A)) =>
        ((m.staticYield.lookup accountId).getD (Accumulator.new 1)).nextSnapshotIndex ≤ k ∧
        Passed staticShare accountId (fun _ => 0) (StaticYieldRule m numerator)
          ((m.staticYield.lookup accountId).getD (Accumulator.new 1)).nextSnapshotIndex k x.2)
      (fun k s prevEnd x x' hat hx hstep => by
        simp only [staticYieldStep, do_ok] at hstep
        obtain ⟨interest, hi, yield, hy, weighted, hw, d, hd, _, -, rfl⟩ := hstep
        exact ⟨Nat.le_succ_of_le hx.1, hx.2.snoc hx.1 rfl
          ⟨s, prevEnd, interest, yield, weighted, d, _, hat, hweight, hi, hy, hw, hd, rfl⟩⟩)
      hpos hs₀ hloop ⟨Nat.le_refl _, passed_nil _⟩
    obtain ⟨-, hnext, -⟩ := SupplyPositionGuard.accumulate_eq_ok hafter
    rw [m.pendingSnapshots_length] at hnext
    rw [List.length_take, List.length_drop] at hend
    exact ⟨numerator, _, after, _, entries, rfl, rfl, rfl, hpos, hle, hnext, hend.2, rfl⟩

end Market

end Templar.Lending
