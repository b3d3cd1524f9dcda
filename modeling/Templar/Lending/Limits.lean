import Templar.Lending.BorrowBooks

/-!
# Limits on what is lent

The market is meant to keep two limits: the principal of a position is zero or within the
borrow range, and what is lent or about to be lent is covered by active deposits. Both are
checked when a borrow is started, and both can be lost later. The range is checked for
principal and transfers in flight together, and only the transfers that arrive become
principal. A withdrawal counts the fees of all suppliers as liquidity of its own active
funds, and it does not count what is in flight. The limits hold in the runs in which no
step does so.
-/

namespace Templar.Lending

open Checked SupplyPositionGuard BorrowPositionGuard Conditions Market Lending.System

variable {A : Type} [DecidableEq A]

/-- A property of single positions that new ones have and operations keep. -/
theorem Booked.forall_borrow {C : Conditions A} {b : Books A}
    {P : MarketConfiguration A → BorrowPosition → Prop} (h : Booked C b)
    (hnew : ∀ c n, P c (BorrowPosition.new n))
    (hop : ∀ {g g' : BorrowPositionGuard A} {F F' : Multiset (Flight A)} {t : Nat},
      BorrowOp C t g F g' F' → P g.market.configuration g.position →
      P g.market.configuration g'.position) :
    ∀ a p, b.market.borrowPositions.lookup a = some p → P b.market.configuration p := by
  refine h.borrow_induction (P := fun b => ∀ a p, b.market.borrowPositions.lookup a = some p →
    P b.market.configuration p) ?_ ?_ ?_ ?_ ?_
  · intro configuration m time h
    obtain ⟨-, -, chunk, previous, maximumInterest, rfl⟩ := new_eq_ok h
    intro a p hp
    simp at hp
  · intro b b' hs ih a p hp
    rw [hs.positions] at hp
    rw [hs.configuration]
    exact ih a p hp
  · intro m a p F t hp ih
    refine Table.forall_insert ih ?_
    rcases hp with hp | ⟨-, rfl⟩
    · exact ih _ _ hp
    · exact hnew _ _
  · intro g g' F F' t op ih
    obtain ⟨hk, ha⟩ := op.keeps
    have hg : P g.market.configuration g.position := ih g.accountId g.position (AList.lookup_insert _)
    have hd : g'.drop.borrowPositions = g.market.borrowPositions.insert g.accountId g'.position := by
      rw [← hk.stored, ← ha]
      rfl
    have hc : g'.drop.configuration = g.drop.configuration := hk.configuration
    simp only [hd, hc]
    exact Table.forall_replace ih (fun _ _ hb => hb) (hop op hg)
  · intro m a p F t hp hremove ih
    exact Table.forall_erase ih

section Principal

/-- A borrow that becomes the first principal of its position is no less than the minimum. -/
def Conditions.noDust : Conditions A where
  withdrawal := fun _ _ => True
  borrow := fun g initialBorrow => g.position.borrowAssetPrincipal = 0 →
    g.market.configuration.borrowRange.minimum ≤ initialBorrow.amount

variable {C : Conditions A} {t : Nat} {g g' : BorrowPositionGuard A}
variable {F F' : Multiset (Flight A)}

section

omit [DecidableEq A]

/-- A payment leaves nothing or no less than the minimum. -/
theorem BorrowPositionGuard.sub_amountToPrincipal {principal minimum : Nat}
    (h : principal = 0 ∨ minimum ≤ principal) (amount : Nat) :
    principal - amountToPrincipal principal minimum amount = 0 ∨
      minimum ≤ principal - amountToPrincipal principal minimum amount := by
  unfold amountToPrincipal
  split <;> omega

theorem BorrowOp.noDust (op : BorrowOp noDust t g F g' F')
    (h : g.position.borrowAssetPrincipal = 0 ∨
      g.market.configuration.borrowRange.minimum ≤ g.position.borrowAssetPrincipal) :
    g'.position.borrowAssetPrincipal = 0 ∨
      g.market.configuration.borrowRange.minimum ≤ g'.position.borrowAssetPrincipal := by
  cases op.effect with
  | interest _ _ _ _ | deposit | withdraw _ _ | settleWithdrawal _ _ | borrow _ _ _ _ _ => exact h
  | settleBorrow success _ hc _ _ =>
    cases success with
    | false => exact h
    | true =>
      have hc := hc rfl
      simp only [noDust] at hc
      simp only [lent, ↓reduceIte]
      omega
  | pay _ _ _ hp _ _ _ =>
    simp only [hp]
    exact sub_amountToPrincipal h _

/-- Principal and transfers in flight together never pass the maximum. -/
theorem BorrowOp.capped (op : BorrowOp C t g F g' F') {max : Nat}
    (hmax : g.market.configuration.borrowRange.maximum = some max)
    (h : owed g.position ≤ max) : owed g'.position ≤ max := by
  unfold owed at h ⊢
  cases op.effect with
  | interest _ _ _ _ | deposit | withdraw _ _ | settleWithdrawal _ _ => exact h
  | borrow _ _ _ hrange _ =>
    have hle := (AmountRange.contains_iff.mp hrange).2 max hmax
    simp only [owed] at hle ⊢
    omega
  | settleBorrow success _ _ _ hle =>
    cases success
    all_goals
      simp only [lent, Bool.false_eq_true, ↓reduceIte]
      omega
  | pay _ _ _ _ _ _ _ =>
    simp only
    omega

end

/-- Every principal is zero or within the range, in every state of a run in which no
first principal is below the minimum. -/
theorem principal_dust_free {s : System A} (h : s.ReachableBy (Meets noDust)) :
    ∀ a p, s.market.borrowPositions.lookup a = some p →
      p.borrowAssetPrincipal = 0 ∨
        s.market.configuration.borrowRange.contains p.borrowAssetPrincipal = true := by
  intro a p hp
  have hmin := h.booked.forall_borrow
    (P := fun c p => p.borrowAssetPrincipal = 0 ∨ c.borrowRange.minimum ≤ p.borrowAssetPrincipal)
    (fun _ _ => Or.inl rfl) BorrowOp.noDust a p hp
  have hmax := h.booked.forall_borrow
    (P := fun c p => ∀ max, c.borrowRange.maximum = some max → owed p ≤ max)
    (fun _ _ _ _ => Nat.zero_le _) (fun op hg max hm => op.capped hm (hg max hm)) a p hp
  rcases hmin with hzero | hmin
  · exact Or.inl hzero
  · refine Or.inr (AmountRange.contains_iff.mpr ⟨hmin, ?_⟩)
    intro max hm
    exact Nat.le_trans (Nat.le_add_right _ _) (hmax max hm)

/-- The sample market with a minimum of a hundred. -/
def minimumConfiguration : MarketConfiguration Nat :=
  { sampleConfiguration with borrowRange := ⟨⟨100, none⟩, rfl⟩ }

/-- A hundred units for the second account are in flight, and then one more. -/
def overlappingBorrows : List (Action Nat) :=
  [supplyAction 1000 1 1000,
      .call (sampleEnv 2000) (.harvestYield 1 none none)] ++
    collateralActions 2000 2 1000 ++ borrowActions 2000 2 100 0 ++
    borrowActions 2000 2 1 1

/-- The first transfer arrives, and the second is still in flight. -/
theorem principal_dust_free_sample : ∃ s : System Nat, s.ReachableBy (Meets noDust) ∧
      ∃ p, s.market.borrowPositions.lookup 2 = some p ∧ p.borrowAssetPrincipal ≠ 0 ∧
        s.market.configuration.borrowRange.contains p.borrowAssetPrincipal = true := by
  obtain ⟨s, hs, p, hp, hne⟩ : ∃ s : System Nat, s.ReachableBy (Meets noDust) ∧
      ∃ p, s.market.borrowPositions.lookup 2 = some p ∧ p.borrowAssetPrincipal ≠ 0 :=
    exists_reachableBy minimumConfiguration 1000
      (overlappingBorrows ++ [.callback (sampleEnv 2000) 0 (sampleReply true)])
      (meetsTest (fun _ _ => true) fun g initialBorrow =>
        decide (g.position.borrowAssetPrincipal = 0 →
          g.market.configuration.borrowRange.minimum ≤ initialBorrow.amount))
      (meets_of_test (fun _ _ _ => trivial) fun _ _ hb => (of_decide_eq_true hb :))
      (by decide +kernel) (by decide) (by decide)
  exact ⟨s, hs, p, hp, hne, (principal_dust_free hs 2 p hp).resolve_left hne⟩

/-- The first transfer fails and the second arrives: one unit of principal is left. -/
theorem principal_dust_remains : ∃ s : System Nat, s.Reachable ∧
      ∃ p, s.market.borrowPositions.lookup 2 = some p ∧ p.borrowAssetPrincipal = 1 ∧
        s.market.configuration.borrowRange.contains p.borrowAssetPrincipal = false := by
  exact exists_reachable minimumConfiguration 1000
    (overlappingBorrows ++ [.callback (sampleEnv 2000) 0 (sampleReply false),
      .callback (sampleEnv 2000) 0 (sampleReply true)])
    (by decide +kernel) (by decide) (by decide)

end Principal

section Coverage

/-- A withdrawal leaves lent funds covered: it asks for no more than its yield, its waiting
deposits and the funds that are not lent or about to be lent, or it may take all fees and
nothing is in flight. -/
def SupplyPositionGuard.Covered (g : SupplyPositionGuard A) (requested : Nat) : Prop :=
  min requested g.entitled ≤
      min g.position.borrowAssetYield.total g.market.borrowAssetPaidToFees +
        waiting g.position.borrowAssetDeposit.incoming +
        (g.market.borrowAssetDepositedActive -
          (g.market.borrowAssetBorrowed + g.market.borrowAssetBorrowedInFlight)) ∨
    g.market.borrowAssetBorrowedInFlight = 0 ∧
      g.market.borrowAssetPaidToFees ≤ g.position.borrowAssetYield.total

def Conditions.covered : Conditions A where
  withdrawal := SupplyPositionGuard.Covered
  borrow := fun _ _ => True

def Market.Lendable (m : Market A) : Prop :=
  m.borrowAssetBorrowed + m.borrowAssetBorrowedInFlight ≤ m.borrowAssetDepositedActive

variable {t : Nat} {F F' : Multiset (Flight A)}

theorem SupplyOp.lendable {g g' : SupplyPositionGuard A}
    (op : SupplyOp covered t g F g' F') (hs : g.drop.SupplyAgrees)
    (h : g.market.Lendable) : g'.market.Lendable := by
  unfold Market.Lendable at h ⊢
  cases op with
  | accumulate ho =>
    obtain ⟨stop, active, incoming, yield, entries, weight, -, -, -, -, -, -, -, rfl⟩ :=
      accumulateYieldPartial_eq_ok ho (position_of_drop hs).orderly
    exact h
  | deposit hg ho =>
    obtain ⟨startedAt, incoming, entries, -, -, -, -, rfl⟩ := recordDeposit_eq_ok ho
    exact h
  | @withdraw _ _ requested attempt w hg hr hc ho hw =>
    obtain ⟨fy, fi, fa, incoming, entries, hw⟩ :=
      recordWithdrawalInitial_withdrawn ho hw (orderly_of_accrued hs hg) hs.single
    have hrequested := hw.le_requested
    have havailable := hw.le_available
    have hb := hw.borrowed_le
    have hsum := hw.amount
    have hfy := hw.yield_eq
    have hfi := hw.incoming_eq
    have hfa := hw.market_active_le
    rw [hw.result]
    simp only [covered, SupplyPositionGuard.Covered] at hc ⊢
    omega
  | @settle _ _ w success ha ho =>
    cases success with
    | true =>
      obtain ⟨record, -, -, -, -, rfl⟩ := recordWithdrawalFinal_success ho
      exact h
    | false =>
      obtain ⟨incoming, entries, -, -, -, -, -, -, -, rfl⟩ := recordWithdrawalFinal_failure ho
      exact h

omit [DecidableEq A] in
theorem BorrowOp.lendable {C : Conditions A} {g g' : BorrowPositionGuard A}
    (op : BorrowOp C t g F g' F') (h : g.market.Lendable) : g'.market.Lendable := by
  unfold Market.Lendable at h ⊢
  cases op.effect with
  | interest _ _ _ _ | deposit | withdraw _ _ | settleWithdrawal _ _ => exact h
  | borrow _ _ havailable _ _ =>
    simp only
    omega
  | settleBorrow success _ _ hle _ =>
    cases success
    all_goals
      simp only [lent, Bool.false_eq_true, ↓reduceIte]
      omega
  | pay _ _ _ _ _ _ _ =>
    simp only
    omega

theorem Booked.lendable {b : Books A} (h : Booked covered b) : b.market.Lendable := by
  induction h with
  | new ht h =>
    obtain ⟨-, -, chunk, previous, maximumInterest, rfl⟩ := new_eq_ok h
    exact Nat.le_refl _
  | move hb hm ih =>
    have hs := hb.sound
    cases hm with
    | snapshot h =>
      rcases snapshot_eq_ok h with rfl | ⟨now, s, active, incoming, -, -, hact, rfl⟩
      · exact ih
      · -- A snapshot only adds to the active funds.
        have hgrow := (SupplyBooks.activate hs.supply hact).1
        simp only [Market.Lendable] at ih hgrow ⊢
        omega
    | createSupply h h₁ h₂ =>
      obtain ⟨hfresh, op₁, hagrees, op₂⟩ := Booked.created (C := covered) hs h h₁ h₂
      exact op₂.lendable hagrees (op₁.lendable hfresh ih)
    | supply op => exact op.lendable hs.supply ih
    | borrow op => exact op.lendable ih
    | accumulateStaticYield h =>
      obtain ⟨numerator, before, after, stop, entries, -, -, -, -, -, -, -, rfl⟩ :=
        accumulateStaticYield_eq_ok h
      exact ih
    | withdrawStaticYield h =>
      obtain ⟨record, sent, -, -, -, he⟩ := withdrawStaticYield_eq_ok h
      cases he
      exact ih
    | settleStaticYield h =>
      rcases withdrawStaticYield01Finalize_eq_ok h with he | ⟨record, -, he⟩
      all_goals
        cases he
        exact ih
    | tick | lose | queue | openSupply | cleanupSupply | openBorrow | cleanupBorrow => exact ih

/-- Lent funds never exceed active deposits, in every state of a run in which every
withdrawal leaves them covered. -/
theorem lent_le_active {s : System A} (h : s.ReachableBy (Meets covered)) :
    s.market.borrowAssetBorrowed + s.market.borrowAssetBorrowedInFlight ≤
      s.market.borrowAssetDepositedActive := h.booked.lendable

omit [DecidableEq A] in
instance SupplyPositionGuard.decidableCovered (g : SupplyPositionGuard A) (requested : Nat) :
    Decidable (g.Covered requested) := inferInstanceAs (Decidable (_ ∨ _ ∧ _))

/-- Fifty of a hundred active units are lent, and the fee of ten is paid back. -/
def paidFee : List (Action Nat) :=
  activeSupply ++ collateralActions 2000 2 1000 ++ borrowActions 2000 2 50 0 ++
    [.callback (sampleEnv 2000) 0 (sampleReply true),
      .call (sampleEnv 2000) (.ftOnTransfer 10 2 10 (some .repay)),
      .callback (sampleEnv 2000) 0 (sampleReply true)]

/-- A withdrawal of forty is covered. -/
theorem lent_le_active_sample : ∃ s : System Nat, s.ReachableBy (Meets covered) ∧
      s.market.borrowAssetDepositedActive = 60 ∧
      s.market.borrowAssetBorrowed + s.market.borrowAssetBorrowedInFlight ≤ 60 := by
  obtain ⟨s, hs, hactive⟩ : ∃ s : System Nat, s.ReachableBy (Meets covered) ∧
      s.market.borrowAssetDepositedActive = 60 :=
    exists_reachableBy sampleConfiguration 1000
      (paidFee ++ [requestAction 2000 1 40,
        .call (sampleEnv 2000) (.executeNextSupplyWithdrawalRequest none)])
      (meetsTest (fun g requested => decide (g.Covered requested)) fun _ _ => true)
      (meets_of_test (fun _ _ hc => (of_decide_eq_true hc :)) fun _ _ _ => trivial)
      (by decide +kernel) (by decide) (by decide)
  exact ⟨s, hs, hactive, (lent_le_active hs).trans_eq hactive⟩

/-- A withdrawal of everything counts the fee, which is not the supplier's yield yet, as
liquidity: sixty units of active funds leave and fifty stay lent against forty. -/
theorem lent_exceeds_active : ∃ s : System Nat, s.Reachable ∧ s.market.borrowAssetBorrowed = 50 ∧
      s.market.borrowAssetDepositedActive = 40 := by
  exact exists_reachable sampleConfiguration 1000
    (paidFee ++ [requestAction 2000 1 100,
      .call (sampleEnv 2000) (.executeNextSupplyWithdrawalRequest none)])
    (by decide +kernel) (by decide) (by decide)

end Coverage

end Templar.Lending
