import Templar.Lending.Limits

/-!
# The conservation ledger of the borrow asset

Every unit of the borrow asset that the market has, has lent or has in flight stands
against a deposit, a fee, or something the journal records: what liquidations kept, the
fees of withdrawals, and static yield that left and did not come back. Every operation
moves the two sides of this ledger alike.
-/

namespace Templar.Lending

open Checked SupplyPositionGuard JournalEntry

variable {A : Type}

namespace JournalEntry

def liquidationPart : JournalEntry A → Nat
  | .liquidationKept amount => amount
  | _ => 0

def feesStarted : JournalEntry A → Nat
  | .withdrawalStarted amountToFees => amountToFees
  | _ => 0

def feesFailed : JournalEntry A → Nat
  | .withdrawalFailed amountToFees => amountToFees
  | _ => 0

def staticYieldSent : JournalEntry A → Nat
  | .staticYieldWithdrawn amount => amount
  | _ => 0

def staticYieldBack : JournalEntry A → Nat
  | .staticYieldReturned amount => amount
  | _ => 0

/-- What an entry adds to the side of the balance and the loans. -/
def ledgerLeft : JournalEntry A → Nat
  | .staticYieldWithdrawn amount => amount
  | .withdrawalFailed amountToFees => amountToFees
  | _ => 0

/-- What an entry adds to the side of the deposits and the fees. -/
def ledgerRight : JournalEntry A → Nat
  | .liquidationKept amount => amount
  | .withdrawalStarted amountToFees => amountToFees
  | .staticYieldReturned amount => amount
  | _ => 0

theorem ledgerLeft_eq (e : JournalEntry A) : e.ledgerLeft = e.staticYieldSent + e.feesFailed := by
  cases e <;> simp [ledgerLeft, staticYieldSent, feesFailed]

theorem ledgerRight_eq (e : JournalEntry A) :
    e.ledgerRight = e.liquidationPart + e.feesStarted + e.staticYieldBack := by
  cases e <;> simp [ledgerRight, liquidationPart, feesStarted, staticYieldBack]

end JournalEntry

/-- What a journal records of one kind. -/
def recorded (f : JournalEntry A → Nat) (journal : List (JournalEntry A)) : Nat :=
  (journal.map f).sum

section

variable (f : JournalEntry A → Nat)
include f

@[simp] theorem recorded_append (l₁ l₂ : List (JournalEntry A)) :
    recorded f (l₁ ++ l₂) = recorded f l₁ + recorded f l₂ := by
  simp [recorded]

@[simp] theorem recorded_singleton (e : JournalEntry A) : recorded f [e] = f e := by
  simp [recorded]

end

theorem recorded_add (f g : JournalEntry A → Nat) (l : List (JournalEntry A)) :
    recorded (fun e => f e + g e) l = recorded f l + recorded g l := by
  induction l with
  | nil => rfl
  | cons e l ih =>
    simp only [recorded, List.map_cons, List.sum_cons] at ih ⊢
    omega

theorem recorded_eq_zero {f : JournalEntry A → Nat} {l : List (JournalEntry A)}
    (h : ∀ e ∈ l, f e = 0) : recorded f l = 0 := by
  induction l with
  | nil => rfl
  | cons e l ih =>
    have hl := ih fun e' he' => h e' (List.mem_cons_of_mem _ he')
    have he := h e (List.mem_cons_self ..)
    simp only [recorded, List.map_cons, List.sum_cons] at hl ⊢
    omega

/-- The shares an accrual records do not count in the ledger. -/
theorem Passed.ledger {pick : JournalEntry A → Option (Nat × Share A)}
    {a : A} {amount : Nat → Nat} {rule : Nat → Nat → Prop} {next stop : Nat}
    {entries : List (JournalEntry A)} (h : Passed pick a amount rule next stop entries)
    (hpick : ∀ e, e.ledgerLeft = 0 ∧ e.ledgerRight = 0 ∨ pick e = none) :
    recorded ledgerLeft entries = 0 ∧ recorded ledgerRight entries = 0 := by
  have hzero : ∀ e ∈ entries, e.ledgerLeft = 0 ∧ e.ledgerRight = 0 := by
    intro e he
    obtain ⟨k, share, hshare⟩ := h.only e he
    rcases hpick e with hz | hnone
    · exact hz
    · rw [hnone] at hshare
      cases hshare
  exact ⟨recorded_eq_zero fun e he => (hzero e he).1, recorded_eq_zero fun e he => (hzero e he).2⟩

theorem JournalEntry.yieldShare_ledger (e : JournalEntry A) :
    e.ledgerLeft = 0 ∧ e.ledgerRight = 0 ∨ e.yieldShare = none := by
  cases e <;> first | exact Or.inl ⟨rfl, rfl⟩ | exact Or.inr rfl

theorem JournalEntry.staticShare_ledger (e : JournalEntry A) :
    e.ledgerLeft = 0 ∧ e.ledgerRight = 0 ∨ e.staticShare = none := by
  cases e <;> first | exact Or.inl ⟨rfl, rfl⟩ | exact Or.inr rfl

theorem JournalEntry.interestShare_ledger (e : JournalEntry A) :
    e.ledgerLeft = 0 ∧ e.ledgerRight = 0 ∨ e.interestShare = none := by
  cases e <;> first | exact Or.inl ⟨rfl, rfl⟩ | exact Or.inr rfl

/-- The two sides of the ledger are equal. -/
def Market.Balanced (m : Market A) : Prop :=
  m.borrowAssetBalance + m.borrowAssetBorrowed + m.borrowAssetBorrowedInFlight +
      recorded ledgerLeft m.journal =
    m.borrowAssetDepositedActive + waiting m.borrowAssetDepositedIncoming +
      m.borrowAssetPaidToFees + recorded ledgerRight m.journal

section Operations

variable {C : Conditions A} {t : Nat} {F F' : Multiset (Flight A)}

theorem BorrowOp.balanced {g g' : BorrowPositionGuard A} (op : BorrowOp C t g F g' F')
    (h : g.market.Balanced) : g'.market.Balanced := by
  unfold Market.Balanced at h ⊢
  cases op.effect with
  | interest _ _ _ hpassed =>
    obtain ⟨hl, hr⟩ := hpassed.ledger interestShare_ledger
    simp only [recorded_append, hl, hr]
    exact h
  | deposit | withdraw _ _ | settleWithdrawal _ _ => exact h
  | borrow _ _ _ _ hle =>
    simp only
    omega
  | settleBorrow success _ _ hle _ =>
    cases success
    all_goals
      simp only [BorrowPositionGuard.lent, BorrowPositionGuard.returned, Bool.false_eq_true,
        ↓reduceIte]
      omega
  | pay _ _ _ _ hle hbalance hjournal =>
    subst hbalance
    rcases hjournal with ⟨rfl, rfl⟩ | rfl
    all_goals
      simp only [recorded_append, recorded_singleton, ledgerLeft, ledgerRight]
      omega

variable [DecidableEq A]

theorem SupplyOp.balanced {g g' : SupplyPositionGuard A} (op : SupplyOp C t g F g' F')
    (hs : g.drop.SupplyAgrees) (h : g.market.Balanced) : g'.market.Balanced := by
  unfold Market.Balanced at h ⊢
  cases op with
  | accumulate ho =>
    obtain ⟨stop, active, incoming, yield, entries, weight, -, -, -, -, -, -, hpassed, rfl⟩ :=
      accumulateYieldPartial_eq_ok ho (position_of_drop hs).orderly
    obtain ⟨hl, hr⟩ := hpassed.ledger yieldShare_ledger
    simp only [recorded_append, hl, hr]
    exact h
  | deposit hg ho =>
    obtain ⟨startedAt, incoming, entries, -, -, -, hm, rfl⟩ := recordDeposit_eq_ok ho
    have hadd := addToMarket_eq_ok hm fun _ => true
    simp only [↓reduceIte] at hadd
    simp only [waiting] at h ⊢
    omega
  | @withdraw _ _ requested attempt w hg hr hc ho hw =>
    obtain ⟨fy, fi, fa, incoming, entries, hw⟩ :=
      recordWithdrawalInitial_withdrawn ho hw (orderly_of_accrued hs hg) hs.single
    have hsum := hw.amount
    have hfy := hw.yield_eq
    have hfa := hw.market_active_le
    have hentries := hw.entries_waiting
    have hbalance := hw.balance_le
    rw [hw.result]
    simp only [recorded_append, recorded_singleton, ledgerLeft, ledgerRight]
    omega
  | @settle _ _ w success ha ho =>
    cases success with
    | true =>
      obtain ⟨record, -, -, -, -, rfl⟩ := recordWithdrawalFinal_success ho
      exact h
    | false =>
      obtain ⟨incoming, entries, -, -, -, -, -, -, hm, rfl⟩ := recordWithdrawalFinal_failure ho
      have hadd := addToMarket_eq_ok hm fun _ => true
      simp only [↓reduceIte] at hadd
      simp only [recorded_append, recorded_singleton, ledgerLeft, ledgerRight, waiting] at h ⊢
      omega

end Operations

variable [DecidableEq A]

theorem Booked.balanced {C : Conditions A} {b : Books A} (h : Booked C b) : b.market.Balanced := by
  induction h with
  | new ht h =>
    obtain ⟨-, -, chunk, previous, maximumInterest, rfl⟩ := Market.new_eq_ok h
    rfl
  | move hb hm ih =>
    have hs := hb.sound
    cases hm with
    | snapshot h =>
      rcases Market.snapshot_eq_ok h with rfl | ⟨now, s, active, incoming, -, -, hact, rfl⟩
      · exact ih
      · -- What waited is active now.
        obtain ⟨hactive, hnone, -⟩ := SupplyBooks.activate hs.supply hact
        simp only [Market.Balanced, hactive, hnone] at ih ⊢
        simp only [waiting, scheduled_nil] at ih ⊢
        omega
    | createSupply h h₁ h₂ =>
      obtain ⟨hfresh, op₁, hagrees, op₂⟩ := Booked.created (C := C) hs h h₁ h₂
      exact op₂.balanced hagrees (op₁.balanced hfresh ih)
    | supply op => exact op.balanced hs.supply ih
    | borrow op => exact op.balanced ih
    | accumulateStaticYield h =>
      obtain ⟨numerator, before, after, stop, entries, -, -, -, -, -, -, hpassed, rfl⟩ :=
        Market.accumulateStaticYield_eq_ok h
      obtain ⟨hl, hr⟩ := hpassed.ledger staticShare_ledger
      simp only [Market.Balanced, recorded_append, hl, hr] at ih ⊢
      exact ih
    | withdrawStaticYield h =>
      obtain ⟨record, sent, -, -, hle, he⟩ := Market.withdrawStaticYield_eq_ok h
      cases he
      simp only [Market.Balanced, recorded_append, recorded_singleton, ledgerLeft,
        ledgerRight] at ih ⊢
      omega
    | settleStaticYield h =>
      rcases Market.withdrawStaticYield01Finalize_eq_ok h with he | ⟨record, -, he⟩
      · cases he
        exact ih
      · cases he
        simp only [Market.Balanced, recorded_append, recorded_singleton, ledgerLeft,
          ledgerRight] at ih ⊢
        omega
    | tick | lose | queue | openSupply | cleanupSupply | openBorrow | cleanupBorrow => exact ih

omit [DecidableEq A] in
theorem SingleEntry.totalIncoming {m : Market A} {k : Nat}
    (h : SingleEntry k m.borrowAssetDepositedIncoming) :
    m.totalIncoming = .ok (waiting m.borrowAssetDepositedIncoming) := by
  unfold Market.totalIncoming
  rcases h with hl | ⟨v, hv, hl⟩
  · rw [hl]
    rfl
  · rw [hl]
    have hadd : Checked.add 128 0 v = .ok v := Checked.add_eq_ok.mpr ⟨by omega, by omega⟩
    exact bind_eq_ok.mpr ⟨v, hadd, by simp [totalOf, waiting]⟩

/-- In every run the balance, the loans and the static yield withdrawn for good equal the
deposits, the fees, what liquidations kept and the fees of withdrawals that did not fail. -/
theorem borrow_asset_conserved {s : System A} (h : s.Reachable) :
    ∃ incoming, s.market.totalIncoming = .ok incoming ∧
      (s.market.borrowAssetBalance : Int) + s.market.borrowAssetBorrowed +
          s.market.borrowAssetBorrowedInFlight +
          (recorded staticYieldSent s.market.journal - recorded staticYieldBack s.market.journal) =
        s.market.borrowAssetDepositedActive + incoming + s.market.borrowAssetPaidToFees +
          recorded liquidationPart s.market.journal +
          (recorded feesStarted s.market.journal - recorded feesFailed s.market.journal) := by
  have hsingle : SingleEntry _ s.market.borrowAssetDepositedIncoming := h.booked.sound.supply.single
  have hbalanced : s.market.Balanced := h.booked.balanced
  refine ⟨_, hsingle.totalIncoming, ?_⟩
  have hleft : (ledgerLeft : JournalEntry A → Nat) =
      fun e => e.staticYieldSent + e.feesFailed := funext ledgerLeft_eq
  have hright : (ledgerRight : JournalEntry A → Nat) =
      fun e => e.liquidationPart + e.feesStarted + e.staticYieldBack :=
    funext ledgerRight_eq
  simp only [Market.Balanced, hleft, hright, recorded_add] at hbalanced
  omega

/-- A partly repaid loan and a withdrawal in flight. -/
theorem borrow_asset_conserved_sample :
    ∃ s : System Nat, s.Reachable ∧ s.market.borrowAssetBorrowed = 50 ∧
      s.market.borrowAssetWithdrawalInFlight = 40 ∧
      ∃ incoming, s.market.totalIncoming = .ok incoming ∧
        (s.market.borrowAssetBalance : Int) + s.market.borrowAssetBorrowed +
            s.market.borrowAssetBorrowedInFlight +
            (recorded staticYieldSent s.market.journal -
              recorded staticYieldBack s.market.journal) =
          s.market.borrowAssetDepositedActive + incoming + s.market.borrowAssetPaidToFees +
            recorded liquidationPart s.market.journal +
            (recorded feesStarted s.market.journal - recorded feesFailed s.market.journal) := by
  obtain ⟨s, hs, hborrowed, hinFlight⟩ : ∃ s : System Nat, s.Reachable ∧
      s.market.borrowAssetBorrowed = 50 ∧ s.market.borrowAssetWithdrawalInFlight = 40 :=
    System.exists_reachable sampleConfiguration 1000
      (paidFee ++ [requestAction 2000 1 40,
        .call (sampleEnv 2000) (.executeNextSupplyWithdrawalRequest none)])
      (by decide +kernel) (by decide) (by decide)
  exact ⟨s, hs, hborrowed, hinFlight, borrow_asset_conserved hs⟩

end Templar.Lending
