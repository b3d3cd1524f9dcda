import Templar.Lending.Limits

/-!
# Settling withdrawals

A started withdrawal is settled by a callback, in any order and at any later snapshot. Its
position still has the amount outgoing and the market still has it in flight, whatever
happened in between, and the position is not removed while it has. What can be missing is
room: a failed transfer joins the waiting deposits of its position, which hold at most
four snapshots, and settlements do not accrue the position to make room.
-/

namespace Templar.Lending

open Checked SupplyPositionGuard Flight Market Lending.System Table Multiset

variable {A : Type} {C : Conditions A} {t : Nat} {F : Multiset (Flight A)}

def Withdrawal.amount (w : Withdrawal A) : Nat := w.amountToAccount + w.amountToFees

namespace Flight

/-- The amount a flight takes out of an account's position. -/
def withdraws [DecidableEq A] (a : A) : Flight A → Nat
  | .withdrawal w => if w.accountId = a then w.amount else 0
  | _ => 0

/-- The amount a flight carries to a supplier. -/
def sends : Flight A → Nat
  | .withdrawal w => w.amountToAccount
  | _ => 0

end Flight

variable [DecidableEq A]

/-- An operation on a borrow position starts and settles no withdrawal. -/
theorem BorrowOp.withdrawals {F' : Multiset (Flight A)}
    {g g' : BorrowPositionGuard A} (op : BorrowOp C t g F g' F') :
    (∀ a, load (withdraws a) F' = load (withdraws a) F) ∧
      load sends F' = load sends F ∧
      ∀ w, withdrawal w ∈ F' → withdrawal w ∈ F := by
  cases op with
  | withdraw h | settleWithdrawal h | borrow hg h | settleBorrow hg hc h =>
    simp [withdraws, sends]
  | accumulate h => simp
  | collateralize h => simp
  | repay hg h => simp
  | liquidate hg h => simp

/-- What every unsettled withdrawal can count on. -/
structure Books.Withdrawable (b : Books A) : Prop where
  outgoing : Covers (fun p : SupplyPosition => p.borrowAssetDeposit.outgoing)
    b.market.supplyPositions withdraws b.flights
  inFlight : load sends b.flights ≤ b.market.borrowAssetWithdrawalInFlight
  sized : ∀ w, .withdrawal w ∈ b.flights → w.amount ≠ 0 ∧ w.amount < 2 ^ 128

namespace Books.Withdrawable

variable {m m' : Market A} {F' : Multiset (Flight A)}
variable {t' : Nat}

/-- The supply positions stay as they are, and no withdrawal is added to the flights. -/
theorem of_same (h : (⟨m, F, t⟩ : Books A).Withdrawable)
    (hp : m'.supplyPositions = m.supplyPositions)
    (hf : m'.borrowAssetWithdrawalInFlight = m.borrowAssetWithdrawalInFlight)
    (hw : ∀ a, load (withdraws a) F' ≤ load (withdraws a) F)
    (hs : load sends F' ≤ load sends F)
    (hmem : ∀ w, .withdrawal w ∈ F' → .withdrawal w ∈ F) :
    (⟨m', F', t'⟩ : Books A).Withdrawable := by
  refine ⟨?_, ?_, fun w hw' => h.sized w (hmem w hw')⟩
  · simp only [hp]
    exact h.outgoing.mono hw
  · simp only [hf]
    exact Nat.le_trans hs h.inFlight

theorem of_market (h : (⟨m, F, t⟩ : Books A).Withdrawable)
    (hp : m'.supplyPositions = m.supplyPositions)
    (hf : m'.borrowAssetWithdrawalInFlight = m.borrowAssetWithdrawalInFlight) :
    (⟨m', F, t'⟩ : Books A).Withdrawable :=
  h.of_same hp hf (fun _ => le_rfl) le_rfl fun _ hw => hw

theorem opened {a : A} {p : SupplyPosition} (h : (⟨m, F, t⟩ : Books A).Withdrawable)
    (hp : part (fun p : SupplyPosition => p.borrowAssetDeposit.outgoing) m.supplyPositions a ≤
      p.borrowAssetDeposit.outgoing) :
    (⟨drop ⟨m, a, p⟩, F, t⟩ : Books A).Withdrawable :=
  ⟨h.outgoing.insert hp, h.inFlight, h.sized⟩

theorem supply_op {g g' : SupplyPositionGuard A}
    (h : (⟨g.drop, F, t⟩ : Books A).Withdrawable) (op : SupplyOp C t g F g' F')
    (hs : g.drop.SupplyAgrees) : (⟨g'.drop, F', t⟩ : Books A).Withdrawable := by
  obtain ⟨hk, ha, -⟩ := op.keeps hs
  have hd : g'.drop.supplyPositions = g.market.supplyPositions.insert g.accountId g'.position := by
    rw [← hk.stored, ← ha]
    rfl
  -- The position's outgoing amount and the flights change together.
  suffices hchange : load (withdraws g.accountId) F' + g.position.borrowAssetDeposit.outgoing ≤
        load (withdraws g.accountId) F + g'.position.borrowAssetDeposit.outgoing ∧
      (∀ b, b ≠ g.accountId → load (withdraws b) F' ≤ load (withdraws b) F) ∧
      load sends F' + g.market.borrowAssetWithdrawalInFlight ≤
        load sends F + g'.market.borrowAssetWithdrawalInFlight ∧
      ∀ w, .withdrawal w ∈ F' → w.amount ≠ 0 ∧ w.amount < 2 ^ 128 by
    obtain ⟨hown, hother, hsends, hsized⟩ := hchange
    refine ⟨?_, ?_, hsized⟩
    · simp only [hd]
      exact h.outgoing.replace hown hother
    · have hin := h.inFlight
      simp only [drop] at hin ⊢
      omega
  cases op with
  | accumulate ho =>
    obtain ⟨stop, active, incoming, yield, entries, weight, -, -, -, -, -, -, -, rfl⟩ :=
      accumulateYieldPartial_eq_ok ho (position_of_drop hs).orderly
    exact ⟨le_rfl, fun _ _ => le_rfl, le_rfl, h.sized⟩
  | deposit hg ho =>
    obtain ⟨startedAt, incoming, entries, -, -, -, -, rfl⟩ := recordDeposit_eq_ok ho
    exact ⟨le_rfl, fun _ _ => le_rfl, le_rfl, h.sized⟩
  | @withdraw _ _ requested attempt w hg hr hc ho hw =>
    obtain ⟨fy, fi, fa, incoming, entries, hw⟩ :=
      recordWithdrawalInitial_withdrawn ho hw (orderly_of_accrued hs hg) hs.single
    have haccount := hw.account
    have hsized : w.amount ≠ 0 ∧ w.amount < 2 ^ 128 :=
      ⟨hw.nonzero hr, Nat.lt_of_le_of_lt (Nat.le_add_left _ _) hw.outgoing_lt⟩
    refine ⟨?_, ?_, ?_, ?_⟩
    · rw [hw.result]
      simp only [load_cons, withdraws, haccount, ↓reduceIte, Withdrawal.amount]
      omega
    · intro b hb
      simp [withdraws, haccount, hb.symm]
    · rw [hw.result]
      simp only [load_cons, sends]
      omega
    · intro w' hw'
      rcases mem_cons.mp hw' with heq | hw'
      · cases heq
        exact hsized
      · exact h.sized w' hw'
  | @settle _ _ w success haccount ho =>
    have hsized : ∀ w', .withdrawal w' ∈ F' → w'.amount ≠ 0 ∧ w'.amount < 2 ^ 128 :=
      fun w' hw' => h.sized w' (mem_cons_of_mem hw')
    have hother : ∀ b, b ≠ g.accountId →
        load (withdraws b) F' ≤ load (withdraws b) (.withdrawal w ::ₘ F') :=
      fun b _ => load_mono _ (le_cons_self _ _)
    cases success with
    | true =>
      obtain ⟨record, -, hout, hin, -, rfl⟩ := recordWithdrawalFinal_success ho
      refine ⟨?_, hother, ?_, hsized⟩
      · simp only [load_cons, withdraws, haccount, ↓reduceIte, Withdrawal.amount]
        omega
      · simp only [load_cons, sends]
        omega
    | false =>
      obtain ⟨incoming, entries, -, hout, hin, -, -, -, -, rfl⟩ := recordWithdrawalFinal_failure ho
      refine ⟨?_, hother, ?_, hsized⟩
      · simp only [load_cons, withdraws, haccount, ↓reduceIte, Withdrawal.amount]
        omega
      · simp only [load_cons, sends]
        omega

theorem move {b b' : Books A} (h : b.Withdrawable) (hsound : b.Sound) (hm : Move C b b') :
    b'.Withdrawable := by
  cases hm with
  | tick ht hlt => exact h.of_market rfl rfl
  | lose hle =>
    exact h.of_same rfl rfl (fun _ => load_mono _ hle) (load_mono _ hle)
      fun _ hw => mem_of_le hle hw
  | snapshot hs =>
    rcases snapshot_eq_ok hs with rfl | ⟨now, s, active, incoming, -, -, -, rfl⟩
    · exact h
    · exact h.of_market rfl rfl
  | queue hq => exact h.of_market rfl rfl
  | openSupply hp => exact h.opened (part_of_lookup hp).le
  | createSupply hp h₁ h₂ =>
    obtain ⟨hfresh, op₁, hagrees, op₂⟩ := Booked.created (C := C) hsound hp h₁ h₂
    exact ((h.opened (part_of_none hp).le).supply_op op₁ hfresh).supply_op op₂ hagrees
  | supply op => exact h.supply_op op hsound.supply
  | cleanupSupply hp hremove =>
    obtain ⟨-, -, hout, -⟩ := SupplyPosition.canBeRemoved_eq_true hremove
    exact ⟨h.outgoing.erase ((part_of_lookup hp).trans hout), h.inFlight, h.sized⟩
  | openBorrow hp => exact h.of_market rfl rfl
  | borrow op =>
    obtain ⟨hk, -⟩ := op.keeps
    obtain ⟨hw, hsends, hmem⟩ := op.withdrawals
    exact h.of_same hk.positions hk.inFlight (fun a => (hw a).le) hsends.le hmem
  | cleanupBorrow hp hremove => exact h.of_market rfl rfl
  | accumulateStaticYield hs =>
    obtain ⟨numerator, before, after, stop, entries, -, -, -, -, -, -, -, rfl⟩ :=
      accumulateStaticYield_eq_ok hs
    exact h.of_market rfl rfl
  | withdrawStaticYield hs =>
    obtain ⟨record, sent, -, -, -, he⟩ := withdrawStaticYield_eq_ok hs
    cases he
    refine h.of_same rfl rfl (fun a => ?_) ?_ fun w hw => ?_
    · simp [withdraws]
    · simp [sends]
    · simpa using hw
  | settleStaticYield hs =>
    rcases withdrawStaticYield01Finalize_eq_ok hs with he | ⟨record, -, he⟩
    all_goals
      cases he
      exact h.of_same rfl rfl (fun _ => load_mono _ (le_cons_self _ _))
        (load_mono _ (le_cons_self _ _)) fun _ hw => mem_cons_of_mem hw

end Books.Withdrawable

theorem Booked.withdrawable {b : Books A} (h : Booked C b) : b.Withdrawable := by
  induction h with
  | new ht h =>
    obtain ⟨-, -, chunk, previous, maximumInterest, rfl⟩ := new_eq_ok h
    exact ⟨Covers.empty _ _, Nat.le_refl _, by simp⟩
  | move hb hm ih => exact ih.move hb.sound hm

/-- An unsettled withdrawal has its position, and both sides still count it. -/
theorem Books.Withdrawable.position {m : Market A} {w : Withdrawal A}
    (h : (⟨m, F, t⟩ : Books A).Withdrawable) (hw : .withdrawal w ∈ F) :
    ∃ g, m.supplyPositionGuard w.accountId = some g ∧ w.amount < 2 ^ 128 ∧
      w.amount ≤ g.position.borrowAssetDeposit.outgoing ∧
      w.amountToAccount ≤ g.market.borrowAssetWithdrawalInFlight := by
  obtain ⟨hne, hlt⟩ := h.sized w hw
  have hcover := Nat.le_trans (le_load (withdraws w.accountId) hw) (h.outgoing w.accountId)
  simp only [withdraws, ↓reduceIte] at hcover
  cases hp : m.supplyPositions.lookup w.accountId with
  | none =>
    rw [part_of_none hp] at hcover
    omega
  | some p =>
    rw [part_of_lookup hp] at hcover
    refine ⟨⟨m, w.accountId, p⟩, ?_, hlt, hcover, Nat.le_trans (le_load sends hw) h.inFlight⟩
    simp [supplyPositionGuard, hp]

section Room

variable {E : Panic → Prop} {l : List IncomingDeposit} {index : Nat}

omit [DecidableEq A] in
theorem within_addToPosition {amount : Nat}
    (hroom : l.length < maxIncoming ∨ ∃ d, l.getLast? = some d ∧ d.activateAtSnapshotIndex = index)
    (hfits : dueAt index l + amount < 2 ^ 128) : Within E (addToPosition l amount index) := by
  unfold addToPosition
  cases hlast : l.getLast? with
  | none =>
    have hnil : l = [] := List.getLast?_eq_none_iff.mp hlast
    subst hnil
    exact (within_require (by decide)).bind fun _ _ => within_ok _
  | some d =>
    refine Within.ite (fun hd => ?_) fun hd => ?_
    · have hle : d.amount ≤ dueAt index l :=
        le_scheduled (List.mem_of_getLast? hlast) (decide_eq_true hd)
      exact (within_add (by omega)).bind fun _ _ => within_ok _
    · have hlen : l.length < maxIncoming := by
        rcases hroom with hlen | ⟨d', hd', hindex⟩
        · exact hlen
        · rw [hlast] at hd'
          cases hd'
          exact absurd hindex hd
      exact (within_require hlen).bind fun _ _ => within_ok _

omit [DecidableEq A] in
theorem within_addToMarket {amount : Nat} (hfits : dueAt index l + amount < 2 ^ 128) :
    Within E (addToMarket amount index l) := by
  induction l with
  | nil => exact within_ok _
  | cons d l ih =>
    simp only [dueAt, scheduled_cons, decide_eq_true_eq] at hfits ih
    refine Within.ite (fun hd => ?_) fun hd => ?_
    · rw [if_pos hd] at hfits
      exact (within_add (by omega)).bind fun _ _ => within_ok _
    · rw [if_neg hd] at hfits
      exact (ih (by omega)).bind fun _ _ => within_ok _

end Room

namespace SupplyPositionGuard

variable {g g' : SupplyPositionGuard A} {w : Withdrawal A}

/-- What a settlement needs beyond what every run provides. The fees of a withdrawal that
arrived fit into the yield of the protocol account. One that failed finds a free place
among the waiting deposits of its position, or one that already waits for the same
snapshot, and its amounts fit. -/
def Settleable (g : SupplyPositionGuard A) (w : Withdrawal A) : Bool → Prop
  | true => ((g.market.staticYield.lookup g.market.configuration.protocolAccountId).getD
      (Accumulator.new 1)).total + w.amountToFees < 2 ^ 128
  | false =>
    g.market.finalizedSnapshots.length + 1 < 2 ^ 32 ∧
      g.market.borrowAssetBalance + w.amountToAccount < 2 ^ 128 ∧
      dueAt (g.market.finalizedSnapshots.length + 1) g.market.borrowAssetDepositedIncoming +
        w.amount < 2 ^ 128 ∧
      dueAt (g.market.finalizedSnapshots.length + 1) g.position.borrowAssetDeposit.incoming +
        w.amount < 2 ^ 128 ∧
      (g.position.borrowAssetDeposit.incoming.length < maxIncoming ∨
        ∃ d ∈ g.position.borrowAssetDeposit.incoming.getLast?,
          d.activateAtSnapshotIndex = g.market.finalizedSnapshots.length + 1)

instance decidableSettleable (g : SupplyPositionGuard A) (w : Withdrawal A) :
    (success : Bool) → Decidable (g.Settleable w success)
  | true => inferInstanceAs (Decidable (_ < _))
  | false => inferInstanceAs (Decidable (_ ∧ _ ∧ _ ∧ _ ∧ (_ ∨ _)))

theorem within_recordWithdrawalFinal {E : Panic → Prop} {success : Bool} (hlt : w.amount < 2 ^ 128)
    (hout : w.amount ≤ g.position.borrowAssetDeposit.outgoing)
    (hin : w.amountToAccount ≤ g.market.borrowAssetWithdrawalInFlight)
    (h : g.Settleable w success) : Within E (g.recordWithdrawalFinal w success) := by
  refine (within_add hlt).bind fun amount hamount => ?_
  obtain ⟨-, rfl⟩ := add_eq_ok.mp hamount
  refine (within_sub hout).bind fun outgoing _ => (within_sub hin).bind fun inFlight _ => ?_
  cases success with
  | true =>
    refine Within.bind ?_ fun market _ => within_ok _
    exact ((within_add h).bind fun _ _ => within_ok _).bind fun _ _ => within_ok _
  | false =>
    obtain ⟨hindex, hbalance, hmarket, hposition, hroom⟩ := h
    refine (within_add hbalance).bind fun balance _ => ?_
    refine (within_fit (by simp only; omega)).bind fun len hlen => ?_
    obtain ⟨-, rfl⟩ := fit_eq_ok.mp hlen
    refine (within_add hindex).bind fun index hindex => ?_
    obtain ⟨-, rfl⟩ := add_eq_ok.mp hindex
    refine (within_addToPosition hroom hposition).bind fun incoming _ => ?_
    exact (within_addToMarket hmarket).bind fun _ _ => within_ok _

end SupplyPositionGuard

/-- Everything a position has in the market: funds that are active, wait or leave, and
the yield that was not withdrawn. -/
def SupplyPosition.worth (p : SupplyPosition) : Nat :=
  p.borrowAssetDeposit.active + waiting p.borrowAssetDeposit.incoming +
    p.borrowAssetDeposit.outgoing + p.borrowAssetYield.total

namespace SupplyPositionGuard

variable {g g' : SupplyPositionGuard A} {w : Withdrawal A}

/-- The start of a withdrawal moves funds within its position. -/
theorem worth_recordWithdrawalInitial {requested now : Nat} {attempt : WithdrawalAttempt A}
    (hs : g.drop.SupplyAgrees) (hg : g.Accrued)
    (h : g.recordWithdrawalInitial requested now = .ok (attempt, g')) :
    g'.position.worth = g.position.worth := by
  cases hw : attempt.withdrawal with
  | none => rw [recordWithdrawalInitial_idle h hw]
  | some w =>
    obtain ⟨fy, fi, fa, incoming, entries, hw⟩ :=
      recordWithdrawalInitial_withdrawn h hw (orderly_of_accrued hs hg) hs.single
    have hamount := hw.amount
    have hyield := hw.yield_eq
    have hincoming := hw.incoming_waiting
    have hactive := hw.active_le
    rw [hw.result]
    simp only [SupplyPosition.worth]
    omega

/-- A failed transfer moves its funds back, to wait for the next snapshot. -/
theorem worth_recordWithdrawalFinal (hs : g.drop.SupplyAgrees)
    (h : g.recordWithdrawalFinal w false = .ok g') : g'.position.worth = g.position.worth := by
  obtain ⟨incoming, entries, -, hout, -, -, -, hp, -, rfl⟩ := recordWithdrawalFinal_failure h
  have hb := position_of_drop hs
  have hle := hb.next_le
  have hsum := (addToPosition_eq_ok hp hb.orderly (by omega)).2 fun _ => true
  simp only [↓reduceIte] at hsum
  simp only [SupplyPosition.worth, waiting, hsum]
  omega

end SupplyPositionGuard

/-- What holds of the guard of every visited entry, whatever the run did before. -/
theorem Booked.loopMeets {x : Market.Execution A} {remaining : Nat}
    {P : SupplyPositionGuard A → Nat → Prop} (h : Booked C ⟨x.market, F, t⟩)
    (hC : ∀ g requested, C.withdrawal g requested)
    (hP : ∀ g F requested, Booked C ⟨g.drop, F, t⟩ → g.Accrued → P g requested) :
    LoopMeets P t remaining x := by
  induction remaining generalizing x F with
  | zero => trivial
  | succ remaining ih =>
    intro a requested hpeek
    refine ⟨?_, ?_⟩
    · intro g g' hg hg'
      obtain ⟨h₁, hacc, -⟩ := (h.openSupply hg).1.accumulateYield hg'
      exact hP g' F requested h₁ hacc
    · intro x' hx'
      obtain ⟨hr, l, hl⟩ := h.sound.wellFormed.queue.peek_some hpeek
      obtain ⟨added, _, _, -, h₁, -⟩ := h.visit hr hl (fun _ g' _ _ => hC g' requested) hx'
      exact ih h₁

section Results

variable {s : System A}

/-- Every settlement finds its position and completes if there is room for it; whatever
was settled before, and whenever. A failed one gives the position back what it had: the
start of a withdrawal leaves its worth alone, and so does the failure. -/
theorem settlement_succeeds_of_room (h : s.Reachable) {env : Env}
    (ht : s.time ≤ env.blockTimestampMs) {m : Market A}
    (hm : s.market.snapshot env.blockTimestampMs = .ok m) :
    (∀ limit, LoopMeets (fun g requested => ∀ attempt g',
        g.recordWithdrawalInitial requested env.blockTimestampMs = .ok (attempt, g') →
        g'.position.worth = g.position.worth) env.blockTimestampMs limit ⟨m, [], 0⟩) ∧
      ∀ settled w rest result reply m', .withdrawal01 (settled ++ w :: rest) result ∈ s.pending →
        settleLoop env reply settled 0 m = .ok m' →
        ∃ g, m'.supplyPositionGuard w.accountId = some g ∧
          (g.Settleable w (reply.succeeded settled.length) →
            ∃ g', g.recordWithdrawalFinal w (reply.succeeded settled.length) = .ok g' ∧
              (reply.succeeded settled.length = false → g'.position.worth = g.position.worth)) := by
  have hb := (h.booked_at ht env.blockTimestampMs_lt).snapshot hm
  refine ⟨fun limit => ?_, ?_⟩
  · refine Booked.loopMeets (x := ⟨m, [], 0⟩) hb (fun _ _ => trivial) ?_
    intro g F requested hg hacc attempt g' hstart
    exact worth_recordWithdrawalInitial hg.sound.supply hacc hstart
  · intro settled w rest result reply m' hpending hsettled
    obtain ⟨i, hi⟩ := List.getElem?_of_mem hpending
    have hflights : flightsOf s.pending = batchFlights settled +
        (.withdrawal w ::ₘ (batchFlights rest + flightsOf (s.pending.eraseIdx i))) := by
      rw [flightsOf_eraseIdx hi, ← cons_add, ← batchFlights_cons, ← add_assoc,
        ← batchFlights_append]
      rfl
    rw [hflights] at hb
    have hb := hb.settleLoop hsettled
    obtain ⟨g, hg, hlt, hout, hin⟩ := hb.withdrawable.position (mem_cons_self _ _)
    refine ⟨g, hg, fun hroom => ?_⟩
    obtain ⟨g', hg'⟩ : ∃ g', g.recordWithdrawalFinal w (reply.succeeded settled.length) = .ok g' :=
      (within_recordWithdrawalFinal hlt hout hin hroom).exists_ok
    refine ⟨g', hg', fun hfailed => ?_⟩
    rw [hfailed] at hg'
    exact worth_recordWithdrawalFinal (hb.openSupply hg).1.sound.supply hg'

/-- Five withdrawals of one unit each by the first account, all in flight at once. -/
def fiveWithdrawals : List (Action Nat) :=
  [supplyAction 1000 1 1000, .call (sampleEnv 2000) (.harvestYield 1 none none)] ++
    (List.replicate 5 [requestAction 2000 1 1,
      .call (sampleEnv 2000) (.executeNextSupplyWithdrawalRequest none)]).flatten

/-- The first withdrawal in flight, as the receipt has it. -/
def unitWithdrawal : Withdrawal Nat := ⟨1, 1, 0⟩

/-- The first of them fails at the next snapshot and has room. -/
theorem settlement_succeeds_of_room_sample :
    ∃ (s : System Nat) (m : Market Nat) (g g' : SupplyPositionGuard Nat), s.Reachable ∧
      s.market.snapshot 3000 = .ok m ∧ m.supplyPositionGuard 1 = some g ∧
      g.Settleable unitWithdrawal false ∧
      g.recordWithdrawalFinal unitWithdrawal false = .ok g' ∧
      g'.position.worth = g.position.worth := by
  obtain ⟨s, hs, htime, hpending, m, hm, g, hg, hroom⟩ : ∃ s : System Nat, s.Reachable ∧
      s.time ≤ (sampleEnv 3000).blockTimestampMs ∧
      .withdrawal01 [unitWithdrawal] ⟨1, 1⟩ ∈ s.pending ∧ ∃ m, s.market.snapshot 3000 = .ok m ∧
        ∃ g, m.supplyPositionGuard 1 = some g ∧ g.Settleable unitWithdrawal false :=
    exists_reachable sampleConfiguration 1000 fiveWithdrawals (by decide +kernel) (by decide) (by decide)
  obtain ⟨g₁, hg₁, hsettle⟩ := (settlement_succeeds_of_room hs htime hm).2 [] unitWithdrawal []
    ⟨1, 1⟩ (sampleReply false) m hpending rfl
  cases hg.symm.trans hg₁
  obtain ⟨g', hg', hworth⟩ := hsettle hroom
  exact ⟨s, m, g, g', hs, hm, hg, hroom, hg', hworth rfl⟩

/-- Four of them fail, each at a later snapshot than the one before, and nothing accrues the
position in between: there is no room for the fifth. Its callback aborts and its receipt
is spent, so the unit is outgoing for good. -/
theorem settlement_aborts_without_room : ∃ s : System Nat, s.Reachable ∧ s.time ≤ 7000 ∧
      .withdrawal01 [unitWithdrawal] ⟨1, 1⟩ ∈ s.pending ∧
      s.market.callback (sampleEnv 7000) (sampleReply false)
        (.withdrawal01 [unitWithdrawal] ⟨1, 1⟩) = .error (.message tooManyDepositsText) := by
  exact exists_reachable sampleConfiguration 1000
    (fiveWithdrawals ++ [3000, 4000, 5000, 6000].map fun time =>
      .callback (sampleEnv time) 0 (sampleReply false))
    (by decide +kernel) (by decide) (by decide)

/-- An execution that completes has cleared requests from the front, and reports by how many and
by how much. No withdrawal it started pays more than its request or than its position holds. -/
theorem execution_accounts_for_queue (h : s.Reachable) {env : Env} {batchLimit : Option Nat}
    {m' : Market A} {answer : PromiseOrValue A WithdrawalQueueExecutionResult}
    (ht : s.time ≤ env.blockTimestampMs)
    (he : s.market.executeNextSupplyWithdrawalRequest env batchLimit = .ok (m', answer)) :
    ∃ (m : Market A) (x : Market.Execution A) (result : WithdrawalQueueExecutionResult)
        (gone rest requests : List (A × Nat)),
      s.market.snapshot env.blockTimestampMs = .ok m ∧
      executeLoop env.blockTimestampMs (batchLimit.getD 1) ⟨m, [], 0⟩ = .ok x ∧
      m' = x.market ∧
      answer = (if x.batch = [] then .value result else .promise (.withdrawal01 x.batch result)) ∧
      (∀ (m₁ : Market A) env reply r, m₁.withdrawal01Finalize env reply x.batch result = .ok r →
        r.2 = result) ∧
      s.market.withdrawalQueue.iter (gone ++ rest).length = .ok (some (gone ++ rest)) ∧
      m'.withdrawalQueue.iter requests.length = .ok (some requests) ∧
      gone.length ≤ batchLimit.getD 1 ∧
      (requests = rest ∨ ∃ a v r tail, rest = (a, v) :: tail ∧ requests = (a, r) :: tail ∧ r ≤ v ∧
        gone.length < batchLimit.getD 1) ∧
      ((gone ++ rest).map Prod.snd).sum = (requests.map Prod.snd).sum + result.depth ∧
      s.market.withdrawalQueue.len = m'.withdrawalQueue.len + result.length ∧
      result.length = gone.length ∧
      (∀ w ∈ x.batch, w.Serves (gone ++ rest)) ∧
      LoopMeets (fun g requested => ∀ attempt g' w,
        g.recordWithdrawalInitial requested env.blockTimestampMs = .ok (attempt, g') →
        attempt.withdrawal = some w → w.amountToAccount + w.amountToFees ≤ requested ∧
          w.amountToAccount + w.amountToFees ≤ g.position.borrowAssetDeposit.active +
            waiting g.position.borrowAssetDeposit.incoming + g.position.borrowAssetYield.total)
        env.blockTimestampMs (batchLimit.getD 1) ⟨m, [], 0⟩ := by
  simp only [executeNextSupplyWithdrawalRequest, do_ok] at he
  obtain ⟨m, hm, x, hx, _, ⟨-, rfl⟩, he⟩ := he
  have hb := (h.booked_at ht env.blockTimestampMs_lt).snapshot hm
  have hqueue : m.withdrawalQueue = s.market.withdrawalQueue := by
    rcases snapshot_eq_ok hm with rfl | ⟨_, _, _, _, -, -, -, rfl⟩
    · rfl
    · rfl
  obtain ⟨f, hf, -⟩ := hb.sound.wellFormed.queue
  obtain ⟨added, depth, requests, hbatch, -, hserves, hcleared, hl, hdepth⟩ := hb.executeLoop (x := ⟨m, [], 0⟩)
    ⟨f, hf, rfl⟩ (loopMeets_none (fun _ _ => trivial) _ _ _) hx
  obtain ⟨gone, rest, hsplit, hgone, hrest⟩ := hcleared.split
  have hold : s.market.withdrawalQueue.Holds (gone ++ rest) := ⟨f, hqueue ▸ hf, hsplit⟩
  have hsum := hcleared.depth_eq
  have hlen : s.market.withdrawalQueue.len = x.market.withdrawalQueue.len + gone.length := by
    rw [hold.len, hl.len]
    rcases hrest with rfl | ⟨a, v, r, tail, rfl, rfl, -⟩
    all_goals
      simp only [List.length_append, List.length_cons]
      omega
  have hresult : m' = x.market ∧ answer = (if x.batch = [] then
      .value ⟨x.depthCleared, gone.length⟩
      else .promise (.withdrawal01 x.batch ⟨x.depthCleared, gone.length⟩)) := by
    rw [hqueue, hlen, Nat.add_sub_cancel_left] at he
    split at he
    · rename_i hempty
      cases he
      exact ⟨rfl, (if_pos (List.isEmpty_iff.mp hempty)).symm⟩
    · rename_i hsome
      cases he
      exact ⟨rfl, (if_neg fun hempty => hsome (List.isEmpty_iff.mpr hempty)).symm⟩
  obtain ⟨rfl, hanswer⟩ := hresult
  refine ⟨m, x, _, gone, rest, requests, hm, hx, rfl, hanswer, ?_, hold.iter, hl.iter, hgone, hrest, ?_,
    hlen, rfl, ?_, ?_⟩
  · intro m₁ env reply r hr
    simp only [withdrawal01Finalize, do_ok] at hr
    obtain ⟨_, -, _, -, rfl⟩ := hr
    rfl
  · rw [hsplit] at hsum
    simp only [Nat.zero_add] at hdepth
    rw [hdepth]
    exact hsum
  · rw [hsplit] at hserves
    rw [hbatch]
    exact hserves
  · refine Booked.loopMeets (x := ⟨m, [], 0⟩) hb (fun _ _ => trivial) ?_
    intro g F requested hg hacc attempt g' w hstart hw
    have hs := hg.sound.supply
    obtain ⟨fy, fi, fa, incoming, entries, hw⟩ :=
      recordWithdrawalInitial_withdrawn hstart hw (orderly_of_accrued hs hacc) hs.single
    have hle := hw.le_requested
    simp only [entitled] at hle
    omega

/-- All the first account has is in flight when it asks again. The request is cleared without a
transfer, so the result is returned at once. -/
theorem execution_accounts_for_queue_sample :
    ∃ (s : System Nat) (m' : Market Nat) (gone rest requests : List (Nat × Nat)), s.Reachable ∧
      s.market.executeNextSupplyWithdrawalRequest (sampleEnv 3000) (some 2) =
        .ok (m', .value ⟨100, 1⟩) ∧
      s.market.withdrawalQueue.iter (gone ++ rest).length = .ok (some (gone ++ rest)) ∧
      m'.withdrawalQueue.iter requests.length = .ok (some requests) ∧ gone.length = 1 ∧
      ((gone ++ rest).map Prod.snd).sum = (requests.map Prod.snd).sum + 100 := by
  obtain ⟨s, hs, ht, ⟨m', _⟩, he, rfl⟩ : ∃ s : System Nat, s.Reachable ∧ s.time ≤ 3000 ∧
      ∃ r, s.market.executeNextSupplyWithdrawalRequest (sampleEnv 3000) (some 2) = .ok r ∧
        r.2 = .value ⟨100, 1⟩ :=
    exists_reachable sampleConfiguration 1000
      (activeSupply ++ [requestAction 2000 1 100,
        .call (sampleEnv 2000) (.executeNextSupplyWithdrawalRequest none), requestAction 2000 1 100])
      (by decide +kernel) (by decide) (by decide)
  obtain ⟨_, x, result, gone, rest, requests, -, -, -, hanswer, -, hiter, hiter', -, -, hdepth, -,
    hlength, -⟩ := execution_accounts_for_queue hs ht he
  split at hanswer
  · cases hanswer
    exact ⟨s, m', gone, rest, requests, hs, he, hiter, hiter', hlength.symm, hdepth⟩
  · cases hanswer

end Results

end Templar.Lending
