import Templar.Lending.Shares

/-!
# Borrowers are charged for the debt a snapshot recorded

A snapshot freezes what is borrowed, with the borrows in flight. Borrowers accrue it later,
from the principal their position has at that time; no operation changes the principal of a
position that has not accrued every finalized snapshot. So once all of them have accrued a
snapshot, the principals add up to what it froze. The charges are proportional to the
principals and rounded down one by one, the interest shared by the suppliers is rounded
down once: they differ by less than one unit for each borrower.
-/

namespace Templar.Lending

open Checked JournalEntry Apportioned List Decimal Market

variable {A : Type} [DecidableEq A] {C : Conditions A}

/-- The borrowed funds of every snapshot are apportioned to the borrowers. -/
def Market.InterestApportioned (m : Market A) : Prop :=
  Apportioned (fun p : BorrowPosition => p.interest.nextSnapshotIndex)
    (fun _ => BorrowPositionGuard.owed) m.finalizedSnapshots.length
    (frozen Snapshot.borrowAssetBorrowed m.finalizedSnapshots) m.borrowPositions
    (logOf interestShare m.journal)

section Borrow

variable {t : Nat} {F F' : Multiset (Flight A)}
variable {g g' : BorrowPositionGuard A}

omit [DecidableEq A] in
/-- No finalized snapshot is left to an accrued position. -/
theorem BorrowPositionGuard.Accrued.none_left {P : Nat → Prop} (hg : g.Accrued) :
    ∀ k, g.position.interest.nextSnapshotIndex ≤ k → k < g.market.finalizedSnapshots.length →
      P k := by
  intro k hk hlt
  rw [hg] at hk
  omega

theorem BorrowOp.interestApportioned (op : BorrowOp C t g F g' F')
    (h : g.drop.InterestApportioned) : g'.drop.InterestApportioned := by
  cases op.effect with
  | interest hfrom hstop hnext hpassed =>
    exact pass h hfrom hstop hnext (fun k => hpassed.logOf_append _ k) fun _ _ _ => rfl
  | deposit | withdraw _ _ | settleWithdrawal _ _ => exact replace h rfl fun _ _ _ => rfl
  | borrow _ hg _ _ _ | settleBorrow _ hg _ _ _ => exact replace h rfl hg.none_left
  | pay _ hg _ _ _ _ hjournal =>
    rcases hjournal with ⟨rfl, -⟩ | rfl
    · exact replace h rfl hg.none_left
    · exact congr (replace h rfl hg.none_left)
        (logOf_append_of_none (forall_mem_singleton.mpr rfl) _) fun _ _ => rfl

end Borrow

theorem SupplyOp.interestApportioned {t : Nat} {F F' : Multiset (Flight A)}
    {g g' : SupplyPositionGuard A} (op : SupplyOp C t g F g' F') (hs : g.drop.SupplyAgrees)
    (h : g.market.InterestApportioned) : g'.market.InterestApportioned := by
  obtain ⟨hk, -, -⟩ := op.keeps hs
  unfold Market.InterestApportioned at h ⊢
  rw [hk.snapshots, hk.positions]
  exact h.congr (fun k => (op.logOf_other hs k).2) fun _ _ => rfl

theorem Booked.interestApportioned {b : Books A} (h : Booked C b) :
    b.market.InterestApportioned := by
  induction h with
  | new ht h =>
    obtain ⟨-, -, chunk, previous, maximumInterest, rfl⟩ := new_eq_ok h
    refine empty fun k hk => ?_
    simp only [length_singleton, Nat.lt_one_iff] at hk
    subst hk
    rfl
  | move hb hm ih =>
    have hs := hb.sound
    cases hm with
    | @snapshot m _ _ _ h =>
      rcases snapshot_eq_ok h with rfl | ⟨now, s, active, incoming, hcur, -, -, rfl⟩
      · exact ih
      · obtain ⟨-, -, hborrowed, -⟩ := currentSnapshot_eq_ok hcur
        have hagrees := hb.borrowAgrees
        have howed : Table.total BorrowPositionGuard.owed m.borrowPositions =
            m.borrowAssetBorrowed + m.borrowAssetBorrowedInFlight :=
          (Table.total_add _ _ _).trans (congrArg₂ _ hagrees.principal hagrees.inFlight)
        have hclose := ih.close (fun k hk => frozen_append Snapshot.borrowAssetBorrowed s hk)
          ((frozen_last _ _ _).trans (hborrowed.trans howed.symm))
        unfold Market.InterestApportioned
        rw [length_append]
        exact hclose
    | createSupply h h₁ h₂ =>
      obtain ⟨hfresh, op₁, hagrees, op₂⟩ := Booked.created (C := C) hs h h₁ h₂
      exact op₂.interestApportioned hagrees (op₁.interestApportioned hfresh ih)
    | supply op => exact op.interestApportioned hs.supply ih
    | openBorrow h =>
      rcases h with h | ⟨h, rfl⟩
      · exact reinsert ih h
      · exact create ih h rfl
    | borrow op => exact op.interestApportioned ih
    | cleanupBorrow h hp =>
      obtain ⟨-, hprincipal, hinFlight, -⟩ := BorrowPosition.exists_eq_false hp
      refine erase ih h fun k _ => ?_
      rw [BorrowPositionGuard.owed, hprincipal, hinFlight]
    | accumulateStaticYield h =>
      obtain ⟨numerator, before, after, stop, entries, -, -, -, -, -, -, hpassed, rfl⟩ :=
        accumulateStaticYield_eq_ok h
      have hnone := hpassed.others staticShare_other
      exact ih.congr (logOf_append_of_none (fun e he => (hnone e he).2) _) fun _ _ => rfl
    | withdrawStaticYield h =>
      obtain ⟨record, sent, -, -, -, he⟩ := withdrawStaticYield_eq_ok h
      cases he
      exact ih.congr (logOf_append_of_none (forall_mem_singleton.mpr rfl) _) fun _ _ => rfl
    | settleStaticYield h =>
      rcases withdrawStaticYield01Finalize_eq_ok h with he | ⟨record, -, he⟩
      · cases he
        exact ih
      · cases he
        exact ih.congr (logOf_append_of_none (forall_mem_singleton.mpr rfl) _) fun _ _ => rfl
    | tick | lose | queue | openSupply | cleanupSupply => exact ih

section Charges

variable {snapshot : Snapshot} {prevEnd principal value : Nat} {d a b : Decimal}

/-- What a unit of principal is charged for a snapshot, in units of `2^-256`. -/
def Snapshot.unitCharge (s : Snapshot) (prevEndTimestampMs : Nat) : Nat :=
  s.interestRate.repr * (s.endTimestampMs - prevEndTimestampMs) * yearPerMs.repr

section

omit [DecidableEq A]

theorem ofUInt_mul_repr (hv : value < 2 ^ 256) (h : (ofUInt value).mul a = .ok b) :
    b.repr = value * a.repr := by
  rw [mul_repr h, ofUInt_repr hv, Nat.mul_right_comm]
  exact Nat.mul_div_cancel _ (Nat.two_pow_pos 128)

theorem mul_ofUInt_repr (hv : value < 2 ^ 256) (h : a.mul (ofUInt value) = .ok b) :
    b.repr = a.repr * value := by
  rw [mul_repr h, ofUInt_repr hv, ← Nat.mul_assoc]
  exact Nat.mul_div_cancel _ (Nat.two_pow_pos 128)

/-- A charge is rounded once. -/
theorem Snapshot.interestOn_eq_ok (hp : principal < 2 ^ 256) (he : snapshot.endTimestampMs < 2 ^ 256)
    (h : snapshot.interestOn principal prevEnd = .ok d) :
    d.repr = principal * snapshot.unitCharge prevEnd / 2 ^ 128 := by
  simp only [Snapshot.interestOn, do_ok] at h
  obtain ⟨duration, hduration, yearly, hyearly, scaled, hscaled, hd⟩ := h
  obtain rfl : duration = snapshot.endTimestampMs - prevEnd := by
    split at hduration
    · exact (Option.some.inj hduration).symm
    · cases hduration
  rw [mul_repr hd, mul_ofUInt_repr ((Nat.sub_le _ _).trans_lt he) hscaled,
    ofUInt_mul_repr hp hyearly, unitCharge, Nat.mul_assoc, Nat.mul_assoc, Nat.mul_assoc]

/-- And so is the interest of all borrowers together. -/
theorem Snapshot.interestPaidByBorrowers_eq_ok (hb : snapshot.borrowAssetBorrowed < 2 ^ 256)
    (h : snapshot.interestPaidByBorrowers prevEnd = .ok d) :
    d.repr = snapshot.borrowAssetBorrowed * snapshot.unitCharge prevEnd / 2 ^ 128 := by
  simp only [Snapshot.interestPaidByBorrowers, do_ok, mulInt_eq_ok] at h
  obtain ⟨duration, ⟨-, rfl⟩, yearly, hyearly, scaled, hscaled, hd⟩ := h
  rw [mul_repr hd, hscaled, ofUInt_mul_repr hb hyearly, unitCharge, Nat.mul_assoc,
    Nat.mul_assoc, Nat.mul_assoc]

end

end Charges

section Results

variable {s : System A}

/-- Once every borrow position has accrued a snapshot, the principals the borrowers were
charged on add up to what it recorded. Their charges are at most the interest that is
shared, and less by fewer units of `2^-128` than there are borrowers. -/
theorem interest_charged_on_recorded_debt (h : s.Reachable) {k prevEnd : Nat} {snapshot : Snapshot}
    (hat : SnapshotAt s.market.finalizedSnapshots k snapshot prevEnd)
    (hall : ∀ a p, s.market.borrowPositions.lookup a = some p → k < p.interest.nextSnapshotIndex) :
    ((sharesAt interestShare k s.market.journal).map Share.accountId).Nodup ∧
      ((sharesAt interestShare k s.market.journal).map Share.amount).sum =
        snapshot.borrowAssetBorrowed ∧
      ∀ interest, snapshot.interestPaidByBorrowers prevEnd = .ok interest →
        ((sharesAt interestShare k s.market.journal).map Share.credit).sum ≤
            interest.repr ∧
          interest.repr ≤
            ((sharesAt interestShare k s.market.journal).map Share.credit).sum +
              ((((sharesAt interestShare k s.market.journal).map
                Share.amount).filter (· ≠ 0)).length - 1) := by
  have happ : s.market.InterestApportioned := h.booked.interestApportioned
  have hruled : RuledBy s.market s.market.journal := h.booked.ruled
  have hwell := h.booked.sound.wellFormed
  have hmem : snapshot ∈ s.market.finalizedSnapshots := mem_of_getElem? hat.current
  have hborrowed : snapshot.borrowAssetBorrowed < 2 ^ 256 :=
    (hwell.borrowed_lt snapshot hmem).trans (by decide)
  have hend : snapshot.endTimestampMs < 2 ^ 256 :=
    ((hwell.past snapshot hmem).trans_lt hwell.time_lt).trans (by decide)
  have hsum := happ.sum_eq hat.lt hall
  rw [logOf_amounts, frozen_of_getElem hat.current] at hsum
  refine ⟨?_, hsum, fun interest hi => ?_⟩
  · have hnodup := happ.nodup k
    rwa [logOf_accounts] at hnodup
  · have hcredits : (sharesAt interestShare k s.market.journal).map Share.credit =
        ((sharesAt interestShare k s.market.journal).map Share.amount).map
          fun p => p * snapshot.unitCharge prevEnd / 2 ^ 128 := by
      rw [map_map]
      apply map_congr_left
      intro share hshare
      obtain ⟨snapshot', prevEnd', d, hat', hd, hrepr⟩ := hruled.interest k share hshare
      obtain ⟨rfl, rfl⟩ := hat'.unique hat
      have hle : share.amount ≤ snapshot'.borrowAssetBorrowed := by
        rw [← hsum]
        exact single_le_sum (by simp) _ (mem_map_of_mem hshare)
      rw [Function.comp_apply, ← hrepr]
      exact Snapshot.interestOn_eq_ok (hle.trans_lt hborrowed) hend hd
    rw [Snapshot.interestPaidByBorrowers_eq_ok hborrowed hi, ← hsum, hcredits]
    exact ⟨sum_div_le _ _ _, le_sum_div _ (Nat.two_pow_pos 128) _⟩

/-- The sample market at a yearly rate of one. -/
def interestConfiguration : MarketConfiguration Nat :=
  { sampleConfiguration with borrowInterestRateStrategy := .linear ⟨one, one⟩ }

/-- Two borrowers, one of them with its transfer still in flight, both accrue a snapshot. -/
theorem interest_charged_on_recorded_debt_sample :
    ∃ (s : System Nat) (snapshot : Snapshot) (interest : Decimal), s.Reachable ∧
      s.market.finalizedSnapshots[2]? = some snapshot ∧ interest.repr ≠ 0 ∧
      snapshot.borrowAssetBorrowed = 50 ∧
      ((sharesAt interestShare 2 s.market.journal).map Share.amount).sum = 50 ∧
      ((sharesAt interestShare 2 s.market.journal).map Share.credit).sum ≤ interest.repr ∧
      interest.repr ≤ ((sharesAt interestShare 2 s.market.journal).map Share.credit).sum + 1 := by
  obtain ⟨s, hs, hall, hcount, previous, hprevious, snapshot, hsnapshot, hborrowed, interest, hi,
      hne⟩ : ∃ s : System Nat, s.Reachable ∧
        (∀ e ∈ s.market.borrowPositions.entries, 2 < e.2.interest.nextSnapshotIndex) ∧
        (((sharesAt interestShare 2 s.market.journal).map Share.amount).filter (· ≠ 0)).length = 2 ∧
        ∃ previous, s.market.finalizedSnapshots[1]? = some previous ∧
          ∃ snapshot, s.market.finalizedSnapshots[2]? = some snapshot ∧
            snapshot.borrowAssetBorrowed = 50 ∧
            ∃ interest, snapshot.interestPaidByBorrowers previous.endTimestampMs = .ok interest ∧
              interest.repr ≠ 0 :=
    System.exists_reachable interestConfiguration 1000
      (activeSupply ++ collateralActions 2000 2 1000 ++ collateralActions 2000 3 1000 ++
        borrowActions 2000 2 30 0 ++ [.callback (sampleEnv 2000) 0 (sampleReply true)] ++
        borrowActions 2000 3 20 0 ++
        [.call (sampleEnv 3000) (.applyInterest 2 none none),
          .call (sampleEnv 3000) (.applyInterest 3 none none)])
      (by decide +kernel) (by decide) (by decide)
  have hat : SnapshotAt s.market.finalizedSnapshots 2 snapshot previous.endTimestampMs :=
    ⟨by omega, hsnapshot, previous, hprevious, rfl⟩
  obtain ⟨-, hsum, hbounds⟩ := interest_charged_on_recorded_debt hs hat
    fun a p hp => hall ⟨a, p⟩ (AList.mem_lookup_iff.mp hp)
  obtain ⟨hle, hge⟩ := hbounds interest hi
  rw [hcount] at hge
  exact ⟨s, snapshot, interest, hs, hsnapshot, hne, hborrowed, hsum.trans hborrowed, hle, hge⟩

end Results

end Templar.Lending
