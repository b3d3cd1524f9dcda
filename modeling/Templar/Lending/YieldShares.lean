import Templar.Lending.Shares

/-!
# Yield is never over-distributed

A snapshot freezes the active funds. Suppliers accrue it later, one by one, and each
reproduces the amount that was active in its position at the time: together they use no
more than the snapshot froze. A supplier's share is proportional to that amount and to the
weight of all suppliers, a static account's to its own weight, and every division rounds
down; so what is credited for a snapshot is never more than it has to give.
-/

namespace Templar.Lending

open Checked SupplyPositionGuard JournalEntry Apportioned Market Table Option

variable {A : Type} [DecidableEq A] {C : Conditions A} {b : Books A}
  {t : Nat} {F F' : Multiset (Flight A)} {g g' : SupplyPositionGuard A}

/-- The active funds of every snapshot are apportioned to the suppliers. -/
def Market.YieldApportioned (m : Market A) : Prop :=
  Apportioned (fun p : SupplyPosition => p.borrowAssetYield.nextSnapshotIndex) SupplyPosition.heldAt
    m.finalizedSnapshots.length (frozen Snapshot.borrowAssetDepositedActive m.finalizedSnapshots)
    m.supplyPositions (logOf yieldShare m.journal)

/-- Static accounts take part in every snapshot at most once; what they are credited does
not depend on an amount. -/
structure Market.StaticApportioned (m : Market A) : Prop where
  apportioned : Apportioned Accumulator.nextSnapshotIndex (fun _ _ => 0) m.finalizedSnapshots.length
    (fun _ => 0) m.staticYield (logOf staticShare m.journal)
  present : ∀ k a, a ∈ (logOf staticShare m.journal k).map Prod.fst →
    (m.staticYield.lookup a).isSome

section Supply

theorem SupplyOp.yieldApportioned (op : SupplyOp C t g F g' F') (hs : g.drop.SupplyAgrees)
    (h : g.drop.YieldApportioned) : g'.drop.YieldApportioned := by
  have hp := position_of_drop hs
  cases op with
  | accumulate ho =>
    obtain ⟨stop, active, incoming, yield, entries, weight, hstop, -, hle, -, hact, hnext, hpassed,
      rfl⟩ := accumulateYieldPartial_eq_ok ho hp.orderly
    obtain ⟨-, hheld, -⟩ := activateThrough_eq_ok hact hp.orderly
    refine pass h ?_ ?_ hnext (fun k => hpassed.logOf_append _ k) fun k hk _ => hheld k hk
    · omega
    · simp only [drop]
      omega
  | deposit hg ho =>
    obtain ⟨startedAt, incoming, entries, -, -, -, -, rfl⟩ := recordDeposit_eq_ok ho
    -- An accrued position has no snapshot left to take part in.
    refine replace h rfl fun k hk hlt => ?_
    simp only [drop, hg.symm] at hk hlt
    omega
  | withdraw hg hr hc ho hw =>
    obtain ⟨fy, fi, fa, incoming, entries, hw⟩ :=
      recordWithdrawalInitial_withdrawn ho hw (orderly_of_accrued hs hg) hs.single
    rw [hw.result]
    refine congr (replace h rfl fun k hk hlt => ?_)
      (fun k => logOf_append_of_none (List.forall_mem_singleton.mpr rfl) _ k) fun _ _ => rfl
    simp only [drop, hg.symm] at hk hlt
    omega
  | @settle _ _ w success ha ho =>
    cases success with
    | true =>
      obtain ⟨record, -, -, -, -, rfl⟩ := recordWithdrawalFinal_success ho
      exact replace h rfl fun _ _ _ => rfl
    | false =>
      obtain ⟨incoming, entries, -, -, -, -, -, hadd, -, rfl⟩ := recordWithdrawalFinal_failure ho
      refine congr (replace h rfl fun k hk hlt => ?_)
        (fun k => logOf_append_of_none (List.forall_mem_singleton.mpr rfl) _ k) fun _ _ => rfl
      -- What returns waits for a snapshot that is not finalized yet.
      have hnext := hp.next_le
      have hsum := (addToPosition_eq_ok hadd hp.orderly (by omega)).2 fun i => decide (i ≤ k)
      simp only [drop] at hlt
      rw [if_neg (by simp only [decide_eq_true_eq]; omega), Nat.add_zero] at hsum
      simp only [SupplyPosition.heldAt, activeAt, hsum]

end Supply

theorem Booked.yieldApportioned (h : Booked C b) : b.market.YieldApportioned := by
  induction h with
  | new ht h =>
    obtain ⟨-, -, chunk, previous, maximumInterest, rfl⟩ := new_eq_ok h
    refine empty fun k hk => ?_
    simp only [List.length_singleton, Nat.lt_one_iff] at hk
    subst hk
    rfl
  | move hb hm ih =>
    have hs := hb.sound
    cases hm with
    | @snapshot m _ _ _ h =>
      rcases snapshot_eq_ok h with rfl | ⟨now, s, active, incoming, hcur, -, -, rfl⟩
      · exact ih
      · have hagrees : m.SupplyAgrees := hs.supply
        obtain ⟨-, hactive, -⟩ := currentSnapshot_eq_ok hcur
        rw [hagrees.single.incomingAt, hagrees.single.dueAt_eq, if_neg (by omega),
          Nat.add_zero] at hactive
        have hclose := ih.close (fun k hk => frozen_append Snapshot.borrowAssetDepositedActive s hk)
          ((frozen_last _ _ _).trans (hactive.trans hagrees.active_eq.symm))
        unfold Market.YieldApportioned
        rw [List.length_append]
        exact hclose
    | openSupply h => exact reinsert ih h
    | createSupply h h₁ h₂ =>
      obtain ⟨hfresh, op₁, hagrees, op₂⟩ := Booked.created (C := C) hs h h₁ h₂
      exact op₂.yieldApportioned hagrees (op₁.yieldApportioned hfresh (create ih h rfl))
    | supply op => exact op.yieldApportioned hs.supply ih
    | @cleanupSupply _ _ p _ _ h hp =>
      obtain ⟨hactive, hwaiting, -⟩ := SupplyPosition.canBeRemoved_eq_true hp
      refine erase ih h fun k _ => ?_
      have hle : p.heldAt k ≤ _ := activeAt_le_waiting k _ _
      omega
    | borrow op =>
      obtain ⟨hk, -⟩ := op.keeps
      have hlog := fun k => (op.logOf_other k).1
      unfold Market.YieldApportioned at ih ⊢
      simp only [BorrowPositionGuard.drop, hk.snapshots, hk.positions] at ih ⊢
      exact ih.congr hlog fun _ _ => rfl
    | accumulateStaticYield h =>
      obtain ⟨numerator, before, after, stop, entries, -, -, -, -, -, -, hpassed, rfl⟩ :=
        accumulateStaticYield_eq_ok h
      have hnone := hpassed.others staticShare_other
      exact ih.congr (logOf_append_of_none (fun e he => (hnone e he).1) _) fun _ _ => rfl
    | withdrawStaticYield h =>
      obtain ⟨record, sent, -, -, -, he⟩ := withdrawStaticYield_eq_ok h
      cases he
      exact ih.congr (logOf_append_of_none (List.forall_mem_singleton.mpr rfl) _) fun _ _ => rfl
    | settleStaticYield h =>
      rcases withdrawStaticYield01Finalize_eq_ok h with he | ⟨record, -, he⟩
      · cases he
        exact ih
      · cases he
        exact ih.congr (logOf_append_of_none (List.forall_mem_singleton.mpr rfl) _) fun _ _ => rfl
    | tick | lose | queue | openBorrow | cleanupBorrow => exact ih

namespace Market.StaticApportioned

variable {m m' : Market A} {a : A} {record : Accumulator}

section

variable (h : m.StaticApportioned)
include h

theorem of_same (hy : m'.staticYield = m.staticYield)
    (hs : m'.finalizedSnapshots = m.finalizedSnapshots)
    (hlog : ∀ k, logOf staticShare m'.journal k =
      logOf staticShare m.journal k) : m'.StaticApportioned := by
  refine ⟨?_, fun k a ha => ?_⟩
  · rw [hy, hs]
    exact h.apportioned.congr hlog fun _ _ => rfl
  · rw [hlog] at ha
    rw [hy]
    exact h.present k a ha

/-- The record an operation starts from, also when there is none yet. -/
theorem opened (hn : 1 ≤ m.finalizedSnapshots.length) (a : A) :
    Apportioned Accumulator.nextSnapshotIndex (fun _ _ => 0) m.finalizedSnapshots.length
      (fun _ => 0) (m.staticYield.insert a ((m.staticYield.lookup a).getD (Accumulator.new 1)))
      (logOf staticShare m.journal) := by
  cases ha : m.staticYield.lookup a with
  | some record => exact h.apportioned.reinsert ha
  | none =>
    refine h.apportioned.insert hn (fun k _ => ?_) fun k hk => ?_
    · rw [part_of_none ha, outstanding, ite_self]
    · have hsome := h.present k a hk
      rw [ha] at hsome
      cases hsome

theorem present_insert (k : Nat) {b : A}
    (hb : b = a ∨ b ∈ (logOf staticShare m.journal k).map Prod.fst) :
    ((m.staticYield.insert a record).lookup b).isSome := by
  by_cases hba : b = a
  · rw [hba, AList.lookup_insert]
    rfl
  · rw [AList.lookup_insert_ne hba]
    exact h.present k b (hb.resolve_left hba)

/-- A record changes, but not the snapshots it has seen. -/
theorem update (hn : 1 ≤ m.finalizedSnapshots.length)
    (hnext : record.nextSnapshotIndex =
      ((m.staticYield.lookup a).getD (Accumulator.new 1)).nextSnapshotIndex)
    (hy : m'.staticYield = m.staticYield.insert a record)
    (hs : m'.finalizedSnapshots = m.finalizedSnapshots)
    (hlog : ∀ k, logOf staticShare m'.journal k =
      logOf staticShare m.journal k) : m'.StaticApportioned := by
  refine ⟨?_, fun k b hb => ?_⟩
  · rw [hy, hs]
    exact ((h.opened hn a).replace hnext fun _ _ _ => rfl).congr hlog fun _ _ => rfl
  · rw [hlog] at hb
    rw [hy]
    exact h.present_insert k (Or.inr hb)

end

theorem accrue {limit : Nat} (h : m.StaticApportioned)
    (hs : m.accumulateStaticYield a limit = .ok (some m')) : m'.StaticApportioned := by
  obtain ⟨numerator, before, after, stop, entries, -, rfl, hstop, hpos, hle, hnext, hpassed, rfl⟩ :=
    accumulateStaticYield_eq_ok hs
  refine ⟨?_, fun k b hb => h.present_insert k ?_⟩
  · refine (h.opened (by omega) a).pass ?_ ?_ hnext (fun k => hpassed.logOf_append _ k)
      fun _ _ _ => rfl
    · omega
    · omega
  · simp only at hb
    rw [hpassed.logOf_append, List.map_append, List.mem_append] at hb
    rcases hb with hb | hb
    · exact Or.inr hb
    · split at hb
      · exact Or.inl (by simpa using hb)
      · simp at hb

end Market.StaticApportioned

theorem SupplyOp.staticApportioned (op : SupplyOp C t g F g' F') (hs : g.drop.SupplyAgrees)
    (hn : 1 ≤ g.market.finalizedSnapshots.length) (h : g.market.StaticApportioned) :
    g'.market.StaticApportioned := by
  obtain ⟨hk, -, -⟩ := op.keeps hs
  have hlog := fun k => (op.logOf_other hs k).1
  rcases (op.journal hs).1 with hy | ⟨a, record, hnext, hy⟩
  · exact h.of_same hy hk.snapshots hlog
  · exact h.update hn hnext hy hk.snapshots hlog

theorem Booked.staticApportioned (h : Booked C b) : b.market.StaticApportioned := by
  induction h with
  | new ht h =>
    obtain ⟨-, -, chunk, previous, maximumInterest, rfl⟩ := new_eq_ok h
    exact ⟨empty fun _ _ => rfl, by simp [logOf]⟩
  | move hb hm ih =>
    have hs := hb.sound
    have hn := hs.wellFormed.pos
    cases hm with
    | snapshot h =>
      rcases snapshot_eq_ok h with rfl | ⟨now, s, active, incoming, -, -, -, rfl⟩
      · exact ih
      · refine ⟨?_, ih.present⟩
        have hclose := ih.apportioned.close (fun _ _ => rfl) (total_eq_zero fun _ _ _ => rfl).symm
        rw [List.length_append]
        exact hclose
    | createSupply h h₁ h₂ =>
      obtain ⟨hfresh, op₁, hagrees, op₂⟩ := Booked.created (C := C) hs h h₁ h₂
      have hk := (op₁.keeps hfresh).1
      have h' := op₂.staticApportioned hagrees (by rw [hk.snapshots]; exact hn)
        (op₁.staticApportioned hfresh hn ih)
      exact h'.of_same rfl rfl fun _ => rfl
    | supply op =>
      have h' := op.staticApportioned hs.supply hn (ih.of_same rfl rfl fun _ => rfl)
      exact h'.of_same rfl rfl fun _ => rfl
    | borrow op =>
      obtain ⟨hk, -⟩ := op.keeps
      exact ih.of_same hk.staticYield hk.snapshots fun k => (op.logOf_other k).2
    | accumulateStaticYield h => exact ih.accrue h
    | withdrawStaticYield h =>
      obtain ⟨record, sent, hrecord, -, -, he⟩ := withdrawStaticYield_eq_ok h
      cases he
      refine ih.update hn ?_ rfl rfl (logOf_append_of_none (List.forall_mem_singleton.mpr rfl) _)
      simp only [hrecord, getD_some]
    | settleStaticYield h =>
      rcases withdrawStaticYield01Finalize_eq_ok h with he | ⟨record, hrecord, he⟩
      · cases he
        exact ih
      · cases he
        refine ih.update hn ?_ rfl rfl (logOf_append_of_none (List.forall_mem_singleton.mpr rfl) _)
        simp only [hrecord, getD_some]
    | tick => exact ih
    | lose => exact ih
    | queue | openSupply | cleanupSupply | openBorrow | cleanupBorrow =>
      exact ih.of_same rfl rfl fun _ => rfl

section Bounds

variable {m : Market A} {k prevEnd : Nat} {snapshot : Snapshot} {interest : Decimal}

/-- What a snapshot has to give, in units of `2^-128`. -/
def Snapshot.gives (s : Snapshot) (interest : Decimal) : Nat :=
  interest.repr + (Decimal.ofUInt s.yieldDistribution).repr

/-- The weight of all suppliers and of all static accounts. -/
def YieldWeights.whole (w : YieldWeights A) : Nat := w.supply + total id w.static

omit [DecidableEq A] in
theorem Snapshot.yieldFor_eq_ok {amount numerator denominator : Nat} {d : Decimal}
    (hi : snapshot.interestPaidByBorrowers prevEnd = .ok interest)
    (h : snapshot.yieldFor prevEnd amount numerator denominator = .ok d) :
    d.repr = snapshot.gives interest * amount * numerator /
      (snapshot.borrowAssetDepositedActive * denominator) := by
  simp only [Snapshot.yieldFor, hi, ok_bind, do_ok, Decimal.add_eq_ok, Decimal.mulInt_eq_ok,
    Decimal.divInt_eq_ok] at h
  obtain ⟨yield, hy, scaled, hscaled, weighted, hweighted, share, ⟨-, hshare⟩, -, hd⟩ := h
  rw [hd, hshare, hweighted, hscaled, hy, Nat.div_div_eq_div_mul]
  rfl

/-- The suppliers' credits stay within the part of their weight. -/
theorem RuledBy.yield_le (h : RuledBy m m.journal)
    (hat : SnapshotAt m.finalizedSnapshots k snapshot prevEnd)
    (hi : snapshot.interestPaidByBorrowers prevEnd = .ok interest)
    (hsum : ((sharesAt yieldShare k m.journal).map Share.amount).sum ≤
      snapshot.borrowAssetDepositedActive) :
    m.configuration.yieldWeights.whole *
        ((sharesAt yieldShare k m.journal).map Share.credit).sum ≤
      snapshot.gives interest * m.configuration.yieldWeights.supply := by
  have hcredit : ∀ s ∈ sharesAt yieldShare k m.journal,
      snapshot.borrowAssetDepositedActive * m.configuration.yieldWeights.whole * s.credit ≤
        snapshot.gives interest * m.configuration.yieldWeights.supply * s.amount := by
    intro s hs
    obtain ⟨snapshot', prevEnd', hat', hrule⟩ := h.yield k s hs
    obtain ⟨rfl, rfl⟩ := hat'.unique hat
    rcases hrule with ⟨-, hzero⟩ | ⟨-, weight, d, hweight, hd, hrepr⟩
    · rw [hzero]
      exact Nat.zero_le _
    · obtain ⟨-, rfl⟩ := YieldWeights.totalWeight_eq_ok.mp hweight
      rw [← hrepr, Snapshot.yieldFor_eq_ok hi hd, Nat.mul_right_comm (snapshot'.gives interest)]
      exact Nat.mul_div_le _ _
  by_cases hactive : snapshot.borrowAssetDepositedActive = 0
  · -- Nothing was active: nobody is credited anything.
    have hzero : ∀ s ∈ sharesAt yieldShare k m.journal, s.credit = 0 := by
      intro s hs
      obtain ⟨snapshot', prevEnd', hat', hrule⟩ := h.yield k s hs
      obtain ⟨rfl, rfl⟩ := hat'.unique hat
      rcases hrule with ⟨-, hzero⟩ | ⟨hne, -⟩
      · exact hzero
      · exact absurd hactive hne
    rw [List.map_congr_left hzero]
    simp
  · have hscaled := Nat.le_trans (mul_sum_le_mul_sum hcredit) (Nat.mul_le_mul_left _ hsum)
    rw [Nat.mul_assoc, Nat.mul_comm _ snapshot.borrowAssetDepositedActive] at hscaled
    exact Nat.le_of_mul_le_mul_left hscaled (Nat.pos_of_ne_zero hactive)

/-- The static accounts' credits stay within the part of their weights. -/
theorem RuledBy.static_le (h : RuledBy m m.journal)
    (hat : SnapshotAt m.finalizedSnapshots k snapshot prevEnd)
    (hi : snapshot.interestPaidByBorrowers prevEnd = .ok interest)
    (hnodup : ((sharesAt staticShare k m.journal).map Share.accountId).Nodup) :
    m.configuration.yieldWeights.whole *
        ((sharesAt staticShare k m.journal).map Share.credit).sum ≤
      snapshot.gives interest * total id m.configuration.yieldWeights.static := by
  have hcredit : ∀ s ∈ sharesAt staticShare k m.journal,
      m.configuration.yieldWeights.whole * s.credit ≤
        snapshot.gives interest * part id m.configuration.yieldWeights.static s.accountId := by
    intro s hs
    obtain ⟨numerator, hlook, snapshot', prevEnd', interest', yield, weighted, d, denominator, hat',
      hweight, hi', hy, hweighted, hd, hrepr⟩ := h.static k s hs
    obtain ⟨rfl, rfl⟩ := hat'.unique hat
    cases hi.symm.trans hi'
    obtain ⟨-, rfl⟩ := YieldWeights.totalWeight_eq_ok.mp hweight
    rw [Decimal.add_eq_ok] at hy
    rw [Decimal.mulInt_eq_ok] at hweighted
    rw [Decimal.divInt_eq_ok] at hd
    rw [part_of_lookup hlook, ← hrepr, hd.2, hweighted, hy]
    exact Nat.mul_div_le _ _
  have hparts := sum_part_le_total id ((sharesAt staticShare k m.journal).map Share.accountId)
    m.configuration.yieldWeights.static hnodup
  rw [List.map_map] at hparts
  exact Nat.le_trans (mul_sum_le_mul_sum hcredit) (Nat.mul_le_mul_left _ hparts)

end Bounds

section Results

variable {s : System A}

/-- For every finalized snapshot, no account is credited twice, the amounts the suppliers
accrued with are within the active funds, and the credits of suppliers and static accounts
together are within the interest and the distribution. Nothing is credited for the first
snapshot, which has no predecessor. -/
theorem yield_not_over_distributed (h : s.Reachable) (k : Nat) :
    ((sharesAt yieldShare k s.market.journal).map Share.accountId).Nodup ∧
      ((sharesAt staticShare k s.market.journal).map Share.accountId).Nodup ∧
      (k = 0 → sharesAt yieldShare k s.market.journal = [] ∧
        sharesAt staticShare k s.market.journal = []) ∧
      (∀ snapshot, s.market.finalizedSnapshots[k]? = some snapshot →
        ((sharesAt yieldShare k s.market.journal).map Share.amount).sum ≤
          snapshot.borrowAssetDepositedActive) ∧
      ∀ snapshot prevEnd interest,
        SnapshotAt s.market.finalizedSnapshots k snapshot prevEnd →
        snapshot.interestPaidByBorrowers prevEnd = .ok interest →
        ((sharesAt yieldShare k s.market.journal).map Share.credit).sum +
            ((sharesAt staticShare k s.market.journal).map Share.credit).sum ≤
          interest.repr + snapshot.yieldDistribution * 2 ^ 128 := by
  have hyield : s.market.YieldApportioned := h.booked.yieldApportioned
  have hstatic : s.market.StaticApportioned := h.booked.staticApportioned
  have hruled : RuledBy s.market s.market.journal := h.booked.ruled
  have hnodup := hstatic.apportioned.nodup k
  rw [logOf_accounts] at hnodup
  have hamounts : ∀ snapshot, s.market.finalizedSnapshots[k]? = some snapshot →
      ((sharesAt yieldShare k s.market.journal).map Share.amount).sum ≤
        snapshot.borrowAssetDepositedActive := by
    intro snapshot hsnapshot
    have hle := hyield.sum_le (List.getElem?_eq_some_iff.mp hsnapshot).1
    rwa [logOf_amounts, frozen_of_getElem hsnapshot] at hle
  refine ⟨?_, hnodup, ?_, hamounts, ?_⟩
  · have hnodup := hyield.nodup k
    rwa [logOf_accounts] at hnodup
  · rintro rfl
    refine ⟨List.eq_nil_iff_forall_not_mem.mpr fun s hs => ?_,
      List.eq_nil_iff_forall_not_mem.mpr fun s hs => ?_⟩
    · obtain ⟨snapshot, prevEnd, hat, -⟩ := hruled.yield 0 s hs
      exact absurd hat.pos (by omega)
    · obtain ⟨numerator, -, snapshot, prevEnd, interest, yield, weighted, d, denominator, hat, -⟩ :=
        hruled.static 0 s hs
      exact absurd hat.pos (by omega)
  · intro snapshot prevEnd interest hat hi
    have hsupply := hruled.yield_le hat hi (hamounts snapshot hat.current)
    have haccounts := hruled.static_le hat hi hnodup
    have hgives : snapshot.gives interest ≤ interest.repr + snapshot.yieldDistribution * 2 ^ 128 :=
      Nat.add_le_add_left (Decimal.ofUInt_repr_le _) _
    refine Nat.le_trans ?_ hgives
    -- Both bounds together are the whole weight times what there is to give.
    refine Nat.le_of_mul_le_mul_left (c := s.market.configuration.yieldWeights.whole) ?_
      (Nat.add_pos_left s.market.configuration.yieldWeights.supply_pos _)
    calc s.market.configuration.yieldWeights.whole *
          (((sharesAt yieldShare k s.market.journal).map Share.credit).sum +
            ((sharesAt staticShare k s.market.journal).map Share.credit).sum)
        ≤ snapshot.gives interest * s.market.configuration.yieldWeights.supply +
            snapshot.gives interest * total id s.market.configuration.yieldWeights.static := by
          rw [Nat.mul_add]
          exact Nat.add_le_add hsupply haccounts
      _ = s.market.configuration.yieldWeights.whole * snapshot.gives interest := by
          rw [← Nat.mul_add, Nat.mul_comm]
          rfl

/-- The sample market, with a third of the yield for a static account. -/
def staticConfiguration : MarketConfiguration Nat :=
  { sampleConfiguration with yieldWeights := ⟨2, AList.insert 7 1 ∅, by decide⟩ }

/-- The fee of a loan is distributed: the supplier and the static account both accrue it. -/
theorem yield_not_over_distributed_sample :
    ∃ (s : System Nat) (snapshot : Snapshot) (interest : Decimal), s.Reachable ∧
      s.market.finalizedSnapshots[2]? = some snapshot ∧
      ((sharesAt yieldShare 2 s.market.journal).map Share.credit).sum ≠ 0 ∧
      ((sharesAt staticShare 2 s.market.journal).map Share.credit).sum ≠ 0 ∧
      ((sharesAt yieldShare 2 s.market.journal).map Share.credit).sum +
          ((sharesAt staticShare 2 s.market.journal).map Share.credit).sum ≤
        interest.repr + snapshot.yieldDistribution * 2 ^ 128 := by
  obtain ⟨s, hs, hyield, hstatic, previous, hprevious, snapshot, hsnapshot, interest, hi, -⟩ :
      ∃ s : System Nat, s.Reachable ∧
        ((sharesAt yieldShare 2 s.market.journal).map Share.credit).sum ≠ 0 ∧
        ((sharesAt staticShare 2 s.market.journal).map Share.credit).sum ≠ 0 ∧
        ∃ previous, s.market.finalizedSnapshots[1]? = some previous ∧
          ∃ snapshot, s.market.finalizedSnapshots[2]? = some snapshot ∧
            ∃ interest, snapshot.interestPaidByBorrowers previous.endTimestampMs = .ok interest ∧
              True :=
    System.exists_reachable staticConfiguration 1000
      (activeSupply ++ collateralActions 2000 2 1000 ++ borrowActions 2000 2 50 0 ++
        [.call (sampleEnv 3000) (.harvestYield 1 none none),
          .call (sampleEnv 3000) (.accumulateStaticYield 7 none none)])
      (by decide +kernel) (by decide) (by decide)
  have hat : SnapshotAt s.market.finalizedSnapshots 2 snapshot previous.endTimestampMs :=
    ⟨by omega, hsnapshot, previous, hprevious, rfl⟩
  exact ⟨s, snapshot, interest, hs, hsnapshot, hyield, hstatic,
    (yield_not_over_distributed hs 2).2.2.2.2 snapshot _ interest hat hi⟩

end Results

end Templar.Lending
