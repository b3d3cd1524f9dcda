import Templar.Lending.BorrowBooks
import Templar.Lib.Apportion

/-!
# The shares of a snapshot

The journal has a share for every account and every snapshot the account has accrued, as a
supplier, as a static account or as a borrower. An operation records shares of one kind and
of one account, or none at all. Snapshots and configuration never change afterwards, so
every share in the journal is what the code computes for its snapshot, in every run.
-/

namespace Templar.Lending

open Checked SupplyPositionGuard JournalEntry List Market

variable {A : Type} {l : List Snapshot} {k : Nat} {C : Conditions A} {b : Books A}

/-- An entry that is no share of any kind. -/
def JournalEntry.Plain (e : JournalEntry A) : Prop :=
  e.yieldShare = none ∧ e.staticShare = none ∧ e.interestShare = none

theorem JournalEntry.yieldShare_other (e : JournalEntry A) :
    e.yieldShare = none ∨ e.staticShare = none ∧ e.interestShare = none := by
  cases e <;> simp [yieldShare, staticShare, interestShare]

theorem JournalEntry.staticShare_other (e : JournalEntry A) :
    e.staticShare = none ∨ e.yieldShare = none ∧ e.interestShare = none := by
  cases e <;> simp [yieldShare, staticShare, interestShare]

theorem JournalEntry.interestShare_other (e : JournalEntry A) :
    e.interestShare = none ∨ e.yieldShare = none ∧ e.staticShare = none := by
  cases e <;> simp [yieldShare, staticShare, interestShare]

/-- Who took part in a snapshot, and with which amount. -/
def logOf (pick : JournalEntry A → Option (Nat × Share A))
    (journal : List (JournalEntry A)) (k : Nat) : List (A × Nat) :=
  (sharesAt pick k journal).map fun s => (s.accountId, s.amount)

theorem logOf_accounts (pick : JournalEntry A → Option (Nat × Share A))
    (journal : List (JournalEntry A)) (k : Nat) :
    (logOf pick journal k).map Prod.fst = (sharesAt pick k journal).map Share.accountId := by
  rw [logOf, map_map]
  rfl

theorem logOf_amounts (pick : JournalEntry A → Option (Nat × Share A))
    (journal : List (JournalEntry A)) (k : Nat) :
    (logOf pick journal k).map Prod.snd = (sharesAt pick k journal).map Share.amount := by
  rw [logOf, map_map]
  rfl

section Entries

variable {pick pick' : JournalEntry A → Option (Nat × Share A)} {a : A}
variable {amount : Nat → Nat} {rule : Nat → Nat → Prop} {next stop : Nat}
variable {entries : List (JournalEntry A)}

theorem sharesAt_of_none (h : ∀ e ∈ entries, pick e = none) (k : Nat) :
    sharesAt pick k entries = [] := by
  apply filterMap_eq_nil_iff.mpr
  intro e he
  rw [h e he]
  rfl

theorem forall_sharesAt {p : Nat → Share A → Prop} (h : ∀ e ∈ entries, pick e = none) :
    ∀ k, ∀ s ∈ sharesAt pick k entries, p k s := by
  intro k s hs
  rw [sharesAt_of_none h] at hs
  cases hs

theorem logOf_append_of_none (h : ∀ e ∈ entries, pick e = none)
    (journal : List (JournalEntry A)) (k : Nat) :
    logOf pick (journal ++ entries) k = logOf pick journal k := by
  rw [logOf, logOf, sharesAt_append, sharesAt_of_none h, append_nil]

theorem Passed.logOf_append (h : Passed pick a amount rule next stop entries)
    (journal : List (JournalEntry A)) (k : Nat) :
    logOf pick (journal ++ entries) k =
      logOf pick journal k ++ if next ≤ k ∧ k < stop then [(a, amount k)] else [] := by
  rw [logOf, logOf, sharesAt_append, map_append]
  split
  · rename_i hk
    obtain ⟨credit, hcredit, -⟩ := h.within k hk.1 hk.2
    rw [hcredit]
    rfl
  · rw [h.outside k (by omega)]
    rfl

theorem Passed.of_mem (h : Passed pick a amount rule next stop entries) {k : Nat}
    {s : Share A} (hs : s ∈ sharesAt pick k entries) :
    s.accountId = a ∧ s.amount = amount k ∧ rule k s.credit := by
  by_cases hk : next ≤ k ∧ k < stop
  · obtain ⟨credit, hcredit, hrule⟩ := h.within k hk.1 hk.2
    rw [hcredit, mem_singleton] at hs
    subst hs
    exact ⟨rfl, rfl, hrule⟩
  · rw [h.outside k (by omega)] at hs
    cases hs

/-- Shares of one kind are not of another. -/
theorem Passed.others {p : JournalEntry A → Prop}
    (h : Passed pick a amount rule next stop entries) (hp : ∀ e, pick e = none ∨ p e) :
    ∀ e ∈ entries, p e := by
  intro e he
  obtain ⟨k, s, hs⟩ := h.only e he
  rcases hp e with hnone | hpe
  · rw [hnone] at hs
    cases hs
  · exact hpe

end Entries

/-- What the snapshots froze of one kind, by index. -/
def frozen (f : Snapshot → Nat) (l : List Snapshot) (k : Nat) : Nat := (l[k]?).elim 0 f

theorem frozen_of_getElem {f : Snapshot → Nat} {s : Snapshot} (h : l[k]? = some s) :
    frozen f l k = f s := by
  rw [frozen, h]
  rfl

theorem frozen_append (f : Snapshot → Nat) (s : Snapshot) (h : k < l.length) :
    frozen f (l ++ [s]) k = frozen f l k := by
  rw [frozen, frozen, getElem?_append_left h]

theorem frozen_last (f : Snapshot → Nat) (l : List Snapshot) (s : Snapshot) :
    frozen f (l ++ [s]) l.length = f s := frozen_of_getElem getElem?_concat_length

variable [DecidableEq A]

/-- All shares of a journal are what the code computes in a market. -/
structure RuledBy (m : Market A) (journal : List (JournalEntry A)) : Prop where
  yield : ∀ k, ∀ s ∈ sharesAt yieldShare k journal, YieldRule m (fun _ => s.amount) k s.credit
  static : ∀ k, ∀ s ∈ sharesAt staticShare k journal, ∃ numerator,
    m.configuration.yieldWeights.static.lookup s.accountId = some numerator ∧
      StaticYieldRule m numerator k s.credit
  interest : ∀ k, ∀ s ∈ sharesAt interestShare k journal, InterestRule m s.amount k s.credit

/-- One market comes from another: its configuration is the same, its snapshots and its
journal continue, and what it recorded is ruled. -/
structure Market.Records (m m' : Market A) : Prop where
  configuration : m'.configuration = m.configuration
  snapshots : ∃ l, m'.finalizedSnapshots = m.finalizedSnapshots ++ l
  journal : ∃ entries, m'.journal = m.journal ++ entries ∧ RuledBy m entries

namespace RuledBy

variable {m m' : Market A} {l l' : List (JournalEntry A)}

theorem plain (h : ∀ e ∈ l, e.Plain) : RuledBy m l where
  yield := forall_sharesAt fun e he => (h e he).1
  static := forall_sharesAt fun e he => (h e he).2.1
  interest := forall_sharesAt fun e he => (h e he).2.2

theorem append (h : RuledBy m l) (h' : RuledBy m l') : RuledBy m (l ++ l') := by
  refine ⟨fun k s hs => ?_, fun k s hs => ?_, fun k s hs => ?_⟩
  all_goals
    rw [sharesAt_append] at hs
    rcases mem_append.mp hs with hs | hs
  · exact h.yield k s hs
  · exact h'.yield k s hs
  · exact h.static k s hs
  · exact h'.static k s hs
  · exact h.interest k s hs
  · exact h'.interest k s hs

/-- The rules read finalized snapshots and the configuration only. -/
theorem extend (h : RuledBy m l) (hc : m'.configuration = m.configuration)
    (hs : ∃ more, m'.finalizedSnapshots = m.finalizedSnapshots ++ more) : RuledBy m' l := by
  obtain ⟨more, hs⟩ := hs
  refine ⟨fun k s hmem => ?_, fun k s hmem => ?_, fun k s hmem => ?_⟩
  · obtain ⟨snapshot, prevEnd, hat, hrule⟩ := h.yield k s hmem
    refine ⟨snapshot, prevEnd, ?_, ?_⟩
    · rw [hs]
      exact hat.append more
    · rw [hc]
      exact hrule
  · obtain ⟨numerator, hweight, snapshot, prevEnd, interest, yield, weighted, d, denominator, hat,
      hrule⟩ := h.static k s hmem
    refine ⟨numerator, ?_, snapshot, prevEnd, interest, yield, weighted, d, denominator, ?_, ?_⟩
    · rw [hc]
      exact hweight
    · rw [hs]
      exact hat.append more
    · rw [hc]
      exact hrule
  · obtain ⟨snapshot, prevEnd, d, hat, hrule⟩ := h.interest k s hmem
    refine ⟨snapshot, prevEnd, d, ?_, hrule⟩
    rw [hs]
    exact hat.append more

end RuledBy

namespace Market.Records

variable {m m' m'' : Market A}

/-- Nothing that counts is changed. -/
theorem of_same (hc : m'.configuration = m.configuration)
    (hs : m'.finalizedSnapshots = m.finalizedSnapshots) {entries : List (JournalEntry A)}
    (hj : m'.journal = m.journal ++ entries) (hr : RuledBy m entries) : m.Records m' :=
  ⟨hc, ⟨[], by rw [hs, append_nil]⟩, entries, hj, hr⟩

theorem of_journal (hc : m'.configuration = m.configuration)
    (hs : m'.finalizedSnapshots = m.finalizedSnapshots) (hj : m'.journal = m.journal) :
    m.Records m' :=
  of_same hc hs (by rw [hj, append_nil]) (RuledBy.plain (by simp))

theorem trans (h : m.Records m') (h' : m'.Records m'') (hc : m.configuration = m'.configuration)
    (hs : m.finalizedSnapshots = m'.finalizedSnapshots) : m.Records m'' := by
  obtain ⟨entries, hj, hr⟩ := h.journal
  obtain ⟨entries', hj', hr'⟩ := h'.journal
  refine ⟨h'.configuration.trans hc.symm, ?_, entries ++ entries', ?_, ?_⟩
  · rw [hs]
    exact h'.snapshots
  · rw [hj', hj, append_assoc]
  · exact hr.append (hr'.extend hc ⟨[], by rw [hs, append_nil]⟩)

/-- What was recorded before and what is recorded now is ruled. -/
theorem ruled (h : m.Records m') (hm : RuledBy m m.journal) : RuledBy m' m'.journal := by
  obtain ⟨entries, hj, hr⟩ := h.journal
  rw [hj]
  exact (hm.append hr).extend h.configuration h.snapshots

end Market.Records

section Operations

variable {t : Nat} {F F' : Multiset (Flight A)} {g g' : SupplyPositionGuard A}

/-- An operation on a supply position records shares of its own account or plain entries. One that
arrives writes to the protocol's record. -/
theorem SupplyOp.journal (op : SupplyOp C t g F g' F') (hs : g.drop.SupplyAgrees) :
    (g'.market.staticYield = g.market.staticYield ∨
      ∃ a record, record.nextSnapshotIndex =
          ((g.market.staticYield.lookup a).getD (Accumulator.new 1)).nextSnapshotIndex ∧
        g'.market.staticYield = g.market.staticYield.insert a record) ∧
    ∃ entries, g'.market.journal = g.market.journal ++ entries ∧
      ((∀ e ∈ entries, e.Plain) ∨
        ∃ next stop, Passed yieldShare g.accountId (fun k => g.position.heldAt k)
          (YieldRule g.market fun k => g.position.heldAt k) next stop entries) := by
  cases op with
  | accumulate ho =>
    obtain ⟨stop, active, incoming, yield, entries, weight, -, -, -, -, -, -, hpassed, rfl⟩ :=
      accumulateYieldPartial_eq_ok ho (position_of_drop hs).orderly
    exact ⟨.inl rfl, entries, rfl, .inr ⟨_, stop, hpassed⟩⟩
  | deposit hg ho =>
    obtain ⟨startedAt, incoming, entries, -, -, -, -, rfl⟩ := recordDeposit_eq_ok ho
    exact ⟨.inl rfl, [], (append_nil _).symm, .inl (by simp)⟩
  | withdraw hg hr hc ho hw =>
    obtain ⟨fy, fi, fa, incoming, entries, hw⟩ :=
      recordWithdrawalInitial_withdrawn ho hw (orderly_of_accrued hs hg) hs.single
    rw [hw.result]
    exact ⟨.inl rfl, _, rfl, .inl (forall_mem_singleton.mpr ⟨rfl, rfl, rfl⟩)⟩
  | @settle _ _ w success ha ho =>
    cases success with
    | true =>
      obtain ⟨record, -, -, -, hrecord, rfl⟩ := recordWithdrawalFinal_success ho
      obtain ⟨total, -, hrecord⟩ := bind_eq_ok.mp hrecord
      have hnext := congrArg Accumulator.nextSnapshotIndex (Except.ok.inj hrecord)
      exact ⟨.inr ⟨_, record, hnext.symm, rfl⟩, [], (append_nil _).symm, .inl (by simp)⟩
    | false =>
      obtain ⟨incoming, entries, -, -, -, -, -, -, -, rfl⟩ := recordWithdrawalFinal_failure ho
      exact ⟨.inl rfl, _, rfl, .inl (forall_mem_singleton.mpr ⟨rfl, rfl, rfl⟩)⟩

omit [DecidableEq A] in
theorem BorrowOp.journal {g g' : BorrowPositionGuard A} (op : BorrowOp C t g F g' F') :
    ∃ entries, g'.market.journal = g.market.journal ++ entries ∧
      ((∀ e ∈ entries, e.Plain) ∨ ∃ next stop, Passed interestShare g.accountId
          (fun _ => BorrowPositionGuard.owed g.position)
          (InterestRule g.market (BorrowPositionGuard.owed g.position)) next stop entries) := by
  cases op.effect with
  | interest _ _ _ hpassed => exact ⟨_, rfl, Or.inr ⟨_, _, hpassed⟩⟩
  | deposit | withdraw _ _ | settleWithdrawal _ _ | borrow _ _ _ _ _ | settleBorrow _ _ _ _ _ =>
    exact ⟨[], (append_nil _).symm, Or.inl (by simp)⟩
  | pay _ _ _ _ _ _ hjournal =>
    rcases hjournal with ⟨rfl, -⟩ | rfl
    · exact ⟨[], (append_nil _).symm, Or.inl (by simp)⟩
    · exact ⟨_, rfl, Or.inl (forall_mem_singleton.mpr ⟨rfl, rfl, rfl⟩)⟩

/-- An operation on a supply position records no shares of another kind. -/
theorem SupplyOp.logOf_other (op : SupplyOp C t g F g' F') (hs : g.drop.SupplyAgrees) (k : Nat) :
    logOf staticShare g'.market.journal k =
        logOf staticShare g.market.journal k ∧
      logOf interestShare g'.market.journal k = logOf interestShare g.market.journal k := by
  obtain ⟨-, entries, hj, hentries⟩ := op.journal hs
  have hnone : ∀ e ∈ entries, e.staticShare = none ∧ e.interestShare = none := by
    rcases hentries with hplain | ⟨next, stop, hpassed⟩
    · exact fun e he => (hplain e he).2
    · exact hpassed.others yieldShare_other
  rw [hj]
  exact ⟨logOf_append_of_none (fun e he => (hnone e he).1) _ k,
    logOf_append_of_none (fun e he => (hnone e he).2) _ k⟩

omit [DecidableEq A] in
/-- An operation on a borrow position records no shares of another kind. -/
theorem BorrowOp.logOf_other {g g' : BorrowPositionGuard A} (op : BorrowOp C t g F g' F')
    (k : Nat) :
    logOf yieldShare g'.market.journal k =
        logOf yieldShare g.market.journal k ∧
      logOf staticShare g'.market.journal k = logOf staticShare g.market.journal k := by
  obtain ⟨entries, hj, hentries⟩ := op.journal
  have hnone : ∀ e ∈ entries, e.yieldShare = none ∧ e.staticShare = none := by
    rcases hentries with hplain | ⟨next, stop, hpassed⟩
    · exact fun e he => ⟨(hplain e he).1, (hplain e he).2.1⟩
    · exact hpassed.others interestShare_other
  rw [hj]
  exact ⟨logOf_append_of_none (fun e he => (hnone e he).1) _ k,
    logOf_append_of_none (fun e he => (hnone e he).2) _ k⟩

theorem SupplyOp.records (op : SupplyOp C t g F g' F') (hs : g.drop.SupplyAgrees) :
    g.drop.Records g'.drop := by
  obtain ⟨hk, -, -⟩ := op.keeps hs
  obtain ⟨-, entries, hj, hentries⟩ := op.journal hs
  refine Market.Records.of_same hk.configuration hk.snapshots hj ?_
  rcases hentries with hplain | ⟨next, stop, hpassed⟩
  · exact RuledBy.plain hplain
  · have hother := hpassed.others yieldShare_other
    refine ⟨fun k s hmem => ?_, forall_sharesAt fun e he => (hother e he).1,
      forall_sharesAt fun e he => (hother e he).2⟩
    obtain ⟨-, hamount, hrule⟩ := hpassed.of_mem hmem
    rw [hamount]
    exact hrule

theorem BorrowOp.records {g g' : BorrowPositionGuard A} (op : BorrowOp C t g F g' F') :
    g.drop.Records g'.drop := by
  obtain ⟨hk, -⟩ := op.keeps
  obtain ⟨entries, hj, hentries⟩ := op.journal
  refine Market.Records.of_same hk.configuration hk.snapshots hj ?_
  rcases hentries with hplain | ⟨next, stop, hpassed⟩
  · exact RuledBy.plain hplain
  · have hother := hpassed.others interestShare_other
    refine ⟨forall_sharesAt fun e he => (hother e he).1,
      forall_sharesAt fun e he => (hother e he).2, fun k s hmem => ?_⟩
    obtain ⟨-, hamount, hrule⟩ := hpassed.of_mem hmem
    rw [hamount]
    exact hrule

end Operations

/-- Every move continues the journal with ruled shares. -/
theorem Move.records {b' : Books A} (hs : b.Sound) (hm : Move C b b') :
    b.market.Records b'.market := by
  cases hm with
  | tick h ht | lose h => exact .of_journal rfl rfl rfl
  | snapshot h =>
    rcases snapshot_eq_ok h with rfl | ⟨now, s, active, incoming, -, -, -, rfl⟩
    · exact .of_journal rfl rfl rfl
    · exact ⟨rfl, ⟨[s], rfl⟩, [], (append_nil _).symm, RuledBy.plain (by simp)⟩
  | queue h | openSupply h => exact .of_journal rfl rfl rfl
  | @createSupply m a _ _ _ _ _ h h₁ h₂ =>
    obtain ⟨hfresh, op₁, hagrees, op₂⟩ := Booked.created (C := C) hs h h₁ h₂
    obtain ⟨hk, -, -⟩ := op₁.keeps hfresh
    have hopen : ∀ p, m.Records (drop ⟨m, a, p⟩) := fun _ => .of_journal rfl rfl rfl
    have hops := (op₁.records hfresh).trans (op₂.records hagrees) hk.configuration.symm
      hk.snapshots.symm
    exact (hopen _).trans hops rfl rfl
  | supply op => exact op.records hs.supply
  | cleanupSupply h hp | openBorrow h => exact .of_journal rfl rfl rfl
  | borrow op => exact op.records
  | cleanupBorrow h hp => exact .of_journal rfl rfl rfl
  | @accumulateStaticYield m m' a limit F t h =>
    obtain ⟨numerator, before, after, stop, entries, hweight, -, -, -, -, -, hpassed, rfl⟩ :=
      accumulateStaticYield_eq_ok h
    refine .of_same rfl rfl rfl ?_
    have hother := hpassed.others staticShare_other
    refine ⟨forall_sharesAt fun e he => (hother e he).1, fun k s hmem => ?_,
      forall_sharesAt fun e he => (hother e he).2⟩
    obtain ⟨haccount, -, hrule⟩ := hpassed.of_mem hmem
    rw [haccount]
    exact ⟨numerator, hweight, hrule⟩
  | withdrawStaticYield h =>
    obtain ⟨record, sent, -, -, -, he⟩ := withdrawStaticYield_eq_ok h
    cases he
    exact .of_same rfl rfl rfl (.plain (forall_mem_singleton.mpr ⟨rfl, rfl, rfl⟩))
  | settleStaticYield h =>
    rcases withdrawStaticYield01Finalize_eq_ok h with he | ⟨record, -, he⟩
    · cases he
      exact .of_journal rfl rfl rfl
    · cases he
      exact .of_same rfl rfl rfl (.plain (forall_mem_singleton.mpr ⟨rfl, rfl, rfl⟩))

/-- All shares of all runs are what the code computes. -/
theorem Booked.ruled (h : Booked C b) : RuledBy b.market b.market.journal := by
  induction h with
  | new ht h =>
    obtain ⟨-, -, chunk, previous, maximumInterest, rfl⟩ := new_eq_ok h
    exact RuledBy.plain (by simp)
  | move hb hm ih => exact (hm.records hb.sound).ruled ih

end Templar.Lending
