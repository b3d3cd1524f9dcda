import Templar.Lending.SupplyBooks

/-!
# Sound books

What later results rest on, kept by every move: the configuration has passed its check,
snapshots are in order of time and fit their types, the queue represents a list of
nonempty requests, the supply side agrees with the market's totals, and every supply
position has a start and a market whose weights can be added up.
-/

namespace Templar.Lending

open Checked SupplyPositionGuard WithdrawalQueue Market List Table

variable {A : Type} [DecidableEq A]

/-- Everything an operation on a supply position leaves alone; its own position is
written back later. -/
structure KeepsBorrow (m m' : Market A) : Prop where
  configuration : m'.configuration = m.configuration
  snapshots : m'.finalizedSnapshots = m.finalizedSnapshots
  queue : m'.withdrawalQueue = m.withdrawalQueue
  positions : m'.borrowPositions = m.borrowPositions
  borrowed : m'.borrowAssetBorrowed = m.borrowAssetBorrowed
  inFlight : m'.borrowAssetBorrowedInFlight = m.borrowAssetBorrowedInFlight
  collateral : m'.collateralAssetDeposited = m.collateralAssetDeposited
  stored : m'.supplyPositions = m.supplyPositions

/-- Everything an operation on a borrow position leaves alone; its own position is
written back later. -/
structure KeepsSupply (m m' : Market A) : Prop where
  configuration : m'.configuration = m.configuration
  snapshots : m'.finalizedSnapshots = m.finalizedSnapshots
  queue : m'.withdrawalQueue = m.withdrawalQueue
  positions : m'.supplyPositions = m.supplyPositions
  active : m'.borrowAssetDepositedActive = m.borrowAssetDepositedActive
  incoming : m'.borrowAssetDepositedIncoming = m.borrowAssetDepositedIncoming
  inFlight : m'.borrowAssetWithdrawalInFlight = m.borrowAssetWithdrawalInFlight
  staticYield : m'.staticYield = m.staticYield
  stored : m'.borrowPositions = m.borrowPositions

section Operations

variable {C : Conditions A} {t : Nat} {F F' : Multiset (Flight A)}

/-- An operation on a supply position leaves the borrowers alone. -/
theorem SupplyOp.keeps {g g' : SupplyPositionGuard A} (h : g.drop.SupplyAgrees)
    (op : SupplyOp C t g F g' F') :
    KeepsBorrow g.market g'.market ∧ g'.accountId = g.accountId ∧
      (g.position.startedAtBlockTimestampMs.isSome → g'.position.startedAtBlockTimestampMs.isSome) := by
  cases op with
  | accumulate h₁ =>
    obtain ⟨stop, active, incoming, yield, entries, weight, -, -, -, -, -, -, -, rfl⟩ :=
      accumulateYieldPartial_eq_ok h₁ (position_of_drop h).orderly
    exact ⟨⟨rfl, rfl, rfl, rfl, rfl, rfl, rfl, rfl⟩, rfl, fun hs => hs⟩
  | deposit hg h₁ =>
    obtain ⟨startedAt, incoming, entries, -, -, -, -, rfl⟩ := recordDeposit_eq_ok h₁
    exact ⟨⟨rfl, rfl, rfl, rfl, rfl, rfl, rfl, rfl⟩, rfl, fun _ => rfl⟩
  | withdraw hg hr hc h₁ hw =>
    obtain ⟨fy, fi, fa, incoming, entries, hw⟩ :=
      recordWithdrawalInitial_withdrawn h₁ hw (orderly_of_accrued h hg) h.single
    rw [hw.result]
    exact ⟨⟨rfl, rfl, rfl, rfl, rfl, rfl, rfl, rfl⟩, rfl, fun hs => hs⟩
  | @settle F g' w success ha h₁ =>
    cases success with
    | true =>
      obtain ⟨record, -, -, -, -, rfl⟩ := recordWithdrawalFinal_success h₁
      exact ⟨⟨rfl, rfl, rfl, rfl, rfl, rfl, rfl, rfl⟩, rfl, fun hs => hs⟩
    | false =>
      obtain ⟨incoming, entries, -, -, -, -, -, -, -, rfl⟩ := recordWithdrawalFinal_failure h₁
      exact ⟨⟨rfl, rfl, rfl, rfl, rfl, rfl, rfl, rfl⟩, rfl, fun hs => hs⟩

/-- It keeps the totals in step with the suppliers. -/
theorem SupplyOp.agrees {g g' : SupplyPositionGuard A} (h : g.drop.SupplyAgrees)
    (op : SupplyOp C t g F g' F') : g'.drop.SupplyAgrees := by
  cases op with
  | accumulate h₁ => exact accumulate_agrees h h₁
  | deposit hg h₁ => exact deposit_agrees h h₁
  | withdraw hg hr hc h₁ hw => exact withdraw_agrees h hg h₁ hw
  | settle ha h₁ => exact settle_agrees h h₁

omit [DecidableEq A] in
/-- An operation on a borrow position leaves the suppliers alone. -/
theorem BorrowOp.keeps {g g' : BorrowPositionGuard A} (op : BorrowOp C t g F g' F') :
    KeepsSupply g.market g'.market ∧ g'.accountId = g.accountId := by
  cases op.effect <;> exact ⟨⟨rfl, rfl, rfl, rfl, rfl, rfl, rfl, rfl, rfl⟩, rfl⟩

end Operations

/-- The requests in a queue, from its front. -/
def WithdrawalQueue.Holds (q : WithdrawalQueue A) (l : List (A × Nat)) : Prop :=
  ∃ f, Refines q f ∧ f.items = l

/-- The queue represents a list of requests, none of them for nothing. -/
def WithdrawalQueue.Sound (q : WithdrawalQueue A) : Prop :=
  ∃ f, Refines q f ∧ ∀ e ∈ f.items, e.2 ≠ 0

/-- No step of the queue breaks it. -/
theorem QueueStep.sound {q q' : WithdrawalQueue A} (h : q.Sound) (hstep : QueueStep q q') :
    q'.Sound := by
  obtain ⟨f, hf, hne⟩ := h
  cases hstep with
  | @insert a v ha hq =>
    refine ⟨_, insertOrUpdate_of_ok hf hq, ?_⟩
    intro e he
    by_cases hmem : a ∈ f.items.map Prod.fst
    · rw [Fifo.items_update hmem] at he
      obtain ⟨e₀, he₀, rfl⟩ := mem_map.mp he
      by_cases hkey : e₀.1 = a
      · simpa [hkey] using ha
      · simpa [hkey] using hne e₀ he₀
    · rw [Fifo.items_append hmem] at he
      rcases mem_append.mp he with he | he
      · exact hne e he
      · rw [mem_singleton.mp he]
        exact ha
  | remove hq =>
    obtain ⟨q₁, hq₁, hr, -⟩ := remove_refines hf _
    rw [hq] at hq₁
    cases hq₁
    exact ⟨_, hr, fun e he => hne e (mem_of_mem_filter he)⟩
  | pop hq =>
    obtain ⟨q₁, hq₁, hr, -⟩ := pop_refines hf
    rw [hq] at hq₁
    cases hq₁
    exact ⟨_, hr, fun e he => hne e (mem_of_mem_tail he)⟩
  | @mutHead remaining reply hr hq =>
    obtain ⟨q₁, hq₁, href, -⟩ := mutHead_refines hf fun _ => ((), remaining)
    rw [hq] at hq₁
    cases hq₁
    refine ⟨_, href, ?_⟩
    simp only [Fifo.mutHead]
    cases hitems : f.items with
    | nil => simp
    | cons e l =>
      rw [hitems] at hne
      intro e' he'
      rcases mem_cons.mp he' with rfl | he'
      · exact hr
      · exact hne e' (mem_cons_of_mem _ he')

section

variable {q : WithdrawalQueue A} {l : List (A × Nat)}

theorem WithdrawalQueue.Holds.cons
    {e : A × Nat} (h : q.Holds l) (hp : q.peek = .ok (some e)) : ∃ rest, l = e :: rest := by
  obtain ⟨f, hf, rfl⟩ := h
  rw [peek_refines hf] at hp
  exact ⟨f.items.tail, (cons_head?_tail (Except.ok.inj hp)).symm⟩

theorem WithdrawalQueue.Holds.len (h : q.Holds l) : q.len = l.length := by
  obtain ⟨f, hf, rfl⟩ := h
  exact (observes_of_refines hf).len

theorem WithdrawalQueue.Holds.iter (h : q.Holds l) : q.iter l.length = .ok (some l) := by
  obtain ⟨f, hf, rfl⟩ := h
  exact (observes_of_refines hf).iter _ (Nat.le_refl _)

end

namespace WithdrawalQueue.Sound

variable {q : WithdrawalQueue A}

theorem peek (h : q.Sound) : ∃ head, q.peek = .ok head := by
  obtain ⟨f, hf, -⟩ := h
  exact ⟨_, peek_refines hf⟩

theorem peek_some {a : A} {v : Nat} (h : q.Sound) (hp : q.peek = .ok (some (a, v))) :
    v ≠ 0 ∧ ∃ l, q.Holds ((a, v) :: l) := by
  obtain ⟨f, hf, hne⟩ := h
  obtain ⟨l, hl⟩ := Holds.cons ⟨f, hf, rfl⟩ hp
  exact ⟨hne (a, v) (by rw [hl]; exact mem_cons_self ..), l, f, hf, hl⟩

theorem pop (h : q.Sound) : ∃ head q', q.pop = .ok (head, q') := by
  obtain ⟨f, hf, -⟩ := h
  obtain ⟨q', hq', -⟩ := pop_refines hf
  exact ⟨_, q', hq'⟩

theorem mutHead (h : q.Sound) (g : Nat → Unit × Nat) : ∃ reply q', q.mutHead g = .ok (reply, q') := by
  obtain ⟨f, hf, -⟩ := h
  obtain ⟨q', hq', -⟩ := mutHead_refines hf g
  exact ⟨_, q', hq'⟩

end WithdrawalQueue.Sound

/-- The parts of the books that only time, snapshots and the queue change. -/
structure Books.WellFormed (b : Books A) : Prop where
  valid : b.market.configuration.validate = .ok (.ok ())
  chunk : ∃ duration, b.market.configuration.timeChunkConfiguration.durationMs = .ok duration
  pos : 1 ≤ b.market.finalizedSnapshots.length
  length_lt : b.market.finalizedSnapshots.length < 2 ^ 32
  ends : ∀ k s prevEnd, SnapshotAt b.market.finalizedSnapshots k s prevEnd →
    prevEnd ≤ s.endTimestampMs
  past : ∀ s ∈ b.market.finalizedSnapshots, s.endTimestampMs ≤ b.time
  time_lt : b.time < 2 ^ 64
  borrowed_lt : ∀ s ∈ b.market.finalizedSnapshots, s.borrowAssetBorrowed < 2 ^ 128
  queue : b.market.withdrawalQueue.Sound

namespace Books.WellFormed

variable {m m' : Market A} {F F' : Multiset (Flight A)} {t : Nat}

theorem of_same (h : (⟨m, F, t⟩ : Books A).WellFormed)
    (hc : m'.configuration = m.configuration) (hs : m'.finalizedSnapshots = m.finalizedSnapshots)
    (hq : m'.withdrawalQueue.Sound) : (⟨m', F', t⟩ : Books A).WellFormed := by
  obtain ⟨valid, chunk, pos, len, ends, past, time, borrowed, -⟩ := h
  simp only at valid chunk pos len ends past time borrowed
  rw [← hc] at valid chunk
  rw [← hs] at pos len ends past borrowed
  exact ⟨valid, chunk, pos, len, ends, past, time, borrowed, hq⟩

theorem tick {t' : Nat} (h : (⟨m, F, t⟩ : Books A).WellFormed) (ht : t ≤ t')
    (hlt : t' < 2 ^ 64) : (⟨m, F, t'⟩ : Books A).WellFormed :=
  ⟨h.valid, h.chunk, h.pos, h.length_lt, h.ends, fun s hs => Nat.le_trans (h.past s hs) ht, hlt,
    h.borrowed_lt, h.queue⟩

theorem snapshot (h : (⟨m, F, t⟩ : Books A).WellFormed) (hs : m.snapshot t = .ok m') :
    (⟨m', F, t⟩ : Books A).WellFormed := by
  rcases snapshot_eq_ok hs with rfl | ⟨now, s, active, incoming, hcur, hlt, -, rfl⟩
  · exact h
  · obtain ⟨hend, -, hborrowed, hblt⟩ := currentSnapshot_eq_ok hcur
    have hlast : ∀ s' ∈ m.finalizedSnapshots ++ [s], s' ∈ m.finalizedSnapshots ∨ s' = s := by
      intro s' hs'
      rcases mem_append.mp hs' with hs' | hs'
      · exact Or.inl hs'
      · exact Or.inr (mem_singleton.mp hs')
    refine ⟨h.valid, h.chunk, ?_, ?_, ?_, ?_, h.time_lt, ?_, h.queue⟩
    · simp
    · simpa using hlt
    · intro k s' prevEnd hat
      obtain ⟨s₀, hs₀, rfl⟩ := hat.previous
      -- The new snapshot ends now, and the others ended before.
      by_cases hk : k < m.finalizedSnapshots.length
      · apply h.ends k s' s₀.endTimestampMs
        refine ⟨hat.pos, ?_, s₀, ?_, rfl⟩
        · have hcur' := hat.current
          simp only at hcur'
          rwa [getElem?_append_left hk] at hcur'
        · have hpos := hat.pos
          simp only at hs₀
          rwa [getElem?_append_left (by omega)] at hs₀
      · have hk' : k = m.finalizedSnapshots.length := by
          have hlt' := hat.lt
          simp only [length_append, length_singleton] at hlt'
          omega
        have hcur' := hat.current
        simp only [hk', getElem?_concat_length, Option.some.injEq] at hcur'
        subst hcur'
        have hpos := hat.pos
        simp only at hs₀
        rw [getElem?_append_left (by omega)] at hs₀
        rw [hend]
        exact h.past s₀ (mem_of_getElem? hs₀)
    · intro s' hs'
      rcases hlast s' hs' with hs' | rfl
      · exact h.past s' hs'
      · exact hend.le
    · intro s' hs'
      rcases hlast s' hs' with hs' | rfl
      · exact h.borrowed_lt s' hs'
      · exact hblt

end Books.WellFormed

/-- Every supply position has a start, and its market's weights can be added up. -/
def Market.Started (m : Market A) : Prop :=
  ∀ a p, m.supplyPositions.lookup a = some p →
    p.startedAtBlockTimestampMs.isSome ∧
      ∃ weight, m.configuration.yieldWeights.totalWeight = .ok weight

/-- What every move keeps. -/
structure Books.Sound (b : Books A) : Prop where
  wellFormed : b.WellFormed
  supply : b.market.SupplyAgrees
  started : b.market.Started

namespace Books.Sound

variable {C : Conditions A} {m m' : Market A} {F F' : Multiset (Flight A)}
variable {t : Nat}

theorem new {configuration : MarketConfiguration A} {time : Nat} (ht : time < 2 ^ 64)
    (h : new configuration time = .ok m) : (⟨m, 0, time⟩ : Books A).Sound := by
  obtain ⟨hvalid, hchunk, chunk, previous, maximumInterest, rfl⟩ := new_eq_ok h
  refine ⟨⟨hvalid, hchunk, Nat.le_refl _, ?_, ?_, ?_, ht, ?_, ?_⟩, SupplyBooks.empty 1, ?_⟩
  · exact Nat.one_lt_two_pow (by decide)
  · intro k s prevEnd hat
    have hpos := hat.pos
    have hlt := hat.lt
    simp only [length_singleton] at hlt
    omega
  · intro s hs
    rw [mem_singleton.mp hs]
    exact Nat.le_refl _
  · intro s hs
    rw [mem_singleton.mp hs]
    exact Nat.two_pow_pos 128
  · exact ⟨Fifo.empty, refines_new, by simp [Fifo.empty]⟩
  · intro a p hp
    simp at hp

/-- The supply side and everything sound books rest on stay as they are. -/
theorem of_same (h : (⟨m, F, t⟩ : Books A).Sound)
    (hc : m'.configuration = m.configuration) (hs : m'.finalizedSnapshots = m.finalizedSnapshots)
    (hq : m'.withdrawalQueue.Sound) (hp : m'.supplyPositions = m.supplyPositions)
    (ha : m'.borrowAssetDepositedActive = m.borrowAssetDepositedActive)
    (hi : m'.borrowAssetDepositedIncoming = m.borrowAssetDepositedIncoming) :
    (⟨m', F', t⟩ : Books A).Sound := by
  refine ⟨h.wellFormed.of_same hc hs hq, ?_, ?_⟩
  · have hm := h.supply
    unfold Market.SupplyAgrees at hm ⊢
    rw [hs, hp, ha, hi]
    exact hm
  · intro a p hlook
    simp only at hlook
    rw [hp] at hlook
    simp only [hc]
    exact h.started a p hlook

theorem supply_op {g g' : SupplyPositionGuard A}
    (h : (⟨g.drop, F, t⟩ : Books A).Sound) (op : SupplyOp C t g F g' F') :
    (⟨g'.drop, F', t⟩ : Books A).Sound := by
  obtain ⟨hk, ha, hstart⟩ := op.keeps h.supply
  refine ⟨h.wellFormed.of_same hk.configuration hk.snapshots ?_, op.agrees h.supply, ?_⟩
  · have hq : g'.drop.withdrawalQueue = g.drop.withdrawalQueue := hk.queue
    rw [hq]
    exact h.wellFormed.queue
  · obtain ⟨hs, hweight⟩ := h.started g.accountId g.position (AList.lookup_insert _)
    have hc : g'.drop.configuration = g.drop.configuration := hk.configuration
    have hd : g'.drop.supplyPositions = g.market.supplyPositions.insert g.accountId g'.position := by
      rw [← hk.stored, ← ha]
      rfl
    intro a p hp
    simp only at hp
    rw [hd] at hp
    simp only [hc]
    exact forall_replace h.started (fun _ _ hb => hb) ⟨hstart hs, hweight⟩ a p hp

/-- A new position is accrued and receives its first deposit before it is stored. -/
theorem create {a : A} {g₁ g₂ : SupplyPositionGuard A} {amount : Nat}
    (h : (⟨m, F, t⟩ : Books A).Sound) (ha : m.supplyPositions.lookup a = none)
    (h₁ : accumulateYield ⟨m, a, SupplyPosition.new m.finalizedSnapshots.length⟩ = .ok g₁)
    (h₂ : g₁.recordDeposit amount t = .ok g₂) : (⟨g₂.drop, F, t⟩ : Books A).Sound := by
  have hfresh : (drop
      ⟨m, a, SupplyPosition.new m.finalizedSnapshots.length⟩).SupplyAgrees :=
    SupplyBooks.create h.supply ha h.wellFormed.pos
  have hagrees₁ := accumulate_agrees hfresh h₁
  have hagrees₂ := deposit_agrees hagrees₁ h₂
  obtain ⟨stop, active, incoming, yield, entries, weight, -, -, -, hweight, -, -, -, rfl⟩ :=
    accumulateYieldPartial_eq_ok h₁ (position_of_drop hfresh).orderly
  obtain ⟨startedAt, incoming₂, entries₂, -, -, -, -, rfl⟩ := recordDeposit_eq_ok h₂
  refine ⟨h.wellFormed.of_same rfl rfl h.wellFormed.queue, hagrees₂, ?_⟩
  exact forall_insert h.started ⟨rfl, weight, hweight⟩

/-- No move breaks the books. -/
theorem move {b b' : Books A} (h : b.Sound) (hm : Move C b b') : b'.Sound := by
  cases hm with
  | tick ht hlt => exact ⟨h.wellFormed.tick ht hlt, h.supply, h.started⟩
  | lose hle => exact ⟨h.wellFormed.of_same rfl rfl h.wellFormed.queue, h.supply, h.started⟩
  | snapshot hs =>
    refine ⟨h.wellFormed.snapshot hs, ?_, ?_⟩
    · rcases snapshot_eq_ok hs with rfl | ⟨now, s, active, incoming, -, -, hact, rfl⟩
      · exact h.supply
      · have hagrees := (SupplyBooks.activate h.supply hact).2.2
        unfold Market.SupplyAgrees
        rw [length_append]
        exact hagrees
    · rcases snapshot_eq_ok hs with rfl | ⟨now, s, active, incoming, -, -, -, rfl⟩
      · exact h.started
      · exact h.started
  | queue hq => exact h.of_same rfl rfl (hq.sound h.wellFormed.queue) rfl rfl rfl
  | openSupply hp =>
    refine ⟨h.wellFormed.of_same rfl rfl h.wellFormed.queue, SupplyBooks.open' h.supply hp, ?_⟩
    exact forall_insert h.started (h.started _ _ hp)
  | createSupply hp h₁ h₂ => exact h.create hp h₁ h₂
  | supply op => exact h.supply_op op
  | cleanupSupply hp hremove =>
    obtain ⟨h₁, h₂, -, -⟩ := SupplyPosition.canBeRemoved_eq_true hremove
    refine ⟨h.wellFormed.of_same rfl rfl h.wellFormed.queue, SupplyBooks.erase h.supply hp ⟨h₁, h₂⟩, ?_⟩
    exact forall_erase h.started
  | openBorrow hp => exact h.of_same rfl rfl h.wellFormed.queue rfl rfl rfl
  | @borrow g g' F F' t op =>
    obtain ⟨hk, -⟩ := op.keeps
    refine h.of_same hk.configuration hk.snapshots ?_ hk.positions hk.active hk.incoming
    have hq : g'.drop.withdrawalQueue = g.drop.withdrawalQueue := hk.queue
    rw [hq]
    exact h.wellFormed.queue
  | cleanupBorrow hp hremove => exact h.of_same rfl rfl h.wellFormed.queue rfl rfl rfl
  | accumulateStaticYield hs =>
    obtain ⟨numerator, before, after, stop, entries, -, -, -, -, -, -, -, rfl⟩ :=
      accumulateStaticYield_eq_ok hs
    exact h.of_same rfl rfl h.wellFormed.queue rfl rfl rfl
  | withdrawStaticYield hs =>
    obtain ⟨record, sent, -, -, -, he⟩ := withdrawStaticYield_eq_ok hs
    cases he
    exact h.of_same rfl rfl h.wellFormed.queue rfl rfl rfl
  | settleStaticYield hs =>
    rcases withdrawStaticYield01Finalize_eq_ok hs with he | ⟨record, -, he⟩
    all_goals
      cases he
      exact h.of_same rfl rfl h.wellFormed.queue rfl rfl rfl

end Books.Sound

/-- All books of all runs are sound. -/
theorem Booked.sound {C : Conditions A} {b : Books A} (h : Booked C b) : b.Sound := by
  induction h with
  | new ht h => exact Books.Sound.new ht h
  | move _ hm ih => exact ih.move hm

end Templar.Lending
