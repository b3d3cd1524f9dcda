import Templar.Lending.BorrowSpec

/-!
# Supply aggregates agree with positions

The same deposit is recorded in its position and in the market's totals, and the two
move it from waiting to active at different times. `SupplyBooks` says how the two
records agree at all times, for `n` finalized snapshots: what positions hold by snapshot
`n` is the market's active amount, what they expect at `n + 1` is the market's waiting
amount, and nothing is expected later.
-/

namespace Templar.Lending

open Checked SupplyPosition Table

variable {A : Type} [DecidableEq A]

/-- What is active in a position once everything due by a snapshot has joined. -/
def SupplyPosition.heldAt (k : Nat) (p : SupplyPosition) : Nat :=
  activeAt k p.borrowAssetDeposit.active p.borrowAssetDeposit.incoming

/-- What waits in a position for one snapshot. -/
def SupplyPosition.expectedAt (k : Nat) (p : SupplyPosition) : Nat :=
  dueAt k p.borrowAssetDeposit.incoming

/-- A position lags behind the market by at most the finalized snapshots; its schedule
starts after what it has accrued and ends with the next snapshot. -/
structure PositionBooks (n : Nat) (entries : List IncomingDeposit) (p : SupplyPosition) : Prop where
  next_pos : 1 ≤ p.borrowAssetYield.nextSnapshotIndex
  next_le : p.borrowAssetYield.nextSnapshotIndex ≤ n
  orderly : Orderly (p.borrowAssetYield.nextSnapshotIndex + 1) (n + 1) p.borrowAssetDeposit.incoming
  entry : ∀ d ∈ p.borrowAssetDeposit.incoming, d.activateAtSnapshotIndex = n + 1 → entries ≠ []

structure SupplyBooks (n : Nat) (positions : Table A SupplyPosition) (active : Nat)
    (entries : List IncomingDeposit) : Prop where
  single : SingleEntry (n + 1) entries
  position : ∀ a p, positions.lookup a = some p → PositionBooks n entries p
  active_eq : total (heldAt n) positions = active
  waiting_eq : total (expectedAt (n + 1)) positions = waiting entries

theorem Orderly.dueAt_eq_waiting {k : Nat} {l : List IncomingDeposit} (h : Orderly k k l) :
    dueAt k l = waiting l := by
  apply scheduled_congr
  intro d hd
  have hb := h.bounds d hd
  simp only [decide_eq_true_eq]
  omega

namespace SupplyBooks

variable {n active active' : Nat} {t : Table A SupplyPosition} {a : A}
variable {entries entries' : List IncomingDeposit} {p p' : SupplyPosition}

theorem empty (n : Nat) : SupplyBooks n (∅ : Table A SupplyPosition) 0 [] where
  single := Or.inl rfl
  position := by
    intro a p h
    simp at h
  active_eq := rfl
  waiting_eq := rfl

section

variable (h : SupplyBooks n t active entries)
include h

/-- A position is taken out, or a new one is added. -/
theorem insert (hp : PositionBooks n entries p) (hheld : part (heldAt n) t a = p.heldAt n)
    (hexpected : part (expectedAt (n + 1)) t a = p.expectedAt (n + 1)) :
    SupplyBooks n (t.insert a p) active entries where
  single := h.single
  position := forall_insert h.position hp
  active_eq := by
    have ht := total_insert (heldAt n) t a p
    have ha := h.active_eq
    omega
  waiting_eq := by
    have ht := total_insert (expectedAt (n + 1)) t a p
    have hw := h.waiting_eq
    omega

theorem open' (ha : t.lookup a = some p) : SupplyBooks n (t.insert a p) active entries :=
  h.insert (h.position a p ha) (part_of_lookup ha) (part_of_lookup ha)

theorem create (ha : t.lookup a = none) (hn : 1 ≤ n) :
    SupplyBooks n (t.insert a (new n)) active entries := by
  apply h.insert
  · exact ⟨hn, Nat.le_refl _, trivial, by simp [new]⟩
  · exact part_of_none ha
  · exact part_of_none ha

end

/-- One position changes, and the market's totals by the same amounts. -/
theorem replace (h : SupplyBooks n (t.insert a p) active entries)
    (hp : PositionBooks n entries' p') (hsingle : SingleEntry (n + 1) entries')
    (hne : entries ≠ [] → entries' ≠ [])
    (hheld : p'.heldAt n + active = p.heldAt n + active')
    (hexpected : p'.expectedAt (n + 1) + waiting entries = p.expectedAt (n + 1) + waiting entries') :
    SupplyBooks n (t.insert a p') active' entries' where
  single := hsingle
  position := forall_replace h.position
    (fun _ _ hb => ⟨hb.next_pos, hb.next_le, hb.orderly, fun d hd hi => hne (hb.entry d hd hi)⟩) hp
  active_eq := by
    have ht := total_replace (heldAt n) t a p p'
    have ha := h.active_eq
    omega
  waiting_eq := by
    have ht := total_replace (expectedAt (n + 1)) t a p p'
    have hw := h.waiting_eq
    omega

section

variable (h : SupplyBooks n t active entries)
include h

theorem erase (ha : t.lookup a = some p)
    (hzero : p.borrowAssetDeposit.active = 0 ∧ waiting p.borrowAssetDeposit.incoming = 0) :
    SupplyBooks n (t.erase a) active entries where
  single := h.single
  position := forall_erase h.position
  active_eq := by
    have ht := total_erase (heldAt n) t a
    have hle : p.heldAt n ≤ p.borrowAssetDeposit.active + waiting p.borrowAssetDeposit.incoming :=
      activeAt_le_waiting n _ _
    rw [part_of_lookup ha] at ht
    have heq := h.active_eq
    omega
  waiting_eq := by
    have ht := total_erase (expectedAt (n + 1)) t a
    have hle := scheduled_le_waiting (fun i => decide (i = n + 1)) p.borrowAssetDeposit.incoming
    rw [part_of_lookup ha, expectedAt, dueAt] at ht
    have heq := h.waiting_eq
    omega

/-- The next snapshot activates everything that waits. -/
theorem activate (ha : Market.activateAt (n + 1) active entries = .ok (active', entries')) :
    active' = active + waiting entries ∧ entries' = [] ∧ SupplyBooks (n + 1) t active' entries' := by
  have hres : active' = active + waiting entries ∧ entries' = [] := by
    rcases h.single with rfl | ⟨v, -, rfl⟩
    · cases ha
      exact ⟨rfl, rfl⟩
    · simp only [Market.activateAt, ↓reduceIte, do_ok] at ha
      obtain ⟨total, ⟨-, rfl⟩, rfl, rfl⟩ := ha
      exact ⟨by simp [waiting], rfl⟩
  obtain ⟨rfl, rfl⟩ := hres
  refine ⟨rfl, rfl, Or.inl rfl, ?_, ?_, ?_⟩
  · intro b q hb
    have hq := h.position b q hb
    refine ⟨hq.next_pos, Nat.le_succ_of_le hq.next_le, hq.orderly.mono (Nat.le_refl _) (Nat.le_succ _), ?_⟩
    intro d hd hi
    have hle := (hq.orderly.bounds d hd).2
    omega
  · have hsucc : total (heldAt (n + 1)) t =
        total (fun q => q.heldAt n + q.expectedAt (n + 1)) t :=
      total_congr fun b q _ => activeAt_succ n q.borrowAssetDeposit.active _
    rw [hsucc, total_add, h.active_eq, h.waiting_eq]
  · apply total_eq_zero
    intro b q hb
    exact (h.position b q hb).orderly.dueAt_of_lt (Or.inr (by omega))

theorem heldAt_le (ha : t.lookup a = some p) : p.heldAt n ≤ active := by
  rw [← h.active_eq]
  exact le_total ha

theorem expectedAt_le (ha : t.lookup a = some p) : p.expectedAt (n + 1) ≤ waiting entries := by
  rw [← h.waiting_eq]
  exact le_total ha

end

end SupplyBooks

def Market.SupplyAgrees (m : Market A) : Prop :=
  SupplyBooks m.finalizedSnapshots.length m.supplyPositions m.borrowAssetDepositedActive
    m.borrowAssetDepositedIncoming

namespace SupplyPositionGuard

variable {g g' : SupplyPositionGuard A}

theorem drop_agrees : g.drop.SupplyAgrees ↔ SupplyBooks g.market.finalizedSnapshots.length
      (g.market.supplyPositions.insert g.accountId g.position) g.market.borrowAssetDepositedActive
      g.market.borrowAssetDepositedIncoming := Iff.rfl

theorem position_of_drop (h : g.drop.SupplyAgrees) :
    PositionBooks g.market.finalizedSnapshots.length g.market.borrowAssetDepositedIncoming
      g.position :=
  h.position g.accountId g.position (AList.lookup_insert _)

/-- An accrued position waits for the next snapshot only. -/
theorem orderly_of_accrued (h : g.drop.SupplyAgrees) (hg : g.Accrued) :
    Orderly (g.market.finalizedSnapshots.length + 1) (g.market.finalizedSnapshots.length + 1)
      g.position.borrowAssetDeposit.incoming := by
  have ho := (position_of_drop h).orderly
  rwa [hg] at ho

theorem heldAt_of_accrued (h : g.drop.SupplyAgrees) (hg : g.Accrued) :
    g.position.heldAt g.market.finalizedSnapshots.length = g.position.borrowAssetDeposit.active :=
  (orderly_of_accrued h hg).activeAt_of_lt (Nat.lt_succ_self _)

theorem accumulate_agrees {limit : Nat} (h : g.drop.SupplyAgrees)
    (ha : g.accumulateYieldPartial limit = .ok g') : g'.drop.SupplyAgrees := by
  have hp := position_of_drop h
  obtain ⟨stop, active, incoming, yield, entries, weight, hstop, -, hle, -, hact, hnext, -, rfl⟩ :=
    accumulateYieldPartial_eq_ok ha hp.orderly
  have hstop_le : stop ≤ g.market.finalizedSnapshots.length := by omega
  obtain ⟨ho, hheld, hdue, -, hsub⟩ := activateThrough_eq_ok hact hp.orderly
  rw [drop_agrees] at h ⊢
  refine h.replace ?_ h.single (fun hne => hne) ?_ ?_
  · refine ⟨?_, ?_, ?_, ?_⟩
    · simp only [hnext]
      have := hp.next_pos
      omega
    · simp only [hnext]
      exact hstop_le
    · simp only [hnext]
      exact ho.mono (Nat.le_max_right _ _) (Nat.le_refl _)
    · intro d hd hi
      exact hp.entry d (hsub hd) hi
  · simp only [heldAt]
    rw [hheld _ hstop_le]
  · have hd : dueAt (g.market.finalizedSnapshots.length + 1) incoming =
        dueAt (g.market.finalizedSnapshots.length + 1) g.position.borrowAssetDeposit.incoming := by
      apply hdue
      intro i hi
      simp only [decide_eq_false_iff_not]
      omega
    simp only [expectedAt, hd]

/-- An amount joins the waiting deposits of a position and of the market. -/
theorem replace_added {t : Table A SupplyPosition} {a : A} {p p' : SupplyPosition}
    {n active amount : Nat} {entries entries' : List IncomingDeposit}
    (h : SupplyBooks n (t.insert a p) active entries) (hamount : amount < 2 ^ 128)
    (hp : addToPosition p.borrowAssetDeposit.incoming amount (n + 1) =
      .ok p'.borrowAssetDeposit.incoming)
    (hm : addToMarket amount (n + 1) entries = .ok entries')
    (hactive : p'.borrowAssetDeposit.active = p.borrowAssetDeposit.active)
    (hyield : p'.borrowAssetYield = p.borrowAssetYield) :
    SupplyBooks n (t.insert a p') active entries' := by
  have hb := h.position a p (AList.lookup_insert _)
  obtain ⟨ho, hsum⟩ := addToPosition_eq_ok hp hb.orderly (by have := hb.next_le; omega)
  obtain ⟨hsingle, hne⟩ := h.single.add hamount hm
  refine h.replace ?_ hsingle (fun _ => hne) ?_ ?_
  · refine ⟨?_, ?_, ?_, fun _ _ _ => hne⟩
    · rw [hyield]
      exact hb.next_pos
    · rw [hyield]
      exact hb.next_le
    · rw [hyield]
      exact ho
  · simp [heldAt, activeAt, hsum, hactive]
  · simp only [expectedAt, dueAt, waiting, hsum, addToMarket_eq_ok hm, decide_true, ↓reduceIte]
    omega

theorem deposit_agrees {amount now : Nat} (h : g.drop.SupplyAgrees)
    (hd : g.recordDeposit amount now = .ok g') : g'.drop.SupplyAgrees := by
  obtain ⟨startedAt, incoming, entries, hb, -, hp, hm, rfl⟩ := recordDeposit_eq_ok hd
  exact replace_added h (by omega) hp hm rfl rfl

theorem withdraw_agrees {requested now : Nat} {attempt : WithdrawalAttempt A}
    {w : Withdrawal A} (h : g.drop.SupplyAgrees) (hg : g.Accrued)
    (hr : g.recordWithdrawalInitial requested now = .ok (attempt, g'))
    (hw : attempt.withdrawal = some w) : g'.drop.SupplyAgrees := by
  have ho := orderly_of_accrued h hg
  have hp := position_of_drop h
  have hheld := heldAt_of_accrued h hg
  obtain ⟨fy, fi, fa, incoming, entries, hw⟩ := recordWithdrawalInitial_withdrawn hr hw ho h.single
  rw [hw.result]
  rw [drop_agrees] at h ⊢
  refine h.replace ?_ hw.single hw.entries_ne ?_ ?_
  · refine ⟨hp.next_pos, hp.next_le, ?_, ?_⟩
    · simp only [hg.symm] at hw ⊢
      exact hw.orderly.mono (Nat.le_refl _) (Nat.le_refl _)
    · intro d hd hi
      apply hw.entries_ne
      obtain ⟨e, he⟩ := List.exists_mem_of_ne_nil _ (hw.incoming_ne (List.ne_nil_of_mem hd))
      have hb := ho.bounds e he
      exact hp.entry e he (by omega)
  · have hheld' : activeAt g.market.finalizedSnapshots.length
        (g.position.borrowAssetDeposit.active - fa) incoming = _ :=
      hw.orderly.activeAt_of_lt (Nat.lt_succ_self _)
    have h₁ := hw.active_le
    have h₂ := hw.market_active_le
    simp only [heldAt] at hheld ⊢
    rw [hheld, hheld']
    omega
  · have h₁ := hw.incoming_waiting
    have h₂ := hw.entries_waiting
    simp only [expectedAt, hw.orderly.dueAt_eq_waiting, ho.dueAt_eq_waiting]
    omega

theorem settle_agrees {w : Withdrawal A} {success : Bool} (h : g.drop.SupplyAgrees)
    (hw : g.recordWithdrawalFinal w success = .ok g') : g'.drop.SupplyAgrees := by
  cases success with
  | true =>
    obtain ⟨record, -, -, -, -, rfl⟩ := recordWithdrawalFinal_success hw
    have hp := position_of_drop h
    exact SupplyBooks.replace h ⟨hp.next_pos, hp.next_le, hp.orderly, hp.entry⟩ h.single
      (fun hne => hne) rfl rfl
  | false =>
    obtain ⟨incoming, entries, hlt, -, -, -, -, hp, hm, rfl⟩ := recordWithdrawalFinal_failure hw
    exact replace_added h hlt hp hm rfl rfl

end SupplyPositionGuard

end Templar.Lending
