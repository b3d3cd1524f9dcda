import Templar.Lending.Accrual

/-!
# What the operations on a supply position do

One lemma for each operation of the guard: when it returns, these are the checks that
held and this is the guard it returns.
-/

namespace Templar.Lending

open Checked Market

variable {A : Type} {k amount : Nat} {l l' : List IncomingDeposit}

/-- A market's list holds at most one entry, for the given index. -/
def SingleEntry (k : Nat) (l : List IncomingDeposit) : Prop :=
  l = [] ∨ ∃ v, v < 2 ^ 128 ∧ l = [⟨k, v⟩]

theorem SingleEntry.add (hl : SingleEntry k l) (ha : amount < 2 ^ 128)
    (h : addToMarket amount k l = .ok l') : SingleEntry k l' ∧ l' ≠ [] := by
  rcases hl with rfl | ⟨v, -, rfl⟩
  · cases h
    exact ⟨Or.inr ⟨amount, ha, rfl⟩, by simp⟩
  · simp only [addToMarket, ↓reduceIte, do_ok] at h
    obtain ⟨total, ⟨hlt, rfl⟩, rfl⟩ := h
    exact ⟨Or.inr ⟨v + amount, hlt, rfl⟩, by simp⟩

theorem SingleEntry.remove (hl : SingleEntry k l) (h : removeFromMarket amount k l = .ok l') :
    ∃ v, v < 2 ^ 128 ∧ amount ≤ v ∧ l = [⟨k, v⟩] ∧ l' = [⟨k, v - amount⟩] := by
  rcases hl with rfl | ⟨v, hv, rfl⟩
  · cases h
  · simp only [removeFromMarket, ↓reduceIte, do_ok, unwrapSub_eq_ok] at h
    obtain ⟨total, ⟨hle, rfl⟩, rfl⟩ := h
    exact ⟨v, hv, hle, rfl, rfl⟩

theorem SingleEntry.dueAt_eq (hl : SingleEntry k l) (j : Nat) :
    dueAt j l = if j = k then waiting l else 0 := by
  rcases hl with rfl | ⟨v, -, rfl⟩
  · simp [dueAt, waiting]
  · by_cases hj : j = k
    · subst hj
      simp [dueAt, waiting]
    · have hk : k ≠ j := fun h => hj h.symm
      simp [dueAt, hj, hk]

def WithdrawalAttempt.withdrawal : WithdrawalAttempt A → Option (Withdrawal A)
  | .full w => some w
  | .partially w _ => some w
  | _ => none

namespace SupplyPositionGuard

variable {g g' : SupplyPositionGuard A} {now requested : Nat} {w : Withdrawal A}
  {attempt : WithdrawalAttempt A}

/-- The position has accrued every finalized snapshot. -/
def Accrued (g : SupplyPositionGuard A) : Prop :=
  g.position.borrowAssetYield.nextSnapshotIndex = g.market.finalizedSnapshots.length

theorem accumulate_eq_ok {a a' : Accumulator} {record : AccumulationRecord}
    (h : a.accumulate record = .ok a') :
    a.nextSnapshotIndex ≤ record.nextSnapshotIndex ∧
      a'.nextSnapshotIndex = record.nextSnapshotIndex ∧ a.total ≤ a'.total := by
  simp only [Accumulator.accumulate, do_ok] at h
  obtain ⟨hle, h⟩ := h
  split at h
  all_goals
    simp only [do_ok] at h
    obtain ⟨amount, -, total, ⟨-, rfl⟩, rfl⟩ := h
    exact ⟨hle, rfl, Nat.le_add_right _ _⟩

/-- Accrual over the next snapshots, up to a limit. -/
theorem accumulateYieldPartial_eq_ok {limit hi : Nat} (h : g.accumulateYieldPartial limit = .ok g')
    (ho : Orderly (g.position.borrowAssetYield.nextSnapshotIndex + 1) hi
      g.position.borrowAssetDeposit.incoming) :
    ∃ stop active incoming yield entries weight,
      stop = g.position.borrowAssetYield.nextSnapshotIndex +
        min limit (g.market.finalizedSnapshots.length - g.position.borrowAssetYield.nextSnapshotIndex) ∧
      1 ≤ g.position.borrowAssetYield.nextSnapshotIndex ∧
      g.position.borrowAssetYield.nextSnapshotIndex ≤ g.market.finalizedSnapshots.length ∧
      g.market.configuration.yieldWeights.totalWeight = .ok weight ∧
      activateThrough stop g.position.borrowAssetDeposit.incoming
        g.position.borrowAssetDeposit.active = .ok (active, incoming) ∧
      yield.nextSnapshotIndex = stop ∧
      Passed JournalEntry.yieldShare g.accountId
        (fun k => activeAt k g.position.borrowAssetDeposit.active g.position.borrowAssetDeposit.incoming)
        (YieldRule g.market fun k =>
          activeAt k g.position.borrowAssetDeposit.active g.position.borrowAssetDeposit.incoming)
        g.position.borrowAssetYield.nextSnapshotIndex stop entries ∧
      g' = { g with
        position := { g.position with
          borrowAssetDeposit := { g.position.borrowAssetDeposit with
            active := active, incoming := incoming }
          borrowAssetYield := yield }
        market := { g.market with journal := g.market.journal ++ entries } } := by
  simp only [accumulateYieldPartial, do_ok] at h
  obtain ⟨-, ⟨record, entries⟩, hcalc, g₁, hact, yield, hyield, rfl⟩ := h
  simp only [calculateYield, do_ok] at hcalc
  obtain ⟨prevEnd, hprev, weight, hweight, state, hloop, amount, -, rfl, rfl⟩ := hcalc
  obtain ⟨hpos, hle, hs₀⟩ := previousEnd_eq_ok hprev
  have hstart : YieldState.Sound g.market g.accountId g.position.borrowAssetDeposit.active hi
      g.position.borrowAssetYield.nextSnapshotIndex g.position.borrowAssetDeposit.incoming
      g.position.borrowAssetYield.nextSnapshotIndex
      ⟨g.position.borrowAssetDeposit.active, g.position.borrowAssetDeposit.incoming,
        Decimal.zero, []⟩ :=
    ⟨Nat.le_refl _, ho.mono (by omega) (Nat.le_refl _), fun _ _ => rfl, passed_nil _⟩
  have hend := accrueLoop_invariant (fun k x => YieldState.Sound g.market g.accountId
      g.position.borrowAssetDeposit.active hi g.position.borrowAssetYield.nextSnapshotIndex
      g.position.borrowAssetDeposit.incoming k x)
    (fun k s prevEnd x x' hat hx hstep => yieldStep_sound hweight hat hx hstep)
    hpos hs₀ hloop hstart
  obtain ⟨⟨active, incoming⟩, hthrough, rfl, rfl⟩ := bind_eq_ok.mp hact
  obtain ⟨-, hnext, -⟩ := accumulate_eq_ok hyield
  rw [g.market.pendingSnapshots_length] at hthrough hnext
  rw [List.length_take, List.length_drop] at hend
  exact ⟨_, active, incoming, yield, state.entries, weight, rfl, hpos, hle, hweight, hthrough,
    hnext, hend.passed, rfl⟩

/-- A deposit waits for the snapshot after the current one. -/
theorem recordDeposit_eq_ok (h : g.recordDeposit amount now = .ok g') :
    ∃ startedAt incoming entries,
      g.market.borrowAssetBalance + amount < 2 ^ 128 ∧
      g.market.finalizedSnapshots.length + 1 < 2 ^ 32 ∧
      addToPosition g.position.borrowAssetDeposit.incoming amount
        (g.market.finalizedSnapshots.length + 1) = .ok incoming ∧
      addToMarket amount (g.market.finalizedSnapshots.length + 1)
        g.market.borrowAssetDepositedIncoming = .ok entries ∧
      g' = { g with
        position := { g.position with
          startedAtBlockTimestampMs := some startedAt
          borrowAssetDeposit := { g.position.borrowAssetDeposit with incoming := incoming } }
        market := { g.market with
          borrowAssetBalance := g.market.borrowAssetBalance + amount
          borrowAssetDepositedIncoming := entries } } := by
  simp only [recordDeposit, addIncoming, snapshotsLen, do_ok] at h
  obtain ⟨balance, ⟨hb, rfl⟩, len, ⟨-, rfl⟩, index, ⟨hi, rfl⟩, incoming, hp, entries, hm, rfl⟩ := h
  have hstarted : ∃ t, (if g.position.startedAtBlockTimestampMs.isNone ∨
      g.position.borrowAssetDeposit.active = 0 then some now
      else g.position.startedAtBlockTimestampMs) = some t := by
    cases hs : g.position.startedAtBlockTimestampMs with
    | none => exact ⟨now, by simp⟩
    | some t => by_cases ha : g.position.borrowAssetDeposit.active = 0 <;> simp [ha]
  obtain ⟨t, ht⟩ := hstarted
  exact ⟨t, incoming, entries, hb, hi, hp, hm, by rw [ht]⟩

/-- From a list within one index an amount is taken that the list holds. -/
theorem removeIncoming_eq_ok (h : g.removeIncoming amount = .ok g')
    (ho : Orderly k k g.position.borrowAssetDeposit.incoming)
    (hs : SingleEntry k g.market.borrowAssetDepositedIncoming)
    (ha : amount ≤ waiting g.position.borrowAssetDeposit.incoming) : ∃ incoming entries,
      Orderly k k incoming ∧ SingleEntry k entries ∧
      (incoming ≠ [] → g.position.borrowAssetDeposit.incoming ≠ []) ∧
      (g.market.borrowAssetDepositedIncoming ≠ [] → entries ≠ []) ∧
      waiting incoming + amount = waiting g.position.borrowAssetDeposit.incoming ∧
      waiting entries + amount = waiting g.market.borrowAssetDepositedIncoming ∧
      g' = { g with
        position := { g.position with
          borrowAssetDeposit := { g.position.borrowAssetDeposit with incoming := incoming } }
        market := { g.market with borrowAssetDepositedIncoming := entries } } := by
  rcases ho.cases_one with hnil | ⟨v, hone⟩
  · rw [removeIncoming, hnil] at h
    cases h
    rw [hnil] at ha ⊢
    have hz : amount = 0 := Nat.le_zero.mp ha
    exact ⟨[], g.market.borrowAssetDepositedIncoming, trivial, hs, by simp, fun h => h,
      by rw [hz]; rfl, by rw [hz]; rfl, rfl⟩
  · rw [hone] at ha ⊢
    simp only [removeIncoming, hone, List.reverse_singleton, removeIncomingLoop, do_ok,
      List.reverse_nil] at h
    obtain ⟨total, ⟨-, rfl⟩, entries, hremove, h⟩ := h
    obtain ⟨u, hu, hvu, hl, rfl⟩ := hs.remove hremove
    have hwaiting : amount ≤ v := by simpa [waiting] using ha
    rw [hl]
    split at h
    · rename_i heq
      cases h
      refine ⟨[], [⟨k, u - v⟩], trivial, Or.inr ⟨u - v, by omega, rfl⟩, by simp, by simp, ?_, ?_, rfl⟩
      · simp only [waiting, scheduled_nil, scheduled_cons, ↓reduceIte]
        omega
      · simp only [waiting, scheduled_nil, scheduled_cons, ↓reduceIte]
        omega
    · rename_i hne
      rw [if_pos (by omega)] at h
      simp only [addIncoming, addToPosition, List.getLast?_nil, addToMarket, ↓reduceIte, do_ok,
        List.nil_append] at h
      obtain ⟨incoming, ⟨-, hincoming⟩, entries, ⟨w, ⟨hw, rfl⟩, hentries⟩, h⟩ := h
      cases hincoming
      cases hentries
      cases h
      refine ⟨[⟨k, 0 + v - amount⟩], [⟨k, u - v + (0 + v - amount)⟩],
        ⟨Nat.le_refl _, Nat.le_refl _, trivial⟩, Or.inr ⟨_, hw, rfl⟩, by simp, by simp, ?_, ?_, rfl⟩
      · simp only [waiting, scheduled_nil, scheduled_cons, ↓reduceIte]
        omega
      · simp only [waiting, scheduled_nil, scheduled_cons, ↓reduceIte]
        omega

/-- What a position may withdraw at most. -/
def entitled (g : SupplyPositionGuard A) : Nat :=
  waiting g.position.borrowAssetDeposit.incoming + g.position.borrowAssetDeposit.active +
    min g.position.borrowAssetYield.total g.market.borrowAssetPaidToFees

/-- A withdrawal that was started: its amount splits over yield, waiting deposits and
active funds, in this order, and each part leaves the position and the market alike. -/
structure Withdrawn (g : SupplyPositionGuard A) (requested k : Nat)
    (w : Withdrawal A) (fromYield fromIncoming fromActive : Nat)
    (incoming entries : List IncomingDeposit) (g' : SupplyPositionGuard A) : Prop where
  account : w.accountId = g.accountId
  amount : w.amountToAccount + w.amountToFees = fromYield + fromIncoming + fromActive
  nonzero : requested ≠ 0 → w.amountToAccount + w.amountToFees ≠ 0
  le_requested : w.amountToAccount + w.amountToFees ≤ min requested g.entitled
  borrowed_le : g.market.borrowAssetBorrowed ≤
    g.market.borrowAssetDepositedActive + g.market.borrowAssetPaidToFees
  le_available : w.amountToAccount + w.amountToFees ≤
    g.market.borrowAssetDepositedActive + g.market.borrowAssetPaidToFees -
      g.market.borrowAssetBorrowed + waiting g.position.borrowAssetDeposit.incoming
  yield_eq : fromYield = min (min g.position.borrowAssetYield.total g.market.borrowAssetPaidToFees)
    (w.amountToAccount + w.amountToFees)
  incoming_eq : fromIncoming = min (waiting g.position.borrowAssetDeposit.incoming)
    (w.amountToAccount + w.amountToFees - fromYield)
  active_le : fromActive ≤ g.position.borrowAssetDeposit.active
  market_active_le : fromActive ≤ g.market.borrowAssetDepositedActive
  outgoing_lt : g.position.borrowAssetDeposit.outgoing + (w.amountToAccount + w.amountToFees) < 2 ^ 128
  balance_le : w.amountToAccount ≤ g.market.borrowAssetBalance
  orderly : Orderly k k incoming
  single : SingleEntry k entries
  incoming_ne : incoming ≠ [] → g.position.borrowAssetDeposit.incoming ≠ []
  entries_ne : g.market.borrowAssetDepositedIncoming ≠ [] → entries ≠ []
  incoming_waiting : waiting incoming + fromIncoming = waiting g.position.borrowAssetDeposit.incoming
  entries_waiting : waiting entries + fromIncoming = waiting g.market.borrowAssetDepositedIncoming
  result : g' = { g with
    position := { g.position with
      borrowAssetDeposit := ⟨g.position.borrowAssetDeposit.active - fromActive, incoming,
        g.position.borrowAssetDeposit.outgoing + (w.amountToAccount + w.amountToFees)⟩
      borrowAssetYield := { g.position.borrowAssetYield with
        total := g.position.borrowAssetYield.total - fromYield } }
    market := { g.market with
      borrowAssetPaidToFees := g.market.borrowAssetPaidToFees - fromYield
      borrowAssetDepositedIncoming := entries
      borrowAssetDepositedActive := g.market.borrowAssetDepositedActive - fromActive
      borrowAssetBalance := g.market.borrowAssetBalance - w.amountToAccount
      borrowAssetWithdrawalInFlight := g.market.borrowAssetWithdrawalInFlight + w.amountToAccount
      journal := g.market.journal ++ [.withdrawalStarted w.amountToFees] } }

/-- The removal of an amount a position is entitled to, in its three parts. -/
theorem removeWithdrawal_eq_ok (h : g.removeWithdrawal amount
      (min g.position.borrowAssetYield.total g.market.borrowAssetPaidToFees)
      (waiting g.position.borrowAssetDeposit.incoming) = .ok g')
    (ho : Orderly k k g.position.borrowAssetDeposit.incoming)
    (hs : SingleEntry k g.market.borrowAssetDepositedIncoming) :
    ∃ fromYield fromIncoming fromActive incoming entries,
      fromYield = min (min g.position.borrowAssetYield.total g.market.borrowAssetPaidToFees) amount ∧
      fromIncoming = min (waiting g.position.borrowAssetDeposit.incoming) (amount - fromYield) ∧
      amount = fromYield + fromIncoming + fromActive ∧
      fromActive ≤ g.position.borrowAssetDeposit.active ∧
      fromActive ≤ g.market.borrowAssetDepositedActive ∧
      g.position.borrowAssetDeposit.outgoing + amount < 2 ^ 128 ∧
      Orderly k k incoming ∧ SingleEntry k entries ∧
      (incoming ≠ [] → g.position.borrowAssetDeposit.incoming ≠ []) ∧
      (g.market.borrowAssetDepositedIncoming ≠ [] → entries ≠ []) ∧
      waiting incoming + fromIncoming = waiting g.position.borrowAssetDeposit.incoming ∧
      waiting entries + fromIncoming = waiting g.market.borrowAssetDepositedIncoming ∧
      g' = { g with
        position := { g.position with
          borrowAssetDeposit := ⟨g.position.borrowAssetDeposit.active - fromActive, incoming,
            g.position.borrowAssetDeposit.outgoing + amount⟩
          borrowAssetYield := { g.position.borrowAssetYield with
            total := g.position.borrowAssetYield.total - fromYield } }
        market := { g.market with
          borrowAssetPaidToFees := g.market.borrowAssetPaidToFees - fromYield
          borrowAssetDepositedIncoming := entries
          borrowAssetDepositedActive := g.market.borrowAssetDepositedActive - fromActive } } := by
  simp only [removeWithdrawal, Accumulator.remove, do_ok] at h
  obtain ⟨outgoing, ⟨hout, rfl⟩, yield, ⟨total, ⟨hy, rfl⟩, hyield⟩, paid, ⟨hpaid, rfl⟩, rest₁,
    ⟨hle₁, rfl⟩, g₁, hremove, rest₂, ⟨hle₂, rfl⟩, h⟩ := h
  cases hyield
  obtain ⟨incoming, entries, hio, hes, hine, hene, hiw, hew, rfl⟩ :=
    removeIncoming_eq_ok hremove ho hs (Nat.min_le_left _ _)
  split at h
  · rename_i hzero
    cases h
    exact ⟨_, _, 0, incoming, entries, rfl, rfl, by omega, Nat.zero_le _, Nat.zero_le _, hout, hio,
      hes, hine, hene, hiw, hew, rfl⟩
  · simp only [removeActive, do_ok] at h
    obtain ⟨active, ⟨ha, rfl⟩, market, ⟨hm, rfl⟩, rfl⟩ := h
    exact ⟨_, _, _, incoming, entries, rfl, rfl, by omega, ha, hm, hout, hio, hes, hine, hene, hiw,
      hew, rfl⟩

theorem payWithdrawal_eq_ok (h : g.payWithdrawal amount now = .ok (w, g')) :
    w.accountId = g.accountId ∧ w.amountToAccount + w.amountToFees = amount ∧
      w.amountToAccount ≤ g.market.borrowAssetBalance ∧
      g' = { g with market := { g.market with
        borrowAssetBalance := g.market.borrowAssetBalance - w.amountToAccount
        borrowAssetWithdrawalInFlight := g.market.borrowAssetWithdrawalInFlight + w.amountToAccount
        journal := g.market.journal ++ [.withdrawalStarted w.amountToFees] } } := by
  simp only [payWithdrawal, do_ok] at h
  obtain ⟨startedAt, -, fee, -, f, -, balance, ⟨hb, rfl⟩, inFlight, ⟨-, rfl⟩, rfl, rfl⟩ := h
  exact ⟨rfl, by simp only; omega, hb, rfl⟩

/-- An attempt that starts a withdrawal. -/
theorem recordWithdrawalInitial_withdrawn
    (h : g.recordWithdrawalInitial requested now = .ok (attempt, g'))
    (hw : attempt.withdrawal = some w) (ho : Orderly k k g.position.borrowAssetDeposit.incoming)
    (hs : SingleEntry k g.market.borrowAssetDepositedIncoming) :
    ∃ fromYield fromIncoming fromActive incoming entries,
      g.Withdrawn requested k w fromYield fromIncoming fromActive incoming entries g' := by
  simp only [recordWithdrawalInitial, do_ok] at h
  obtain ⟨myIncoming, hin, deposited, ⟨-, rfl⟩, ent, ⟨-, rfl⟩, h⟩ := h
  have hwaiting := totalOf_eq_ok hin
  rw [Nat.zero_add] at hwaiting
  subst hwaiting
  split at h
  · cases h
    cases hw
  · rename_i hent
    simp only [do_ok] at h
    obtain ⟨funds, ⟨-, rfl⟩, idle, ⟨hidle, rfl⟩, available, ⟨-, rfl⟩, h⟩ := h
    split at h
    · cases h
      cases hw
    · rename_i hcan
      simp only [do_ok] at h
      obtain ⟨g₁, hremove, ⟨w', g₂⟩, hpay, h⟩ := h
      have hres : w' = w ∧ g₂ = g' := by
        split at h
        all_goals
          cases h
          cases hw
          exact ⟨rfl, rfl⟩
      obtain ⟨rfl, rfl⟩ := hres
      obtain ⟨fy, fi, fa, incoming, entries, hfy, hfi, hsum, hfa, hma, hout, hio, hes, hine, hene,
        hiw, hew, rfl⟩ := removeWithdrawal_eq_ok hremove ho hs
      obtain ⟨hacc, hamt, hbal, rfl⟩ := payWithdrawal_eq_ok hpay
      refine ⟨fy, fi, fa, incoming, entries, ?_⟩
      rw [← hamt] at hfy hfi hsum hout ⊢
      exact {
        account := hacc
        amount := hsum
        nonzero := by intro hr; omega
        le_requested := by
          rw [hamt, entitled]
          omega
        borrowed_le := hidle
        le_available := by
          rw [hamt]
          omega
        yield_eq := hfy
        incoming_eq := hfi
        active_le := hfa
        market_active_le := hma
        outgoing_lt := hout
        balance_le := hbal
        orderly := hio
        single := hes
        incoming_ne := hine
        entries_ne := hene
        incoming_waiting := hiw
        entries_waiting := hew
        result := rfl }

/-- An attempt that starts nothing leaves the guard alone. -/
theorem recordWithdrawalInitial_idle
    (h : g.recordWithdrawalInitial requested now = .ok (attempt, g'))
    (hw : attempt.withdrawal = none) : g' = g := by
  simp only [recordWithdrawalInitial, do_ok] at h
  obtain ⟨myIncoming, -, deposited, ⟨-, rfl⟩, ent, ⟨-, rfl⟩, h⟩ := h
  split at h
  · cases h
    rfl
  · simp only [do_ok] at h
    obtain ⟨funds, -, idle, -, available, -, h⟩ := h
    split at h
    · cases h
      rfl
    · simp only [do_ok] at h
      obtain ⟨g₁, -, ⟨w', g₂⟩, -, h⟩ := h
      split at h
      all_goals
        cases h
        cases hw

variable [DecidableEq A]

/-- A transfer that arrived: the fees become yield of the protocol account. -/
theorem recordWithdrawalFinal_success (h : g.recordWithdrawalFinal w true = .ok g') : ∃ record,
      w.amountToAccount + w.amountToFees < 2 ^ 128 ∧
      w.amountToAccount + w.amountToFees ≤ g.position.borrowAssetDeposit.outgoing ∧
      w.amountToAccount ≤ g.market.borrowAssetWithdrawalInFlight ∧
      ((g.market.staticYield.lookup g.market.configuration.protocolAccountId).getD
        (Accumulator.new 1)).addOnce w.amountToFees = .ok record ∧
      g' = { g with
        position := { g.position with
          borrowAssetDeposit := { g.position.borrowAssetDeposit with
            outgoing := g.position.borrowAssetDeposit.outgoing -
              (w.amountToAccount + w.amountToFees) } }
        market := { g.market with
          borrowAssetWithdrawalInFlight :=
            g.market.borrowAssetWithdrawalInFlight - w.amountToAccount
          staticYield :=
            g.market.staticYield.insert g.market.configuration.protocolAccountId record } } := by
  simp only [recordWithdrawalFinal, recordBorrowAssetProtocolYield, ↓reduceIte, do_ok] at h
  obtain ⟨amount, ⟨hlt, rfl⟩, outgoing, ⟨hout, rfl⟩, inFlight, ⟨hin, rfl⟩, market,
    ⟨record, hrecord, hmarket⟩, h⟩ := h
  cases hmarket
  cases h
  exact ⟨record, hlt, hout, hin, hrecord, rfl⟩

/-- A transfer that failed: its amount waits in the position again. -/
theorem recordWithdrawalFinal_failure (h : g.recordWithdrawalFinal w false = .ok g') :
    ∃ incoming entries,
      w.amountToAccount + w.amountToFees < 2 ^ 128 ∧
      w.amountToAccount + w.amountToFees ≤ g.position.borrowAssetDeposit.outgoing ∧
      w.amountToAccount ≤ g.market.borrowAssetWithdrawalInFlight ∧
      g.market.borrowAssetBalance + w.amountToAccount < 2 ^ 128 ∧
      g.market.finalizedSnapshots.length + 1 < 2 ^ 32 ∧
      addToPosition g.position.borrowAssetDeposit.incoming (w.amountToAccount + w.amountToFees)
        (g.market.finalizedSnapshots.length + 1) = .ok incoming ∧
      addToMarket (w.amountToAccount + w.amountToFees) (g.market.finalizedSnapshots.length + 1)
        g.market.borrowAssetDepositedIncoming = .ok entries ∧
      g' = { g with
        position := { g.position with
          borrowAssetDeposit := { g.position.borrowAssetDeposit with
            incoming := incoming
            outgoing := g.position.borrowAssetDeposit.outgoing -
              (w.amountToAccount + w.amountToFees) } }
        market := { g.market with
          borrowAssetWithdrawalInFlight :=
            g.market.borrowAssetWithdrawalInFlight - w.amountToAccount
          borrowAssetBalance := g.market.borrowAssetBalance + w.amountToAccount
          borrowAssetDepositedIncoming := entries
          journal := g.market.journal ++ [.withdrawalFailed w.amountToFees] } } := by
  simp only [recordWithdrawalFinal, addIncoming, snapshotsLen, Bool.false_eq_true,
    ↓reduceIte, do_ok] at h
  obtain ⟨amount, ⟨hlt, rfl⟩, outgoing, ⟨hout, rfl⟩, inFlight, ⟨hin, rfl⟩, balance, ⟨hbal, rfl⟩,
    len, ⟨-, rfl⟩, index, ⟨hidx, rfl⟩, incoming, hp, entries, hm, rfl⟩ := h
  exact ⟨incoming, entries, hlt, hout, hin, hbal, hidx, hp, hm, rfl⟩

end SupplyPositionGuard

/-- A position is removed when it holds nothing and expects nothing. -/
theorem SupplyPosition.canBeRemoved_eq_true {p : SupplyPosition}
    (h : p.canBeRemoved = .ok true) :
    p.borrowAssetDeposit.active = 0 ∧ waiting p.borrowAssetDeposit.incoming = 0 ∧
      p.borrowAssetDeposit.outgoing = 0 ∧ p.borrowAssetYield.total = 0 := by
  simp only [SupplyPosition.canBeRemoved, SupplyPosition.exists', Deposit.total, do_ok] at h
  obtain ⟨present, ⟨total, ⟨sum, ⟨-, rfl⟩, htotal⟩, rfl⟩, hb⟩ := h
  have ht := totalOf_eq_ok htotal
  simp only [Bool.true_eq, ne_eq, decide_not, Bool.not_or, Bool.not_not, Bool.and_eq_true, decide_eq_true_eq] at hb
  omega

namespace Market

variable [DecidableEq A] {m m' : Market A} {accountId : A}

theorem cleanupSupplyPosition_eq_ok {cleaned : Bool}
    (h : m.cleanupSupplyPosition accountId = .ok (cleaned, m')) :
    m' = m ∨ ∃ p, m.supplyPositions.lookup accountId = some p ∧ p.canBeRemoved = .ok true ∧
      m' = { m with supplyPositions := m.supplyPositions.erase accountId } := by
  unfold cleanupSupplyPosition at h
  cases hp : m.supplyPositions.lookup accountId with
  | none =>
    rw [hp] at h
    cases h
    exact Or.inl rfl
  | some p =>
    simp only [hp, do_ok] at h
    obtain ⟨removable, hr, h⟩ := h
    cases removable with
    | false =>
      cases h
      exact Or.inl rfl
    | true =>
      cases h
      exact Or.inr ⟨p, rfl, hr, rfl⟩

end Market

end Templar.Lending
