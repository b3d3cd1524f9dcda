import Templar.Lending.Schedule
import Templar.Lending.Borrow

/-!
# Accrual over finalized snapshots

Suppliers, borrowers and static accounts all accrue in the same way: one pass over the
snapshots they have not seen, from their own next index on. `accrueLoop_invariant` and
`accrueLoop_within` are the rules for such a pass. From them follows what each of the
three accruals writes to the journal: one entry for every snapshot it passes, and none
for any other.
-/

namespace Templar.Lending

open Checked JournalEntry Market

variable {A : Type} {l : List Snapshot} {k prevEnd next time : Nat} {s : Snapshot} {m : Market A}

/-- The snapshot with index `k` and the end of the one before it. -/
structure SnapshotAt (l : List Snapshot) (k : Nat) (s : Snapshot) (prevEnd : Nat) : Prop where
  pos : 1 ≤ k
  current : l[k]? = some s
  previous : ∃ s₀, l[k - 1]? = some s₀ ∧ s₀.endTimestampMs = prevEnd

theorem SnapshotAt.append (h : SnapshotAt l k s prevEnd) (l' : List Snapshot) :
    SnapshotAt (l ++ l') k s prevEnd := by
  obtain ⟨s₀, hs₀, he⟩ := h.previous
  refine ⟨h.pos, ?_, s₀, ?_, he⟩
  · rw [List.getElem?_append_left (List.getElem?_eq_some_iff.mp h.current).1]
    exact h.current
  · rw [List.getElem?_append_left (List.getElem?_eq_some_iff.mp hs₀).1]
    exact hs₀

theorem SnapshotAt.lt (h : SnapshotAt l k s prevEnd) :
    k < l.length := (List.getElem?_eq_some_iff.mp h.current).1

theorem SnapshotAt.unique {s' : Snapshot} {prevEnd' : Nat} (h : SnapshotAt l k s prevEnd)
    (h' : SnapshotAt l k s' prevEnd') : s = s' ∧ prevEnd = prevEnd' := by
  obtain ⟨s₀, hs₀, rfl⟩ := h.previous
  obtain ⟨s₁, hs₁, rfl⟩ := h'.previous
  have hs := h.current.symm.trans h'.current
  have hp := hs₀.symm.trans hs₁
  cases hs
  cases hp
  exact ⟨rfl, rfl⟩

theorem Market.previousEnd_eq_ok (h : m.previousEnd next = .ok prevEnd) :
    1 ≤ next ∧ next ≤ m.finalizedSnapshots.length ∧
      ∃ s₀, m.finalizedSnapshots[next - 1]? = some s₀ ∧ s₀.endTimestampMs = prevEnd := by
  simp only [previousEnd, do_ok, unwrap_eq_ok] at h
  obtain ⟨previous, hp, s₀, hs₀, rfl⟩ := h
  split at hp
  · rename_i hpos
    cases hp
    have hlt := (List.getElem?_eq_some_iff.mp hs₀).1
    exact ⟨hpos, by omega, s₀, hs₀, rfl⟩
  · cases hp

theorem Market.within_previousEnd {E : Panic → Prop} (h₁ : 1 ≤ next)
    (h₂ : next ≤ m.finalizedSnapshots.length) : Within E (m.previousEnd next) := by
  have hlt : next - 1 < m.finalizedSnapshots.length := by omega
  simp only [previousEnd, h₁, ↓reduceIte, unwrap, ok_bind, List.getElem?_eq_getElem hlt]
  exact within_ok _

theorem Market.pendingSnapshots_length (m : Market A) (next limit : Nat) :
    (m.pendingSnapshots next limit).length = min limit (m.finalizedSnapshots.length - next) := by
  simp [pendingSnapshots]

/-- A new market holds nothing and has one empty snapshot. -/
theorem Market.new_eq_ok [DecidableEq A] {configuration : MarketConfiguration A}
    (h : new configuration time = .ok m) : configuration.validate = .ok (.ok ()) ∧
      (∃ duration, configuration.timeChunkConfiguration.durationMs = .ok duration) ∧
      ∃ chunk previous maximumInterest, m = {
        configuration := configuration
        borrowAssetBalance := 0
        borrowAssetDepositedActive := 0
        borrowAssetDepositedIncoming := []
        borrowAssetWithdrawalInFlight := 0
        borrowAssetBorrowedInFlight := 0
        borrowAssetBorrowed := 0
        borrowAssetPaidToFees := 0
        collateralAssetDeposited := 0
        supplyPositions := ∅
        borrowPositions := ∅
        currentTimeChunk := chunk
        currentYieldDistribution := 0
        finalizedSnapshots := [Snapshot.new previous time]
        withdrawalQueue := WithdrawalQueue.new
        staticYield := ∅
        singleSnapshotMaximumInterestPrecomputed := maximumInterest
        journal := [] } := by
  obtain ⟨valid, hvalid, h⟩ := bind_eq_ok.mp h
  cases valid with
  | error e => cases h
  | ok u =>
    simp only [do_ok] at h
    obtain ⟨previous, -, chunk, hchunk, maximumInterest, -, rfl⟩ := h
    obtain ⟨duration, hduration, -⟩ := bind_eq_ok.mp hchunk
    exact ⟨hvalid, ⟨duration, hduration⟩, chunk, previous, maximumInterest, rfl⟩

theorem Market.currentSnapshot_eq_ok (h : m.currentSnapshot time = .ok s) :
    s.endTimestampMs = time ∧
      s.borrowAssetDepositedActive =
        m.borrowAssetDepositedActive + m.incomingAt m.finalizedSnapshots.length ∧
      s.borrowAssetBorrowed = m.borrowAssetBorrowed + m.borrowAssetBorrowedInFlight ∧
      s.borrowAssetBorrowed < 2 ^ 128 := by
  simp only [currentSnapshot, snapshotsLen, borrowed, do_ok] at h
  obtain ⟨len, ⟨-, rfl⟩, active, ⟨-, rfl⟩, borrowed, ⟨hb, rfl⟩, usage, -, rate, -, rfl⟩ := h
  exact ⟨rfl, rfl, rfl, hb⟩

/-- Closing a time chunk finalizes the current snapshot and activates what waited for it. -/
theorem Market.snapshot_eq_ok {m' : Market A} (h : m.snapshot time = .ok m') :
    m' = m ∨ ∃ now s active incoming,
      m.currentSnapshot time = .ok s ∧ m.finalizedSnapshots.length + 1 < 2 ^ 32 ∧
      activateAt (m.finalizedSnapshots.length + 1) m.borrowAssetDepositedActive
        m.borrowAssetDepositedIncoming = .ok (active, incoming) ∧
      m' = { m with
        finalizedSnapshots := m.finalizedSnapshots ++ [s]
        borrowAssetDepositedActive := active
        borrowAssetDepositedIncoming := incoming
        currentTimeChunk := now
        currentYieldDistribution := 0 } := by
  obtain ⟨now, -, h⟩ := bind_eq_ok.mp h
  split at h
  · cases h
    exact Or.inl rfl
  · simp only [snapshotsLen, do_ok] at h
    obtain ⟨s, hs, len, ⟨-, rfl⟩, index, ⟨hlt, rfl⟩, ⟨active, incoming⟩, hact, rfl⟩ := h
    exact Or.inr ⟨now, s, active, incoming, hs, hlt, hact, rfl⟩

section Loop

variable {S : Type} {step : Nat → Snapshot → Nat → S → Outcome S} {limit : Nat} {x : S}

/-- What every step of a pass keeps holds at its end. -/
theorem accrueLoop_invariant (P : Nat → S → Prop)
    (hstep : ∀ k s prevEnd x x', SnapshotAt l k s prevEnd → P k x →
      step k s prevEnd x = .ok x' → P (k + 1) x') {x' : S} (hnext : 1 ≤ next)
    (hprev : ∃ s₀, l[next - 1]? = some s₀ ∧ s₀.endTimestampMs = prevEnd)
    (h : accrueLoop step ((l.drop next).take limit) next prevEnd x = .ok x') (hx : P next x) :
    P (next + ((l.drop next).take limit).length) x' := by
  induction limit generalizing next prevEnd x with
  | zero =>
    cases h
    exact hx
  | succ limit ih =>
    cases hs : l[next]? with
    | none =>
      have hd : l.drop next = [] := List.drop_eq_nil_iff.mpr (List.getElem?_eq_none_iff.mp hs)
      rw [hd] at h ⊢
      cases h
      exact hx
    | some s =>
      have hd : l.drop next = s :: l.drop (next + 1) := by
        rw [List.drop_eq_getElem?_toList_append, hs]
        rfl
      rw [hd, List.take_succ_cons] at h ⊢
      obtain ⟨y, hy, h⟩ := bind_eq_ok.mp h
      have hat : SnapshotAt l next s prevEnd := ⟨hnext, hs, hprev⟩
      have := ih (by omega) ⟨s, hs, rfl⟩ h (hstep _ _ _ _ _ hat hx hy)
      rwa [List.length_cons, Nat.add_comm _ 1, ← Nat.add_assoc]

/-- A pass aborts only for reasons its steps abort for. -/
theorem accrueLoop_within {E : Panic → Prop}
    (hwithin : ∀ k s prevEnd x, SnapshotAt l k s prevEnd → Within E (step k s prevEnd x))
    (hnext : 1 ≤ next) (hprev : ∃ s₀, l[next - 1]? = some s₀ ∧ s₀.endTimestampMs = prevEnd) :
    Within E (accrueLoop step ((l.drop next).take limit) next prevEnd x) := by
  induction limit generalizing next prevEnd x with
  | zero => exact within_ok _
  | succ limit ih =>
    cases hs : l[next]? with
    | none =>
      have hd : l.drop next = [] := List.drop_eq_nil_iff.mpr (List.getElem?_eq_none_iff.mp hs)
      rw [hd]
      exact within_ok _
    | some s =>
      have hd : l.drop next = s :: l.drop (next + 1) := by
        rw [List.drop_eq_getElem?_toList_append, hs]
        rfl
      rw [hd, List.take_succ_cons]
      exact (hwithin _ _ _ _ ⟨hnext, hs, hprev⟩).bind fun y hy => ih (by omega) ⟨s, hs, rfl⟩

end Loop

/-- One account's part in a snapshot: the amount it was computed on and the result. -/
structure Share (A : Type) where
  accountId : A
  amount : Nat
  credit : Nat
  deriving DecidableEq

/-- The shares a journal records for a snapshot, of the kind that `pick` selects. -/
def sharesAt (pick : JournalEntry A → Option (Nat × Share A)) (k : Nat)
    (journal : List (JournalEntry A)) : List (Share A) :=
  journal.filterMap fun e => (pick e).bind fun s => if s.1 = k then some s.2 else none

def JournalEntry.yieldShare : JournalEntry A → Option (Nat × Share A)
  | .yieldCredited accountId k amount credit => some (k, ⟨accountId, amount, credit⟩)
  | _ => none

/-- A static account's share is computed from its weight, not from an amount. -/
def JournalEntry.staticShare : JournalEntry A → Option (Nat × Share A)
  | .staticYieldCredited accountId k credit => some (k, ⟨accountId, 0, credit⟩)
  | _ => none

def JournalEntry.interestShare : JournalEntry A → Option (Nat × Share A)
  | .interestCharged accountId k principal charge => some (k, ⟨accountId, principal, charge⟩)
  | _ => none

section Shares

variable {pick : JournalEntry A → Option (Nat × Share A)}

@[simp] theorem sharesAt_nil : sharesAt pick k [] = [] := rfl

@[simp] theorem sharesAt_append (l₁ l₂ : List (JournalEntry A)) :
    sharesAt pick k (l₁ ++ l₂) = sharesAt pick k l₁ ++ sharesAt pick k l₂ :=
  List.filterMap_append

theorem sharesAt_singleton_of_some {e : JournalEntry A} {i : Nat} {s : Share A}
    (h : pick e = some (i, s)) : sharesAt pick k [e] = if i = k then [s] else [] := by
  by_cases hik : i = k <;> simp [sharesAt, h, hik]

end Shares

/-- The entries of one pass of an account: exactly one share for each snapshot from
`next` on and before `stop`, with the amount and the credit the rule asks for. -/
structure Passed (pick : JournalEntry A → Option (Nat × Share A))
    (accountId : A) (amount : Nat → Nat) (rule : Nat → Nat → Prop) (next stop : Nat)
    (entries : List (JournalEntry A)) : Prop where
  only : ∀ e ∈ entries, ∃ k s, pick e = some (k, s)
  within : ∀ k, next ≤ k → k < stop →
    ∃ credit, sharesAt pick k entries = [⟨accountId, amount k, credit⟩] ∧ rule k credit
  outside : ∀ k, k < next ∨ stop ≤ k → sharesAt pick k entries = []

section Passed

variable {pick : JournalEntry A → Option (Nat × Share A)} {accountId : A}
variable {amount : Nat → Nat} {rule : Nat → Nat → Prop} {stop : Nat}

theorem passed_nil (stop : Nat) : Passed pick accountId amount rule stop stop [] where
  only := by simp
  within := by
    intro k h₁ h₂
    omega
  outside := by simp

theorem Passed.snoc {entries : List (JournalEntry A)} {e : JournalEntry A}
    {credit : Nat} (h : Passed pick accountId amount rule next stop entries) (hle : next ≤ stop)
    (he : pick e = some (stop, ⟨accountId, amount stop, credit⟩)) (hrule : rule stop credit) :
    Passed pick accountId amount rule next (stop + 1) (entries ++ [e]) where
  only := by
    intro e' he'
    rcases List.mem_append.mp he' with h' | h'
    · exact h.only e' h'
    · rw [List.mem_singleton.mp h']
      exact ⟨_, _, he⟩
  within := by
    intro k h₁ h₂
    rw [sharesAt_append, sharesAt_singleton_of_some he]
    by_cases hk : stop = k
    · subst hk
      rw [h.outside stop (Or.inr (Nat.le_refl _)), if_pos rfl]
      exact ⟨credit, rfl, hrule⟩
    · rw [if_neg hk, List.append_nil]
      exact h.within k h₁ (by omega)
  outside := by
    intro k hk
    rw [sharesAt_append, sharesAt_singleton_of_some he, h.outside k (by omega), if_neg (by omega)]
    rfl

end Passed

variable (m : Market A)

/-- The credit of a supply position for a snapshot, as the code computes it. -/
def YieldRule (amount : Nat → Nat) (k credit : Nat) : Prop :=
  ∃ s prevEnd, SnapshotAt m.finalizedSnapshots k s prevEnd ∧
    (s.borrowAssetDepositedActive = 0 ∧ credit = 0 ∨
      s.borrowAssetDepositedActive ≠ 0 ∧ ∃ weight d, m.configuration.yieldWeights.totalWeight = .ok weight ∧
        s.yieldFor prevEnd (amount k) m.configuration.yieldWeights.supply weight = .ok d ∧
        d.repr = credit)

/-- The credit of a static account for a snapshot, as the code computes it. -/
def StaticYieldRule (numerator k credit : Nat) : Prop :=
  ∃ s prevEnd interest yield weighted d denominator,
    SnapshotAt m.finalizedSnapshots k s prevEnd ∧
      m.configuration.yieldWeights.totalWeight = .ok denominator ∧
      s.interestPaidByBorrowers prevEnd = .ok interest ∧
      interest.add (Decimal.ofUInt s.yieldDistribution) = .ok yield ∧
      yield.mulInt numerator = .ok weighted ∧ weighted.divInt denominator = .ok d ∧ d.repr = credit

/-- The charge of a borrow position for a snapshot, as the code computes it. -/
def InterestRule (principal k charge : Nat) : Prop :=
  ∃ s prevEnd d, SnapshotAt m.finalizedSnapshots k s prevEnd ∧
    s.interestOn principal prevEnd = .ok d ∧ d.repr = charge

section Passes

variable {m : Market A} {limit : Nat} {accountId : A} {x x' : Decimal × List (JournalEntry A)}

/-- What the state of the yield calculation holds before snapshot `k`. -/
structure YieldState.Sound (m : Market A) (accountId : A) (active hi next : Nat)
    (incoming : List IncomingDeposit) (k : Nat) (x : YieldState A) : Prop where
  le : next ≤ k
  orderly : Orderly k hi x.incoming
  same : ∀ j, k ≤ j → activeAt j x.amount x.incoming = activeAt j active incoming
  passed : Passed yieldShare accountId (fun j => activeAt j active incoming)
    (YieldRule m fun j => activeAt j active incoming) next k x.entries

theorem yieldStep_sound {active hi weight : Nat} {incoming : List IncomingDeposit}
    {x x' : YieldState A} (hweight : m.configuration.yieldWeights.totalWeight = .ok weight)
    (hat : SnapshotAt m.finalizedSnapshots k s prevEnd)
    (hx : x.Sound m accountId active hi next incoming k)
    (h : yieldStep accountId m.configuration.yieldWeights.supply weight k s prevEnd x = .ok x') :
    x'.Sound m accountId active hi next incoming (k + 1) := by
  obtain ⟨⟨amount, rest⟩, htake, h⟩ := bind_eq_ok.mp h
  obtain ⟨horderly, hactive⟩ := takeIncoming_eq_ok htake hx.orderly
  have hkeep : ∀ j, k + 1 ≤ j → activeAt j amount rest = activeAt j active incoming := by
    intro j hj
    rw [hactive j (by omega), hx.same j (by omega)]
  have hamount : amount = activeAt k active incoming := by
    rw [← hx.same k (Nat.le_refl _), ← hactive k (Nat.le_refl _), horderly.activeAt_of_lt (by omega)]
  have hle : next ≤ k + 1 := Nat.le_succ_of_le hx.le
  simp only at h
  split at h
  · rename_i hz
    cases h
    have hrule : YieldRule m (fun j => activeAt j active incoming) k 0 :=
      ⟨s, prevEnd, hat, Or.inl ⟨hz, rfl⟩⟩
    exact ⟨hle, horderly, hkeep, hx.passed.snoc hx.le (by rw [hamount, yieldShare]) hrule⟩
  · rename_i hnz
    simp only [do_ok] at h
    obtain ⟨d, hd, accumulated, -, rfl⟩ := h
    rw [hamount] at hd
    have hrule : YieldRule m (fun j => activeAt j active incoming) k d.repr :=
      ⟨s, prevEnd, hat, Or.inr ⟨hnz, weight, d, hweight, hd, rfl⟩⟩
    exact ⟨hle, horderly, hkeep, hx.passed.snoc hx.le (by rw [hamount, yieldShare]) hrule⟩

end Passes

end Templar.Lending
