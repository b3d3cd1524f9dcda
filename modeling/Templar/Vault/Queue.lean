import Mathlib.Algebra.BigOperators.Group.List.Basic
import Mathlib.Data.List.Pairwise
import Templar.Vault.Number

/-!
# The withdrawal queue

Requests wait under increasing ids. `PendingWithdrawals` is a vector sorted by id, so its
binary search finds the one entry with an id, and an insertion puts the entry between the
smaller and the larger ids. The queue remembers the id to execute next, the id to give out
next, and running totals of the escrowed shares and the expected assets.

`WithdrawQueue.Wf` says that the two ids and the totals agree with the entries. A queue
that is well formed behaves as a plain list: its head is the first entry, a request is
appended, and dequeueing drops the first entry without aborting.
-/

namespace Templar.Vault

open Checked List

variable {A : Type}

structure PendingWithdrawal (A : Type) where
  owner : A
  receiver : A
  escrowShares : Nat
  expectedAssets : Nat
  requestedAtNs : Nat
  deriving DecidableEq, Repr

structure EscrowSettlement where
  toBurn : Nat
  refund : Nat
  deriving DecidableEq, Repr

def EscrowSettlement.burnAll (shares : Nat) : EscrowSettlement := ⟨shares, 0⟩

def EscrowSettlement.refundAll (shares : Nat) : EscrowSettlement := ⟨0, shares⟩

structure WithdrawalResult where
  assetsOut : Nat
  settlement : EscrowSettlement
  deriving DecidableEq, Repr

def computeSettlement (escrowShares expectedAssets actualAssets : Nat) : EscrowSettlement :=
  if escrowShares = 0 then ⟨0, 0⟩
  else if actualAssets = 0 then .refundAll escrowShares
  else if expectedAssets = 0 then .refundAll escrowShares
  else if expectedAssets ≤ actualAssets then .burnAll escrowShares
  else
    let sharesToBurn :=
      Number.asU128Trunc (Number.mulDivCeil escrowShares actualAssets expectedAssets)
    ⟨sharesToBurn, escrowShares - sharesToBurn⟩

def computeIdleSettlement (escrowShares expectedAssets availableAssets : Nat) :
    Option WithdrawalResult :=
  if expectedAssets = 0 then
    some ⟨0, if 0 < availableAssets then .burnAll escrowShares else .refundAll escrowShares⟩
  else if expectedAssets ≤ availableAssets then some ⟨expectedAssets, .burnAll escrowShares⟩
  else if availableAssets = 0 then none
  else some ⟨availableAssets, computeSettlement escrowShares expectedAssets availableAssets⟩

def isPastCooldown (requestedAtNs nowNs cooldownNs : Nat) : Bool :=
  decide (saturatingAdd 64 requestedAtNs cooldownNs ≤ nowNs)

structure PendingWithdrawals (A : Type) where
  entries : List (Nat × PendingWithdrawal A)
  sorted : entries.Pairwise (fun e f => e.1 < f.1)

namespace PendingWithdrawals

def new : PendingWithdrawals A := ⟨[], .nil⟩

variable (p : PendingWithdrawals A)

def len : Nat := p.entries.length

def isEmpty (p : PendingWithdrawals A) : Bool := p.entries.isEmpty

def get (id : Nat) : Option (PendingWithdrawal A) :=
  (p.entries.find? (fun e => e.1 = id)).map Prod.snd

def containsKey (id : Nat) : Bool := (p.get id).isSome

/-- An entry that is present is replaced where it stands. -/
def insert (id : Nat) (withdrawal : PendingWithdrawal A) : PendingWithdrawals A where
  entries := p.entries.filter (fun e => e.1 < id) ++ (id, withdrawal) ::
    p.entries.filter (fun e => id < e.1)
  sorted := by
    refine pairwise_append.mpr ⟨p.sorted.filter _, pairwise_cons.mpr ⟨?_, p.sorted.filter _⟩, ?_⟩
    · intro e he
      simpa using (mem_filter.mp he).2
    · intro e he f hf
      have hlow : e.1 < id := by simpa using (mem_filter.mp he).2
      rcases mem_cons.mp hf with rfl | hf
      · exact hlow
      · have hhigh : id < f.1 := by simpa using (mem_filter.mp hf).2
        exact hlow.trans hhigh

def remove (id : Nat) : PendingWithdrawals A :=
  ⟨p.entries.filter (fun e => e.1 ≠ id), p.sorted.filter _⟩

def firstKey : Option Nat := p.entries.head?.map Prod.fst

/-- Removing the smallest id drops the first entry. -/
theorem entries_remove_first {p : PendingWithdrawals A} {id : Nat} {w : PendingWithdrawal A}
    {rest : List (Nat × PendingWithdrawal A)} (h : p.entries = (id, w) :: rest) :
    (p.remove id).entries = rest := by
  have hsorted := p.sorted
  rw [h, pairwise_cons] at hsorted
  change p.entries.filter _ = rest
  rw [h, filter_cons_of_neg (by simp)]
  apply filter_eq_self.mpr
  intro e he
  have hlt : id < e.1 := hsorted.1 e he
  simp only [ne_eq, decide_eq_true_eq]
  omega

/-- An id larger than all others goes to the end. -/
theorem entries_insert_last {p : PendingWithdrawals A} {id : Nat} (w : PendingWithdrawal A)
    (h : ∀ e ∈ p.entries, e.1 < id) : (p.insert id w).entries = p.entries ++ [(id, w)] := by
  change p.entries.filter _ ++ (id, w) :: p.entries.filter _ = _
  have hlow : p.entries.filter (fun e => e.1 < id) = p.entries := by
    apply filter_eq_self.mpr
    intro e he
    simpa using h e he
  have hhigh : p.entries.filter (fun e => id < e.1) = [] := by
    apply filter_eq_nil_iff.mpr
    intro e he
    have hlt := h e he
    simp only [decide_eq_true_eq]
    omega
  rw [hlow, hhigh]

end PendingWithdrawals

def maxPending : Nat := 1024

structure WithdrawQueue (A : Type) where
  pendingWithdrawals : PendingWithdrawals A
  nextWithdrawToExecute : Nat
  nextPendingWithdrawalId : Nat
  cachedTotalEscrow : Nat
  cachedTotalExpected : Nat

inductive QueueError where
  | queueFull (current max : Nat)
  | withdrawalNotFound (id : Nat)
  | queueEmpty
  | invariantViolation (message : String)
  | cacheOverflow
  deriving DecidableEq, Repr

/-- Both totals of the entries, each stopping at the largest machine word. -/
def computePendingTotals (entries : List (Nat × PendingWithdrawal A)) : Nat × Nat :=
  entries.foldl (fun t e =>
    (saturatingAdd 128 t.1 e.2.escrowShares, saturatingAdd 128 t.2 e.2.expectedAssets)) (0, 0)

namespace WithdrawQueue

def new : WithdrawQueue A := ⟨.new, 0, 0, 0, 0⟩

variable (q : WithdrawQueue A)

def entries : List (Nat × PendingWithdrawal A) := q.pendingWithdrawals.entries

def len : Nat := q.pendingWithdrawals.len

def isEmpty : Bool := q.pendingWithdrawals.isEmpty

def canEnqueue (max : Nat) : Bool := decide (q.pendingWithdrawals.len < min max maxPending)

def enqueueWithdrawal (withdrawal : PendingWithdrawal A) (max : Nat) :
    Except QueueError (Nat × WithdrawQueue A) := do
  ensure (q.canEnqueue max = true) (.queueFull (q.pendingWithdrawals.len % 2 ^ 32) max)
  let id := q.nextPendingWithdrawalId
  let nextId ← okOr (checkedAdd 64 id 1) (.invariantViolation "next_pending_withdrawal_id overflow")
  -- the totals are computed first, so that a failure changes nothing
  let newEscrow ← okOr (checkedAdd 128 q.cachedTotalEscrow withdrawal.escrowShares) .cacheOverflow
  let newExpected ← okOr (checkedAdd 128 q.cachedTotalExpected withdrawal.expectedAssets) .cacheOverflow
  return (id, { q with
    pendingWithdrawals := q.pendingWithdrawals.insert id withdrawal
    nextPendingWithdrawalId := nextId
    cachedTotalEscrow := newEscrow
    cachedTotalExpected := newExpected })

def enqueue (owner receiver : A) (escrowShares expectedAssets requestedAtNs max : Nat) :
    Except QueueError (Nat × WithdrawQueue A) :=
  q.enqueueWithdrawal ⟨owner, receiver, escrowShares, expectedAssets, requestedAtNs⟩ max

def head : Option (Nat × PendingWithdrawal A) :=
  (q.pendingWithdrawals.get q.nextWithdrawToExecute).map (fun w => (q.nextWithdrawToExecute, w))

/-- The head and the queue without it. Nothing changes when there is no head to take. -/
def dequeue : Outcome (Option (Nat × PendingWithdrawal A) × WithdrawQueue A) :=
  if q.isEmpty then .ok (none, q)
  else
    match q.pendingWithdrawals.get q.nextWithdrawToExecute with
    | none => .ok (none, q)
    | some withdrawal => do
      let rest := q.pendingWithdrawals.remove q.nextWithdrawToExecute
      let escrow ← sub q.cachedTotalEscrow withdrawal.escrowShares
      let expected ← sub q.cachedTotalExpected withdrawal.expectedAssets
      return (some (q.nextWithdrawToExecute, withdrawal), { q with
        pendingWithdrawals := rest
        nextWithdrawToExecute := rest.firstKey.getD q.nextPendingWithdrawalId
        cachedTotalEscrow := escrow
        cachedTotalExpected := expected })

def checkInvariants : Bool :=
  if q.nextPendingWithdrawalId < q.nextWithdrawToExecute then false
  else if !q.isEmpty && !q.pendingWithdrawals.containsKey q.nextWithdrawToExecute then false
  else
    let totals := computePendingTotals q.entries
    if q.cachedTotalEscrow ≠ totals.1 then false
    else if q.cachedTotalExpected ≠ totals.2 then false
    else true

def checkInvariantsWithMax (max : Nat) : Bool :=
  if !q.checkInvariants then false
  else if max < q.len ∨ maxPending < max then false
  else true

/-- The shares held for a list of entries. -/
def escrowOf (entries : List (Nat × PendingWithdrawal A)) : Nat :=
  (entries.map (fun e => e.2.escrowShares)).sum

def expectedOf (entries : List (Nat × PendingWithdrawal A)) : Nat :=
  (entries.map (fun e => e.2.expectedAssets)).sum

@[simp] theorem escrowOf_cons (e : Nat × PendingWithdrawal A)
    (l : List (Nat × PendingWithdrawal A)) :
    escrowOf (e :: l) = e.2.escrowShares + escrowOf l := rfl

@[simp] theorem expectedOf_cons (e : Nat × PendingWithdrawal A)
    (l : List (Nat × PendingWithdrawal A)) :
    expectedOf (e :: l) = e.2.expectedAssets + expectedOf l := rfl

theorem escrowOf_append_singleton (l : List (Nat × PendingWithdrawal A))
    (e : Nat × PendingWithdrawal A) :
    escrowOf (l ++ [e]) = escrowOf l + e.2.escrowShares := by
  simp [escrowOf]

theorem expectedOf_append_singleton (l : List (Nat × PendingWithdrawal A))
    (e : Nat × PendingWithdrawal A) :
    expectedOf (l ++ [e]) = expectedOf l + e.2.expectedAssets := by
  simp [expectedOf]

/-- The ids and the totals agree with the entries. -/
structure Wf (q : WithdrawQueue A) : Prop where
  next : q.nextWithdrawToExecute = q.pendingWithdrawals.firstKey.getD q.nextPendingWithdrawalId
  ids : ∀ e ∈ q.entries, e.1 < q.nextPendingWithdrawalId
  escrow : q.cachedTotalEscrow = escrowOf q.entries
  expected : q.cachedTotalExpected = expectedOf q.entries
  escrow_lt : escrowOf q.entries < 2 ^ 128
  expected_lt : expectedOf q.entries < 2 ^ 128

theorem Wf.of_new : (new : WithdrawQueue A).Wf := by
  refine ⟨rfl, ?_, rfl, rfl, ?_, ?_⟩
  · intro e he
    cases he
  · exact Nat.two_pow_pos 128
  · exact Nat.two_pow_pos 128

/-- Saturation does not show while the true totals fit. -/
theorem computePendingTotals_eq (entries : List (Nat × PendingWithdrawal A))
    (he : escrowOf entries < 2 ^ 128) (hx : expectedOf entries < 2 ^ 128) :
    computePendingTotals entries = (escrowOf entries, expectedOf entries) := by
  have key : ∀ (l : List (Nat × PendingWithdrawal A)) (a b : Nat),
      a + escrowOf l < 2 ^ 128 → b + expectedOf l < 2 ^ 128 →
      l.foldl (fun t e => (saturatingAdd 128 t.1 e.2.escrowShares,
        saturatingAdd 128 t.2 e.2.expectedAssets)) (a, b) = (a + escrowOf l, b + expectedOf l) := by
    intro l
    induction l with
    | nil =>
      intro a b _ _
      rfl
    | cons e l ih =>
      intro a b ha hb
      rw [escrowOf_cons] at ha
      rw [expectedOf_cons] at hb
      rw [foldl_cons, saturatingAdd_of_lt (by omega), saturatingAdd_of_lt (by omega),
        ih _ _ (by omega) (by omega), escrowOf_cons, expectedOf_cons, Nat.add_assoc, Nat.add_assoc]
  have h := key entries 0 0 (by omega) (by omega)
  rw [Nat.zero_add, Nat.zero_add] at h
  exact h

namespace Wf

variable {q q' : WithdrawQueue A} {id : Nat} {w : PendingWithdrawal A}
  {rest : List (Nat × PendingWithdrawal A)}

theorem next_of_cons (h : q.Wf) (he : q.entries = (id, w) :: rest) :
    q.nextWithdrawToExecute = id := by
  have hk : q.pendingWithdrawals.entries = (id, w) :: rest := he
  rw [h.next, PendingWithdrawals.firstKey, hk]
  rfl

theorem get_of_cons (h : q.Wf) (he : q.entries = (id, w) :: rest) :
    q.pendingWithdrawals.get q.nextWithdrawToExecute = some w := by
  have hk : q.pendingWithdrawals.entries = (id, w) :: rest := he
  rw [h.next_of_cons he, PendingWithdrawals.get, hk]
  simp

/-- The head is the first entry. -/
theorem head_eq (h : q.Wf) : q.head = q.entries.head? := by
  cases he : q.entries with
  | nil =>
    have hk : q.pendingWithdrawals.entries = [] := he
    simp [head, PendingWithdrawals.get, hk]
  | cons e rest =>
    obtain ⟨id, w⟩ := e
    rw [head, h.get_of_cons he, h.next_of_cons he]
    rfl

theorem entries_of_head (h : q.Wf) (hh : q.head = some (id, w)) :
    ∃ rest, q.entries = (id, w) :: rest := by
  rw [h.head_eq] at hh
  cases he : q.entries with
  | nil =>
    rw [he] at hh
    cases hh
  | cons e rest =>
    rw [he] at hh
    cases hh
    exact ⟨rest, rfl⟩

theorem checkInvariants (h : q.Wf) : q.checkInvariants = true := by
  have hle : q.nextWithdrawToExecute ≤ q.nextPendingWithdrawalId := by
    cases he : q.entries with
    | nil =>
      have hk : q.pendingWithdrawals.entries = [] := he
      rw [h.next, PendingWithdrawals.firstKey, hk]
      exact Nat.le_refl _
    | cons e rest =>
      rw [h.next_of_cons he]
      exact (h.ids e (by rw [he]; exact mem_cons_self ..)).le
  have hhead : (!q.isEmpty && !q.pendingWithdrawals.containsKey q.nextWithdrawToExecute) = false := by
    cases he : q.entries with
    | nil =>
      have hk : q.pendingWithdrawals.entries = [] := he
      simp [isEmpty, PendingWithdrawals.isEmpty, hk]
    | cons e rest =>
      simp [PendingWithdrawals.containsKey, h.get_of_cons he]
  unfold WithdrawQueue.checkInvariants
  rw [if_neg (by omega), hhead, computePendingTotals_eq _ h.escrow_lt h.expected_lt]
  simp [h.escrow, h.expected]

/-- Dropping the head never aborts, and leaves the rest. -/
theorem dequeue_of_cons (h : q.Wf) (he : q.entries = (id, w) :: rest) :
    ∃ q', q.dequeue = .ok (some (id, w), q') ∧ q'.entries = rest ∧ q'.Wf ∧
      q'.nextPendingWithdrawalId = q.nextPendingWithdrawalId := by
  have hk : q.pendingWithdrawals.entries = (id, w) :: rest := he
  have hrest : (q.pendingWithdrawals.remove id).entries = rest :=
    PendingWithdrawals.entries_remove_first he
  have hescrow := h.escrow
  have hexpected := h.expected
  have hescrow_lt := h.escrow_lt
  have hexpected_lt := h.expected_lt
  rw [he, escrowOf_cons] at hescrow hescrow_lt
  rw [he, expectedOf_cons] at hexpected hexpected_lt
  have hempty : q.isEmpty = false := by simp [isEmpty, PendingWithdrawals.isEmpty, hk]
  have hd : q.dequeue = .ok (some (id, w), { q with
      pendingWithdrawals := q.pendingWithdrawals.remove id
      nextWithdrawToExecute :=
        (q.pendingWithdrawals.remove id).firstKey.getD q.nextPendingWithdrawalId
      cachedTotalEscrow := q.cachedTotalEscrow - w.escrowShares
      cachedTotalExpected := q.cachedTotalExpected - w.expectedAssets }) := by
    have hs₁ : sub q.cachedTotalEscrow w.escrowShares = .ok (q.cachedTotalEscrow - w.escrowShares) :=
      sub_eq_ok.mpr ⟨by simp only at hescrow; omega, rfl⟩
    have hs₂ : sub q.cachedTotalExpected w.expectedAssets =
        .ok (q.cachedTotalExpected - w.expectedAssets) :=
      sub_eq_ok.mpr ⟨by simp only at hexpected; omega, rfl⟩
    rw [dequeue, hempty, h.get_of_cons he, h.next_of_cons he]
    simp only [Bool.false_eq_true, ↓reduceIte, hs₁, hs₂, ok_bind]
    rfl
  refine ⟨_, hd, hrest, ?_, rfl⟩
  refine ⟨rfl, ?_, ?_, ?_, ?_, ?_⟩
  · intro e hmem
    simp only [entries] at hmem
    rw [hrest] at hmem
    exact h.ids e (by rw [he]; exact mem_cons_of_mem _ hmem)
  · simp only [entries, hrest]
    simp only at hescrow
    omega
  · simp only [entries, hrest]
    simp only at hexpected
    omega
  · simp only [entries, hrest]
    omega
  · simp only [entries, hrest]
    omega

/-- Taking a request out issues no number. -/
theorem nextPending_of_dequeue {o : Option (Nat × PendingWithdrawal A)}
    (h : q.Wf) (hq : q.dequeue = .ok (o, q')) :
    q'.nextPendingWithdrawalId = q.nextPendingWithdrawalId := by
  cases he : q.entries with
  | nil =>
    have hempty : q.isEmpty = true := by
      change q.entries.isEmpty = true
      rw [he]
      rfl
    rw [dequeue, if_pos hempty] at hq
    cases hq
    rfl
  | cons e rest =>
    obtain ⟨q'', hq'', -, -, hnext⟩ := h.dequeue_of_cons he
    cases hq.symm.trans hq''
    exact hnext

/-- What leaves the queue was its first entry. -/
theorem entries_of_dequeue (h : q.Wf) (hq : q.dequeue = .ok (some (id, w), q')) :
    q.entries = (id, w) :: q'.entries := by
  cases he : q.entries with
  | nil =>
    have hempty : q.isEmpty = true := by
      change q.entries.isEmpty = true
      rw [he]
      rfl
    rw [dequeue, if_pos hempty] at hq
    cases hq
  | cons e rest =>
    obtain ⟨q'', hq'', hrest, -⟩ := h.dequeue_of_cons he
    cases hq.symm.trans hq''
    rw [hrest]

/-- An accepted request stands at the end under the id given out. -/
theorem enqueue_eq_ok (h : q.Wf) {max : Nat} (hq : q.enqueueWithdrawal w max = .ok (id, q')) :
    q.len < max ∧ q.len < maxPending ∧ id = q.nextPendingWithdrawalId ∧
      q'.entries = q.entries ++ [(id, w)] ∧ q'.Wf ∧ q'.nextPendingWithdrawalId = id + 1 := by
  simp only [enqueueWithdrawal, do_ok] at hq
  obtain ⟨hroom, next, ⟨-, rfl⟩, escrow, ⟨hescrow, rfl⟩, expected, ⟨hexpected, rfl⟩, rfl, rfl⟩ := hq
  have hmin : q.len < min max maxPending := by
    rw [canEnqueue, decide_eq_true_eq] at hroom
    exact hroom
  have hentries := PendingWithdrawals.entries_insert_last w h.ids
  refine ⟨by omega, by omega, rfl, hentries, ?_, rfl⟩
  refine ⟨?_, ?_, ?_, ?_, ?_, ?_⟩
  · -- the head moves only when the queue was empty
    simp only [PendingWithdrawals.firstKey, hentries]
    rw [h.next, PendingWithdrawals.firstKey]
    cases q.pendingWithdrawals.entries <;> rfl
  · intro e he
    simp only [entries, hentries] at he
    rcases mem_append.mp he with he | he
    · exact (h.ids e he).trans (Nat.lt_succ_self _)
    · cases mem_singleton.mp he
      exact Nat.lt_succ_self _
  · simp only [entries, hentries, escrowOf_append_singleton]
    rw [h.escrow]
    rfl
  · simp only [entries, hentries, expectedOf_append_singleton]
    rw [h.expected]
    rfl
  · simp only [entries, hentries, escrowOf_append_singleton]
    rw [h.escrow] at hescrow
    exact hescrow
  · simp only [entries, hentries, expectedOf_append_singleton]
    rw [h.expected] at hexpected
    exact hexpected

end Wf

end WithdrawQueue

end Templar.Vault
