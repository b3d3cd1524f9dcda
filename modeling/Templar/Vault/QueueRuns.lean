import Templar.Lib.Fifo
import Templar.Lib.Line
import Templar.Lib.Places
import Templar.Lib.Search
import Templar.Vault.Queue

/-!
# The withdrawal queue is a line with numbered tickets

The abstract queue is a line whose tickets are the ids. A call that the queue refuses leaves the
line alone, an accepted request joins it, and dequeueing lets the first one leave. Started from
the new queue, every run of the queue gives the answers of the line and never aborts.

The entries are a sorted vector searched by halving; `locate` is that search, and reading,
inserting and removing are what it says about the place it finds.
-/

namespace Templar.Vault

open Checked List

variable {A : Type}

namespace PendingWithdrawals

variable {p : PendingWithdrawals A} {id i : Nat} {l₁ l₂ : List (Nat × PendingWithdrawal A)}

def locate (p : PendingWithdrawals A) (id : Nat) : Except Nat Nat :=
  binarySearch (p.entries.map Prod.fst) id

theorem keys_sorted (p : PendingWithdrawals A) : (p.entries.map Prod.fst).Pairwise (· < ·) :=
  pairwise_map.mpr p.sorted

/-- The entry that is found, between the smaller ids and the larger ones. -/
theorem split_of_locate (h : p.locate id = .ok i) :
    ∃ l₁ w l₂, p.entries = l₁ ++ (id, w) :: l₂ ∧ p.entries[i]? = some (id, w) ∧
      p.entries.eraseIdx i = l₁ ++ l₂ ∧ (∀ e, p.entries.set i e = l₁ ++ e :: l₂) ∧
      (∀ e ∈ l₁, e.1 < id) ∧ ∀ e ∈ l₂, id < e.1 := by
  have hkey := binarySearch_spec p.keys_sorted id
  rw [show binarySearch _ id = _ from h] at hkey
  dsimp only at hkey
  rw [getElem?_map, Option.map_eq_some_iff] at hkey
  obtain ⟨⟨id', w⟩, hentry, rfl⟩ := hkey
  obtain ⟨l₁, l₂, hsplit, herase, hset⟩ := exists_split hentry
  have hsorted := p.sorted
  rw [hsplit, pairwise_append, pairwise_cons] at hsorted
  obtain ⟨-, ⟨hlarger, -⟩, hcross⟩ := hsorted
  exact ⟨l₁, w, l₂, hsplit, hentry, herase, hset,
    fun e he => hcross e he _ (mem_cons_self ..), hlarger⟩

/-- The place for an id that is not there. -/
theorem split_of_locate_error (h : p.locate id = .error i) :
    (∀ e ∈ p.entries.take i, e.1 < id) ∧ ∀ e ∈ p.entries.drop i, id < e.1 := by
  have hplace := binarySearch_spec p.keys_sorted id
  rw [show binarySearch _ id = _ from h] at hplace
  obtain ⟨hle, hlow, hhigh⟩ := hplace
  rw [length_map] at hle hhigh
  constructor
  · intro e he
    obtain ⟨j, hj, rfl⟩ := mem_take_iff_getElem.mp he
    have hkey := hlow j (by omega)
    rwa [getD_eq_getElem _ _ (by rw [length_map]; omega), getElem_map] at hkey
  · intro e he
    obtain ⟨j, hj, rfl⟩ := mem_drop_iff_getElem.mp he
    have hkey := hhigh (i + j) (by omega) (by omega)
    rwa [getD_eq_getElem _ _ (by rw [length_map]; omega), getElem_map] at hkey

/-- Between the smaller ids and the larger ones stands the entry of the id, or nothing. -/
theorem acts_between {l : List (Nat × PendingWithdrawal A)} (hsplit : p.entries = l₁ ++ (l ++ l₂))
    (hlow : ∀ e ∈ l₁, e.1 < id) (hat : ∀ e ∈ l, e.1 = id) (hhigh : ∀ e ∈ l₂, id < e.1) :
    p.get id = l.head?.map Prod.snd ∧ (p.remove id).entries = l₁ ++ l₂ ∧
      ∀ w, (p.insert id w).entries = l₁ ++ (id, w) :: l₂ := by
  have hne₁ : ∀ e ∈ l₁, e.1 ≠ id := fun e he => (hlow e he).ne
  have hne₂ : ∀ e ∈ l₂, e.1 ≠ id := fun e he => (hhigh e he).ne'
  refine ⟨?_, ?_, fun w => ?_⟩
  · rw [get, hsplit, find?_append, find?_eq_none.mpr (by simpa using hne₁), Option.none_or]
    cases l with
    | nil => rw [nil_append, find?_eq_none.mpr (by simpa using hne₂), head?_nil]
    | cons e l => rw [cons_append, find?_cons_of_pos (by simpa using hat e), head?_cons]
  · change p.entries.filter _ = _
    rw [hsplit, filter_append, filter_append, filter_eq_self.mpr (by simpa using hne₁),
      filter_eq_nil_iff.mpr (by simpa using hat), filter_eq_self.mpr (by simpa using hne₂), nil_append]
  · have hlt : p.entries.filter (fun e => e.1 < id) = l₁ := by
      rw [hsplit, filter_append, filter_eq_self.mpr (by simpa using hlow), filter_eq_nil_iff.mpr,
        append_nil]
      intro e he
      simpa using (mem_append.mp he).elim (fun h => (hat e h).ge) fun h => (hhigh e h).le
    have hgt : p.entries.filter (fun e => id < e.1) = l₂ := by
      rw [hsplit, ← append_assoc, filter_append, filter_eq_nil_iff.mpr,
        filter_eq_self.mpr (by simpa using hhigh), nil_append]
      intro e he
      simpa using (mem_append.mp he).elim (fun h => (hlow e h).le) fun h => (hat e h).le
    change p.entries.filter _ ++ (id, w) :: p.entries.filter _ = _
    rw [hlt, hgt]

/-- Reading, inserting and removing act on the place that the search finds. -/
theorem locate_spec (p : PendingWithdrawals A) (id : Nat) :
    match p.locate id with
    | .ok i => p.get id = p.entries[i]?.map Prod.snd ∧
        (p.remove id).entries = p.entries.eraseIdx i ∧
        ∀ w, (p.insert id w).entries = p.entries.set i (id, w)
    | .error i => p.get id = none ∧ (p.remove id).entries = p.entries ∧
        ∀ w, (p.insert id w).entries = p.entries.take i ++ (id, w) :: p.entries.drop i := by
  cases h : p.locate id with
  | ok i =>
    obtain ⟨l₁, w, l₂, hsplit, hentry, herase, hset, hlow, hhigh⟩ := split_of_locate h
    simp only [hentry, herase, hset]
    exact acts_between (l := [(id, w)]) hsplit hlow (by simp) hhigh
  | error i =>
    obtain ⟨hlow, hhigh⟩ := split_of_locate_error h
    have hsplit := take_append_drop i p.entries
    have hacts := acts_between (l := []) hsplit.symm hlow (by simp) hhigh
    rwa [hsplit] at hacts

end PendingWithdrawals

inductive QueueCall (A : Type) where
  | enqueue (withdrawal : PendingWithdrawal A) (max : Nat)
  | dequeue

inductive QueueAnswer (A : Type) where
  | enqueued (id : Nat)
  | refused (error : QueueError)
  | dequeued (head : Option (Nat × PendingWithdrawal A))
  deriving DecidableEq, Repr

def WithdrawQueue.apply (q : WithdrawQueue A) :
    QueueCall A → Outcome (QueueAnswer A × WithdrawQueue A)
  | .enqueue withdrawal max =>
    match q.enqueueWithdrawal withdrawal max with
    | .ok (id, q) => .ok (.enqueued id, q)
    | .error error => .ok (.refused error, q)
  | .dequeue => do
    let (head, q) ← q.dequeue
    return (.dequeued head, q)

def WithdrawQueue.run (q : WithdrawQueue A) :
    List (QueueCall A) → Outcome (List (QueueAnswer A) × WithdrawQueue A)
  | [] => .ok ([], q)
  | call :: rest => do
    let (answer, q) ← q.apply call
    let (answers, q) ← q.run rest
    return (answer :: answers, q)

abbrev WithdrawLine (A : Type) := Line (PendingWithdrawal A)

namespace WithdrawLine

variable (l : WithdrawLine A)

def escrow : Nat := (l.waiting.map PendingWithdrawal.escrowShares).sum

def expected : Nat := (l.waiting.map PendingWithdrawal.expectedAssets).sum

/-- Why a request cannot join the line: it is too long, or a ticket or a total would not fit its
machine word. -/
def refusal (withdrawal : PendingWithdrawal A) (max : Nat) : Option QueueError :=
  if min max maxPending ≤ l.waiting.length then
    some (.queueFull (l.waiting.length % 2 ^ 32) max)
  else if 2 ^ 64 ≤ l.next + 1 then some (.invariantViolation "next_pending_withdrawal_id overflow")
  else if 2 ^ 128 ≤ l.escrow + withdrawal.escrowShares then some .cacheOverflow
  else if 2 ^ 128 ≤ l.expected + withdrawal.expectedAssets then some .cacheOverflow
  else none

def apply : QueueCall A → QueueAnswer A × WithdrawLine A
  | .enqueue withdrawal max =>
    match l.refusal withdrawal max with
    | some error => (.refused error, l)
    | none => (.enqueued l.next, l.join withdrawal)
  | .dequeue => (.dequeued l.tickets.head?, l.leave)

def run (l : WithdrawLine A) : List (QueueCall A) → List (QueueAnswer A) × WithdrawLine A
  | [] => ([], l)
  | call :: rest =>
    let (answer, l) := l.apply call
    let (answers, l) := run l rest
    (answer :: answers, l)

end WithdrawLine

/-- The queue holds the tickets of the line in order, and every stored number is the line's. -/
structure WithdrawQueue.Represents (q : WithdrawQueue A) (l : WithdrawLine A) : Prop where
  entries : q.entries = l.tickets
  first : q.nextWithdrawToExecute = l.first
  next : q.nextPendingWithdrawalId = l.next
  escrow : q.cachedTotalEscrow = l.escrow
  expected : q.cachedTotalExpected = l.expected

namespace WithdrawQueue

variable {q : WithdrawQueue A} {l : WithdrawLine A} {w : PendingWithdrawal A}

/-- The totals are machine words. -/
structure Fits (l : WithdrawLine A) : Prop where
  escrow : l.escrow < 2 ^ 128
  expected : l.expected < 2 ^ 128

theorem escrowOf_tickets (l : WithdrawLine A) : escrowOf l.tickets = l.escrow := by
  have h := Line.map_snd_numbered l.first l.waiting
  rw [escrowOf, WithdrawLine.escrow, ← h, map_map]
  rfl

theorem expectedOf_tickets (l : WithdrawLine A) : expectedOf l.tickets = l.expected := by
  have h := Line.map_snd_numbered l.first l.waiting
  rw [expectedOf, WithdrawLine.expected, ← h, map_map]
  rfl

theorem Represents.wf (h : q.Represents l) (hf : Fits l) : q.Wf where
  next := by
    rw [h.first, h.next, PendingWithdrawals.firstKey]
    change l.first = (q.entries.head?.map Prod.fst).getD l.next
    rw [h.entries]
    unfold Line.tickets Line.next
    cases l.waiting with
    | nil => rfl
    | cons w rest => rfl
  ids e he := by
    rw [h.entries] at he
    rw [h.next]
    exact Line.lt_next_of_mem he
  escrow := by rw [h.entries, escrowOf_tickets, h.escrow]
  expected := by rw [h.entries, expectedOf_tickets, h.expected]
  escrow_lt := by
    rw [h.entries, escrowOf_tickets]
    exact hf.escrow
  expected_lt := by
    rw [h.entries, expectedOf_tickets]
    exact hf.expected

theorem Represents.len (h : q.Represents l) : q.len = l.waiting.length := by
  change q.entries.length = l.waiting.length
  rw [h.entries, ← length_map (f := Prod.snd), Line.tickets, Line.map_snd_numbered]

theorem represents_new : (new : WithdrawQueue A).Represents Line.empty := ⟨rfl, rfl, rfl, rfl, rfl⟩

/-- The checks of the queue are those of the line. -/
theorem enqueueWithdrawal_eq (h : q.Represents l) (w : PendingWithdrawal A) (max : Nat) :
    q.enqueueWithdrawal w max =
      match l.refusal w max with
      | some error => .error error
      | none => .ok (l.next, { q with
          pendingWithdrawals := q.pendingWithdrawals.insert l.next w
          nextPendingWithdrawalId := l.next + 1
          cachedTotalEscrow := l.escrow + w.escrowShares
          cachedTotalExpected := l.expected + w.expectedAssets }) := by
  have hlen : q.pendingWithdrawals.len = l.waiting.length := h.len
  unfold enqueueWithdrawal WithdrawLine.refusal
  rw [canEnqueue, hlen, h.next, h.escrow, h.expected]
  dsimp only
  by_cases hroom : min max maxPending ≤ l.waiting.length
  · have hfull : ¬ decide (l.waiting.length < min max maxPending) = true := by
      rw [decide_eq_true_eq]
      omega
    rw [if_pos hroom, ensure_of_not hfull]
    rfl
  rw [if_neg hroom, ensure_of (decide_eq_true (Nat.lt_of_not_le hroom))]
  by_cases hid : 2 ^ 64 ≤ l.next + 1
  · rw [if_pos hid, okOr_checkedAdd_of_le hid]
    rfl
  rw [if_neg hid, okOr_checkedAdd (Nat.lt_of_not_le hid)]
  by_cases hescrow : 2 ^ 128 ≤ l.escrow + w.escrowShares
  · rw [if_pos hescrow, okOr_checkedAdd_of_le hescrow]
    rfl
  rw [if_neg hescrow, okOr_checkedAdd (Nat.lt_of_not_le hescrow)]
  by_cases hexpected : 2 ^ 128 ≤ l.expected + w.expectedAssets
  · rw [if_pos hexpected, okOr_checkedAdd_of_le hexpected]
    rfl
  · rw [if_neg hexpected, okOr_checkedAdd (Nat.lt_of_not_le hexpected)]
    rfl

theorem room_of_refusal {max : Nat} (h : l.refusal w max = none) :
    l.waiting.length < min max maxPending ∧ l.escrow + w.escrowShares < 2 ^ 128 ∧
      l.expected + w.expectedAssets < 2 ^ 128 := by
  unfold WithdrawLine.refusal at h
  split at h
  · cases h
  split at h
  · cases h
  split at h
  · cases h
  split at h
  · cases h
  · exact ⟨by omega, by omega, by omega⟩

theorem Represents.join (h : q.Represents l) (hf : Fits l) : ({ q with
      pendingWithdrawals := q.pendingWithdrawals.insert l.next w
      nextPendingWithdrawalId := l.next + 1
      cachedTotalEscrow := l.escrow + w.escrowShares
      cachedTotalExpected := l.expected + w.expectedAssets } : WithdrawQueue A).Represents
        (l.join w) where
  entries := by
    have hids := (h.wf hf).ids
    rw [h.next] at hids
    rw [Line.tickets_join, ← h.entries]
    exact PendingWithdrawals.entries_insert_last w hids
  first := h.first
  next := (Line.next_join l w).symm
  escrow := by simp [WithdrawLine.escrow, Line.join]
  expected := by simp [WithdrawLine.expected, Line.join]

/-- Dequeueing never aborts. -/
theorem Represents.dequeue (h : q.Represents l) (hf : Fits l) :
    ∃ q', q.dequeue = .ok (l.tickets.head?, q') ∧ q'.Represents l.leave ∧ Fits l.leave := by
  have hwf := h.wf hf
  cases hl : l.waiting with
  | nil =>
    have htickets : l.tickets = [] := by rw [Line.tickets, hl]; rfl
    have hempty : q.isEmpty = true := by
      change q.entries.isEmpty = true
      rw [h.entries, htickets]
      rfl
    have hleave : l.leave = l := by rw [Line.leave, hl]
    rw [hleave, htickets]
    refine ⟨q, ?_, h, hf⟩
    rw [WithdrawQueue.dequeue, if_pos hempty]
    rfl
  | cons w rest =>
    have htickets : l.tickets = (l.first, w) :: l.leave.tickets := by
      rw [Line.tickets_leave, Line.tickets, hl]
      rfl
    have hleave : l.leave = ⟨l.first + 1, rest⟩ := by rw [Line.leave, hl]
    obtain ⟨q', hd, hrest, hwf', hnext⟩ := hwf.dequeue_of_cons (h.entries.trans htickets)
    have hfits : Fits l.leave := by
      have hescrow := hwf'.escrow_lt
      have hexpected := hwf'.expected_lt
      rw [hrest, escrowOf_tickets] at hescrow
      rw [hrest, expectedOf_tickets] at hexpected
      exact ⟨hescrow, hexpected⟩
    refine ⟨q', by rw [htickets]; exact hd, ⟨hrest, ?_, ?_, ?_, ?_⟩, hfits⟩
    · -- the new head is the next ticket, or the one still to be given out
      have hlast : q'.nextPendingWithdrawalId = l.leave.next := by
        rw [hnext, h.next, Line.next_leave]
      have hhead : q'.pendingWithdrawals.firstKey = l.leave.tickets.head?.map Prod.fst := by
        rw [← hrest]
        rfl
      rw [hwf'.next, hlast, hhead, hleave]
      cases rest with
      | nil => rfl
      | cons w' rest => rfl
    · rw [hnext, h.next, Line.next_leave]
    · rw [hwf'.escrow, hrest, escrowOf_tickets]
    · rw [hwf'.expected, hrest, expectedOf_tickets]

/-- One call answers as the line does. -/
theorem Represents.apply (h : q.Represents l) (hf : Fits l) (call : QueueCall A) :
    ∃ q', q.apply call = .ok ((WithdrawLine.apply l call).1, q') ∧
      q'.Represents (WithdrawLine.apply l call).2 ∧ Fits (WithdrawLine.apply l call).2 := by
  cases call with
  | enqueue w max =>
    simp only [WithdrawQueue.apply, WithdrawLine.apply, enqueueWithdrawal_eq h w max]
    cases href : l.refusal w max with
    | some error => exact ⟨q, rfl, h, hf⟩
    | none =>
      obtain ⟨-, hescrow, hexpected⟩ := room_of_refusal href
      refine ⟨_, rfl, h.join hf, ?_, ?_⟩
      · simpa [WithdrawLine.escrow, Line.join] using hescrow
      · simpa [WithdrawLine.expected, Line.join] using hexpected
  | dequeue =>
    obtain ⟨q', hd, hrep, hfits⟩ := h.dequeue hf
    exact ⟨q', by rw [WithdrawQueue.apply, hd]; rfl, hrep, hfits⟩

theorem Represents.run (h : q.Represents l) (hf : Fits l) (calls : List (QueueCall A)) :
    ∃ q', q.run calls = .ok ((WithdrawLine.run l calls).1, q') ∧
      q'.Represents (WithdrawLine.run l calls).2 ∧ Fits (WithdrawLine.run l calls).2 := by
  induction calls generalizing q l with
  | nil => exact ⟨q, rfl, h, hf⟩
  | cons call rest ih =>
    obtain ⟨q₁, hcall, hrep, hfits⟩ := h.apply hf call
    obtain ⟨q₂, hrest, hrep'⟩ := ih hrep hfits
    refine ⟨q₂, ?_, hrep'⟩
    rw [WithdrawQueue.run, hcall, ok_bind]
    dsimp only
    rw [hrest]
    rfl

end WithdrawQueue

namespace QueueAnswer

/-- The ids that were given out. -/
def issued : List (QueueAnswer A) → List Nat
  | [] => []
  | .enqueued id :: rest => id :: issued rest
  | .refused _ :: rest => issued rest
  | .dequeued _ :: rest => issued rest

end QueueAnswer

/-- The room that the last accepted request was given, or what there was before. -/
def lastRoom (before : Nat) : List (QueueCall A) → List (QueueAnswer A) → Nat
  | .enqueue _ max :: calls, .enqueued _ :: answers => lastRoom (min max maxPending) calls answers
  | _ :: calls, _ :: answers => lastRoom before calls answers
  | _, _ => before

namespace WithdrawLine

open QueueAnswer

variable {l : WithdrawLine A}

/-- Tickets are given out in increasing order, and none that is in the line already. -/
theorem issued_run (l : WithdrawLine A) (calls : List (QueueCall A)) :
    (∀ id ∈ issued (run l calls).1, l.next ≤ id) ∧ (issued (run l calls).1).Pairwise (· < ·) := by
  induction calls generalizing l with
  | nil => exact ⟨by simp [run, issued], .nil⟩
  | cons call rest ih =>
    cases call with
    | enqueue w max =>
      cases href : l.refusal w max with
      | some error =>
        simp only [run, apply, href, issued]
        exact ih l
      | none =>
        obtain ⟨hle, hpair⟩ := ih (l.join w)
        rw [Line.next_join] at hle
        simp only [run, apply, href, issued, mem_cons, pairwise_cons]
        refine ⟨?_, fun id hid => hle id hid, hpair⟩
        rintro id (rfl | hid)
        · exact Nat.le_refl _
        · exact (Nat.le_succ _).trans (hle id hid)
    | dequeue =>
      simp only [run, apply, issued]
      rw [← Line.next_leave l]
      exact ih l.leave

theorem length_run (calls : List (QueueCall A)) {room : Nat} (h : l.waiting.length ≤ room) :
    (run l calls).2.waiting.length ≤ lastRoom room calls (run l calls).1 := by
  induction calls generalizing l room with
  | nil => exact h
  | cons call rest ih =>
    cases call with
    | enqueue w max =>
      cases href : l.refusal w max with
      | some error =>
        simp only [run, apply, href, lastRoom]
        exact ih h
      | none =>
        obtain ⟨hroom, -⟩ := WithdrawQueue.room_of_refusal href
        simp only [run, apply, href, lastRoom]
        refine ih ?_
        simp only [Line.join, length_append, length_singleton]
        omega
    | dequeue =>
      simp only [run, apply, lastRoom]
      exact ih ((Line.length_leave_le l).trans h)

end WithdrawLine

/-- Every run of the queue from the new one answers as the line of numbered tickets does, and
never aborts. The queue then holds the tickets of the line in order, its ids are consecutive, its
head is the first ticket and its totals are the sums; no ticket was given out twice, and the line
is no longer than the last accepted request allowed. -/
theorem withdrawQueue_refines_line (calls : List (QueueCall A)) :
    ∃ q l answers, WithdrawLine.run (Line.empty : WithdrawLine A) calls = (answers, l) ∧
      (WithdrawQueue.new : WithdrawQueue A).run calls = .ok (answers, q) ∧
      q.entries = l.tickets ∧
      q.entries.map Prod.fst = range' q.nextWithdrawToExecute q.len ∧
      q.nextWithdrawToExecute + q.len = q.nextPendingWithdrawalId ∧
      q.head = l.tickets.head? ∧
      q.cachedTotalEscrow = (q.entries.map (fun e => e.2.escrowShares)).sum ∧
      q.cachedTotalExpected = (q.entries.map (fun e => e.2.expectedAssets)).sum ∧
      (QueueAnswer.issued answers).Pairwise (· < ·) ∧ q.len ≤ lastRoom 0 calls answers ∧
      ∀ w max error q', q.apply (.enqueue w max) = .ok (.refused error, q') → q' = q := by
  have hfits : WithdrawQueue.Fits (Line.empty : WithdrawLine A) :=
    ⟨Nat.two_pow_pos 128, Nat.two_pow_pos 128⟩
  obtain ⟨q, hrun, hrep, hfits'⟩ := WithdrawQueue.represents_new.run hfits calls
  obtain ⟨-, hissued⟩ := WithdrawLine.issued_run (Line.empty : WithdrawLine A) calls
  have hroom := WithdrawLine.length_run (l := (Line.empty : WithdrawLine A)) calls (Nat.le_refl 0)
  have hwf := hrep.wf hfits'
  refine ⟨q, _, _, rfl, hrun, hrep.entries, ?_, ?_, ?_, hwf.escrow, hwf.expected, hissued, ?_, ?_⟩
  · rw [hrep.entries, hrep.first, hrep.len]
    exact Line.map_fst_numbered _ _
  · rw [hrep.first, hrep.next, hrep.len]
    rfl
  · rw [hwf.head_eq, hrep.entries]
  · rw [hrep.len]
    exact hroom
  · intro w max error q' happly
    simp only [WithdrawQueue.apply] at happly
    split at happly
    · cases happly
    · cases happly
      rfl

end Templar.Vault
