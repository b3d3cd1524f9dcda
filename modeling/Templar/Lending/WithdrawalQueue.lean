import Templar.Lib.Checked
import Templar.Lib.Table
import Templar.Lib.Chain
import Templar.Lib.Fifo

/-!
# The supply withdrawal queue

A doubly linked list spread over two maps: nodes by identifier and identifiers by
account, next to a head, a tail and a length. The five agree on one duplicate-free
list of requests in order of arrival; the operations act on it as on the abstract
queue, and no lookup the code takes for granted fails.
-/

namespace Templar.Lending

open Checked

structure QueueNode (A : Type) where
  accountId : A
  amount : Nat
  prev : Option Nat
  next : Option Nat

structure WithdrawalQueue (A : Type) where
  length : Nat
  nextQueueNodeId : Nat
  queue : Table Nat (QueueNode A)
  queueHead : Option Nat
  queueTail : Option Nat
  entries : Table A Nat

structure WithdrawalRequestStatus where
  index : Nat
  depth : Nat
  amount : Nat
  deriving DecidableEq, Repr

structure WithdrawalQueueStatus where
  depth : Nat
  length : Nat
  deriving DecidableEq, Repr

namespace WithdrawalQueue

variable {A : Type} {T : Type}

def new : WithdrawalQueue A := ⟨0, 1, ∅, none, none, ∅⟩

variable (q : WithdrawalQueue A)

def len : Nat := q.length

def isEmpty : Bool := q.length = 0

def inconsistentState : String := "Inconsistent state"

def existingNode (nodeId : Nat) : Outcome (QueueNode A) :=
  expect inconsistentState (q.queue.lookup nodeId)

def mutExistingNode (nodeId : Nat)
    (f : QueueNode A → T × QueueNode A) : Outcome (T × WithdrawalQueue A) := do
  let node ← q.existingNode nodeId
  let (r, node) := f node
  .ok (r, { q with queue := q.queue.insert nodeId node })

def setExistingNodeNext (nodeId : Nat) (next : Option Nat) : Outcome (WithdrawalQueue A) := do
  let node ← q.existingNode nodeId
  .ok { q with queue := q.queue.insert nodeId { node with next := next } }

def setExistingNodePrev (nodeId : Nat) (prev : Option Nat) : Outcome (WithdrawalQueue A) := do
  let node ← q.existingNode nodeId
  .ok { q with queue := q.queue.insert nodeId { node with prev := prev } }

def peek : Outcome (Option (A × Nat)) :=
  match q.queueHead with
  | some nodeId => do
    let node ← q.existingNode nodeId
    .ok (some (node.accountId, node.amount))
  | none => .ok none

def mutHead (f : Nat → T × Nat) : Outcome (Option T × WithdrawalQueue A) :=
  match q.queueHead with
  | some nodeId => do
    let (r, q) ← q.mutExistingNode nodeId fun node =>
      ((f node.amount).1, { node with amount := (f node.amount).2 })
    .ok (some r, q)
  | none => .ok (none, q)

variable [DecidableEq A]

def get (accountId : A) : Option Nat :=
  ((q.entries.lookup accountId).bind q.queue.lookup).map QueueNode.amount

def contains (accountId : A) : Bool := (q.entries.lookup accountId).isSome

/-- Mends the link back to a removed node, or the tail when it was the last. -/
def unlinkNext (next prev : Option Nat) : Outcome (WithdrawalQueue A) :=
  match next with
  | some nextId => q.setExistingNodePrev nextId prev
  | none => .ok { q with queueTail := prev }

/-- Mends the link forward to a removed node, or the head when it was the first. -/
def unlinkPrev (prev next : Option Nat) : Outcome (WithdrawalQueue A) :=
  match prev with
  | some prevId => q.setExistingNodeNext prevId next
  | none => .ok { q with queueHead := next }

def pop : Outcome (Option (A × Nat) × WithdrawalQueue A) :=
  match q.queueHead with
  | some nodeId => do
    let node ← q.existingNode nodeId
    let q := { q with queue := q.queue.erase nodeId, queueHead := node.next }
    let q ← q.unlinkNext node.next none
    let length ← sub q.length 1
    .ok (some (node.accountId, node.amount),
      { q with entries := q.entries.erase node.accountId, length := length })
  | none => .ok (none, q)

def remove (accountId : A) : Outcome (Option Nat × WithdrawalQueue A) :=
  match q.entries.lookup accountId with
  | some nodeId => do
    let q := { q with entries := q.entries.erase accountId }
    let node ← q.existingNode nodeId
    let q := { q with queue := q.queue.erase nodeId }
    let q ← q.unlinkNext node.next node.prev
    let q ← q.unlinkPrev node.prev node.next
    let length ← sub q.length 1
    .ok (some node.amount, { q with length := length })
  | none => .ok (none, q)

def linkTail (nodeId : Nat) : Outcome (WithdrawalQueue A) :=
  match q.queueTail with
  | some tailId => q.setExistingNodeNext tailId (some nodeId)
  | none => .ok q

/-- A new account takes the next identifier; running out of identifiers aborts. -/
def insertNew (accountId : A) (amount : Nat) : Outcome (WithdrawalQueue A) := do
  let nodeId := q.nextQueueNodeId
  let nextId ← unwrap (if nodeId + 1 < 2 ^ 32 then some (nodeId + 1) else none)
  let q ← { q with nextQueueNodeId := nextId }.linkTail nodeId
  let length ← add 32 q.length 1
  .ok { q with
    queueHead := if q.queueHead.isNone then some nodeId else q.queueHead
    queueTail := some nodeId
    queue := q.queue.insert nodeId ⟨accountId, amount, q.queueTail, none⟩
    entries := q.entries.insert accountId nodeId
    length := length }

def insertOrUpdate (accountId : A) (amount : Nat) : Outcome (WithdrawalQueue A) :=
  match q.entries.lookup accountId with
  | some nodeId => do
    let (_, q) ← q.mutExistingNode nodeId fun node => ((), { node with amount := amount })
    .ok q
  | none => q.insertNew accountId amount

omit [DecidableEq A] in
/-- The iterator run for a number of calls: what it listed, if it came to an end. -/
def iterFrom (q : WithdrawalQueue A) : Nat → Option Nat → Outcome (Option (List (A × Nat)))
  | _, none => .ok (some [])
  | 0, some _ => .ok none
  | calls + 1, some nodeId => do
    let node ← q.existingNode nodeId
    let rest ← q.iterFrom calls node.next
    .ok (rest.map ((node.accountId, node.amount) :: ·))

def iter (calls : Nat) : Outcome (Option (List (A × Nat))) := q.iterFrom calls q.queueHead

omit [DecidableEq A] in
def depthLoop (q : WithdrawalQueue A) : Nat → Option Nat → Nat → Outcome (Option Nat)
  | _, none, depth => .ok (some depth)
  | 0, some _, _ => .ok none
  | calls + 1, some nodeId, depth => do
    let node ← q.existingNode nodeId
    let depth ← add 128 depth node.amount
    q.depthLoop calls node.next depth

def getStatus (calls : Nat) : Outcome (Option WithdrawalQueueStatus) := do
  let depth ← q.depthLoop calls q.queueHead 0
  .ok (depth.map fun depth => ⟨depth, q.len⟩)

def unreachableText : String := "internal error: entered unreachable code"

def requestStatusLoop (q : WithdrawalQueue A) (accountId : A) :
    Nat → Option Nat → Nat → Nat → Outcome (Option WithdrawalRequestStatus)
  | _, none, _, _ => .error (.message unreachableText)
  | 0, some _, _, _ => .ok none
  | calls + 1, some nodeId, index, depth => do
    let node ← q.existingNode nodeId
    if node.accountId = accountId then .ok (some ⟨index % 2 ^ 32, depth, node.amount⟩)
    else
      let depth ← add 128 depth node.amount
      q.requestStatusLoop accountId calls node.next (index + 1) depth

/-- The outer option is the number of iterator calls running out, the inner one the
account not being queued. -/
def getRequestStatus (calls : Nat) (accountId : A) :
    Outcome (Option (Option WithdrawalRequestStatus)) :=
  if q.contains accountId then do
    let status ← q.requestStatusLoop accountId calls q.queueHead 0 0
    .ok (status.map some)
  else .ok (some none)

end WithdrawalQueue

end Templar.Lending
