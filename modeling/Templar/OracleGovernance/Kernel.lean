import Mathlib.Data.List.Basic
import Templar.Lib.Checked

/-!
# The governance kernel of the proxy oracle

A ledger of pending proposals: the next id, the ids that are pending, and the timelocks of
the runtime. The bodies of the proposals are kept by the runtime, which hands the right one
back for an execution.

What `TryFrom` checks when a ledger is read are fields of `Governance`; the operations keep
them. The number of pending ids saturates at `u32::MAX` before it is compared with the
maximum, which is a `u32` itself, so the comparison is that of the numbers.
-/

namespace Templar.OracleGovernance

open Checked List

structure Proposal (Operation A : Type) where
  operation : Operation
  createdAt : Nat
  ttl : Nat
  createdBy : A
  deriving DecidableEq

def Proposal.canExecute {Operation A : Type} (p : Proposal Operation A) (now : Nat) : Bool :=
  p.ttl ≤ now - p.createdAt

structure UncheckedGovernance (Ttls : Type) where
  nextId : Nat
  activeIds : List Nat
  ttls : Ttls
  maxPendingProposals : Nat
  deriving DecidableEq

/-- Ids wait in order, below the next one, and not too many. -/
structure Governance (Ttls : Type) extends UncheckedGovernance Ttls where
  length_le : activeIds.length ≤ maxPendingProposals
  ordered : activeIds.Pairwise (· < ·)
  inRange : ∀ id ∈ activeIds, id < nextId
  deriving DecidableEq

inductive CreateError (E : Type) where
  | idOutOfOrder (expected actual : Nat)
  | idOverflow
  | tooManyPendingProposals
  | validation (error : E)
  deriving DecidableEq

inductive PendingLookupError where
  | idOutOfBounds (exclusiveMaximum actual : Nat)
  | proposalDoesNotExist (id : Nat)
  deriving DecidableEq

inductive CancelError where
  | idOutOfBounds (exclusiveMaximum actual : Nat)
  | proposalDoesNotExist (id : Nat)
  deriving DecidableEq

inductive ExecuteError (E : Type) where
  | idOutOfBounds (exclusiveMaximum actual : Nat)
  | proposalDoesNotExist (id : Nat)
  | ttlNotElapsed (id now createdAt ttl : Nat)
  | validation (error : E)
  deriving DecidableEq

def PendingLookupError.toCancel : PendingLookupError → CancelError
  | .idOutOfBounds exclusiveMaximum actual => .idOutOfBounds exclusiveMaximum actual
  | .proposalDoesNotExist id => .proposalDoesNotExist id

def PendingLookupError.toExecute {E : Type} : PendingLookupError → ExecuteError E
  | .idOutOfBounds exclusiveMaximum actual => .idOutOfBounds exclusiveMaximum actual
  | .proposalDoesNotExist id => .proposalDoesNotExist id

/-- What a runtime says about its operations. -/
class OperationPolicy (Operation Ttls : Type) (E : outParam Type) where
  minimumTtl : Operation → Ttls → Nat
  validateOnCreate : Operation → Except E Unit
  validateOnExecute : Operation → Except E Unit

namespace Governance

variable {Ttls : Type}

def new (ttls : Ttls) (maxPendingProposals : Nat) : Governance Ttls where
  nextId := 0
  activeIds := []
  ttls := ttls
  maxPendingProposals := maxPendingProposals
  length_le := Nat.zero_le _
  ordered := .nil
  inRange := by simp

variable (g : Governance Ttls)

/-- The ledger with its next id pending. -/
def reserve (h : g.activeIds.length < g.maxPendingProposals) : Governance Ttls where
  nextId := g.nextId + 1
  activeIds := g.activeIds ++ [g.nextId]
  ttls := g.ttls
  maxPendingProposals := g.maxPendingProposals
  length_le := by
    rw [length_append]
    exact h
  ordered := by
    rw [pairwise_append]
    refine ⟨g.ordered, pairwise_singleton _ _, fun a ha b hb => ?_⟩
    rw [mem_singleton.mp hb]
    exact g.inRange a ha
  inRange := by
    intro id hid
    rcases mem_append.mp hid with hid | hid
    · exact Nat.lt_succ_of_lt (g.inRange id hid)
    · exact Nat.lt_succ_of_le (mem_singleton.mp hid).le

/-- The ledger without the id at a position. -/
def removeAt (index : Nat) : Governance Ttls where
  nextId := g.nextId
  activeIds := g.activeIds.eraseIdx index
  ttls := g.ttls
  maxPendingProposals := g.maxPendingProposals
  length_le := (eraseIdx_sublist _ _).length_le.trans g.length_le
  ordered := g.ordered.sublist (eraseIdx_sublist _ _)
  inRange id hid := g.inRange id ((eraseIdx_sublist _ _).subset hid)

def setTtls (ttls : Ttls) : Governance Ttls := { g with ttls := ttls }

def pendingIndex (id : Nat) : Except PendingLookupError Nat :=
  if g.nextId ≤ id then .error (.idOutOfBounds g.nextId id)
  else okOr (g.activeIds.idxOf? id) (.proposalDoesNotExist id)

def cancel (id : Nat) : Except CancelError (Governance Ttls) := do
  let index ← (g.pendingIndex id).mapError PendingLookupError.toCancel
  .ok (g.removeAt index)

variable {Operation A E : Type} [OperationPolicy Operation Ttls E]

/-- The least lock, or the longer one that is asked for. -/
def create (g : Governance Ttls) (id : Nat) (operation : Operation) (now : Nat)
    (createdBy : A) (requestedTtl : Nat) :
    Except (CreateError E) (Proposal Operation A × Governance Ttls) :=
  if id ≠ g.nextId then .error (.idOutOfOrder g.nextId id)
  else if hfull : g.maxPendingProposals ≤ g.activeIds.length then
    .error .tooManyPendingProposals
  else do
    (OperationPolicy.validateOnCreate Ttls operation).mapError .validation
    let ttl := max (OperationPolicy.minimumTtl operation g.ttls) requestedTtl
    let _ ← okOr (checkedAdd 64 g.nextId 1) .idOverflow
    .ok (⟨operation, now, ttl, createdBy⟩, g.reserve (Nat.not_le.mp hfull))

/-- A proposal is executed once its lock has passed. -/
def execute (g : Governance Ttls) (id : Nat) (proposal : Proposal Operation A)
    (now : Nat) : Except (ExecuteError E) (Governance Ttls) := do
  let index ← (g.pendingIndex id).mapError PendingLookupError.toExecute
  (OperationPolicy.validateOnExecute Ttls proposal.operation).mapError .validation
  ensure (proposal.canExecute now) (.ttlNotElapsed id now proposal.createdAt proposal.ttl)
  .ok (g.removeAt index)

theorem pendingIndex_eq_ok {g : Governance Ttls} {id index : Nat}
    (h : g.pendingIndex id = .ok index) : id ∈ g.activeIds ∧ index = g.activeIds.idxOf id := by
  unfold pendingIndex at h
  split at h
  · cases h
  · rw [okOr_eq_ok, idxOf?, findIdx?_eq_some_iff_findIdx_eq] at h
    obtain ⟨hlt, rfl⟩ := h
    exact ⟨idxOf_lt_length_iff.mp hlt, rfl⟩

theorem mem_removeAt (g : Governance Ttls) (id other : Nat) :
    other ∈ (g.removeAt (g.activeIds.idxOf id)).activeIds ↔ other ≠ id ∧ other ∈ g.activeIds := by
  show other ∈ g.activeIds.eraseIdx (g.activeIds.idxOf id) ↔ _
  rw [eraseIdx_idxOf_eq_erase]
  exact List.Nodup.mem_erase_iff (g.ordered.imp Nat.ne_of_lt)

theorem cancel_eq_ok {g g' : Governance Ttls} {id : Nat} (h : g.cancel id = .ok g') :
    id ∈ g.activeIds ∧ g' = g.removeAt (g.activeIds.idxOf id) := by
  unfold cancel at h
  simp only [do_ok] at h
  obtain ⟨index, hindex, h⟩ := h
  obtain ⟨hmem, rfl⟩ := pendingIndex_eq_ok hindex
  cases h
  exact ⟨hmem, rfl⟩

/-- A proposal that is created waits at least as long as its operation needs. -/
theorem create_eq_ok {g g' : Governance Ttls} {id now requestedTtl : Nat} {operation : Operation}
    {createdBy : A} {p : Proposal Operation A}
    (h : g.create id operation now createdBy requestedTtl = .ok (p, g')) :
    id = g.nextId ∧ OperationPolicy.validateOnCreate Ttls operation = .ok () ∧
      p = ⟨operation, now, max (OperationPolicy.minimumTtl operation g.ttls) requestedTtl,
        createdBy⟩ ∧
      ∃ hfree, g' = g.reserve hfree := by
  unfold create at h
  split at h
  · cases h
  next hid =>
  split at h
  · cases h
  simp only [do_ok] at h
  obtain ⟨hvalid, _, -, rfl, rfl⟩ := h
  exact ⟨not_not.mp hid, hvalid, rfl, _, rfl⟩

theorem execute_eq_ok {g g' : Governance Ttls} {id now : Nat} {p : Proposal Operation A}
    (h : g.execute id p now = .ok g') :
    id ∈ g.activeIds ∧ p.ttl ≤ now - p.createdAt ∧ g' = g.removeAt (g.activeIds.idxOf id) := by
  unfold execute at h
  simp only [do_ok, Proposal.canExecute, decide_eq_true_eq] at h
  obtain ⟨index, hindex, -, hmature, h⟩ := h
  obtain ⟨hmem, rfl⟩ := pendingIndex_eq_ok hindex
  cases h
  exact ⟨hmem, hmature, rfl⟩

end Governance

end Templar.OracleGovernance
