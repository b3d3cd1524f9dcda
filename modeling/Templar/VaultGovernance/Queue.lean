import Templar.Lib.Pages
import Templar.VaultGovernance.Contract

/-!
# The queue of proposals and its pages

Every change of the queue rewrites the pages of the proposals that wait and drops the pages
that have become empty. `loadQueue_saveQueue` is the only fact about pages that the rest needs:
what is read back is what was written, page by page. `Waiting` is the order that every call
keeps the queue in.
-/

namespace Templar.VaultGovernance

open Checked Curator SorobanVault List

variable {A σ : Type} {pages : List Nat}

theorem mem_pushUniquePage {page p : Nat} :
    p ∈ pushUniquePage pages page ↔ p ∈ pages ∨ p = page := by
  unfold pushUniquePage
  split
  · next hmem =>
    constructor
    · exact .inl
    · rintro (hp | rfl)
      · exact hp
      · exact hmem
  · simp

theorem nodup_pushUniquePage (h : pages.Nodup) (page : Nat) :
    (pushUniquePage pages page).Nodup := by
  unfold pushUniquePage
  split
  · exact h
  · next hnot =>
    rw [nodup_append]
    refine ⟨h, nodup_singleton page, ?_⟩
    intro a ha b hb hab
    rw [mem_singleton.mp hb] at hab
    exact hnot (hab ▸ ha)

namespace Governance

/-- The page that an entry of the queue is stored on. -/
def pageOf (entry : PendingValue (QueuedProposal A)) : Nat := pendingPageId entry.value.id

theorem queuePages_spec (queue : PendingActions (QueuedProposal A)) :
    (queuePages queue).Nodup ∧ ∀ page, page ∈ queuePages queue ↔ ∃ e ∈ queue, pageOf e = page := by
  suffices ∀ (queue : PendingActions (QueuedProposal A)) (pages : List Nat), pages.Nodup →
      (queue.foldl (fun pages e => pushUniquePage pages (pageOf e)) pages).Nodup ∧
      ∀ page, page ∈ queue.foldl (fun pages e => pushUniquePage pages (pageOf e)) pages ↔
        page ∈ pages ∨ ∃ e ∈ queue, pageOf e = page by
    obtain ⟨hnodup, hmem⟩ := this queue [] nodup_nil
    refine ⟨hnodup, fun page => (hmem page).trans ?_⟩
    simp
  intro queue
  induction queue with
  | nil =>
    intro pages hpages
    simpa using hpages
  | cons e queue ih =>
    intro pages hpages
    obtain ⟨hnodup, hmem⟩ := ih (pushUniquePage pages (pageOf e)) (nodup_pushUniquePage hpages _)
    refine ⟨hnodup, fun page => ?_⟩
    rw [foldl_cons, hmem, mem_pushUniquePage, or_assoc]
    simp [eq_comm]

/-- The page of the queue as it is stored. -/
def storedPage (queue : PendingActions (QueuedProposal A)) (page : Nat) : List (StoredPending A) :=
  (queue.filter fun e => decide (pageOf e = page)).map storedPending

variable {queue : PendingActions (QueuedProposal A)} {g : Governance A}

theorem storedPage_ne_nil {page : Nat} (h : page ∈ queuePages queue) :
    storedPage queue page ≠ [] := by
  obtain ⟨e, he, hpage⟩ := ((queuePages_spec queue).2 page).mp h
  unfold storedPage
  rw [Ne, map_eq_nil_iff]
  exact ne_nil_of_mem (mem_filter.mpr ⟨he, decide_eq_true hpage⟩)

theorem foldl_savePendingPage (f : Nat → List (StoredPending A)) (pages : List Nat)
    (g : Governance A) (page : Nat) :
    (pages.foldl (fun g page => g.savePendingPage page (f page)) g).pendingPages page =
      if page ∈ pages then (if (f page).isEmpty then none else some (f page))
      else g.pendingPages page := by
  induction pages generalizing g with
  | nil => simp
  | cons p pages ih =>
    rw [foldl_cons, ih]
    by_cases hmem : page ∈ pages
    · simp [hmem]
    · by_cases hp : page = p
      · subst hp
        simp [hmem, savePendingPage]
      · simp [hmem, hp, savePendingPage]

theorem foldl_clearPages (keep index : List Nat) (stored : Nat → Option (List (StoredPending A)))
    (page : Nat) :
    index.foldl (fun pages page => if page ∈ keep then pages else Function.update pages page none)
        stored page =
      if page ∈ index ∧ page ∉ keep then none else stored page := by
  induction index generalizing stored with
  | nil => simp
  | cons p index ih =>
    rw [foldl_cons, ih]
    by_cases hp : page = p
    · subst hp
      by_cases hkeep : page ∈ keep <;> simp [hkeep]
    · by_cases hkeep : p ∈ keep <;> simp [hkeep, hp]

section

variable (g : Governance A) (queue : PendingActions (QueuedProposal A))

/-- What is stored on a page after the queue has been written. -/
theorem pendingPages_saveQueue (page : Nat) : (g.saveQueue queue).pendingPages page =
      if page ∈ queuePages queue then some (storedPage queue page)
      else if page ∈ g.pendingPageIndex then none else g.pendingPages page := by
  change g.pendingPageIndex.foldl _ ((queuePages queue).foldl
    (fun g page => g.savePendingPage page (storedPage queue page)) g).pendingPages page = _
  rw [foldl_clearPages, foldl_savePendingPage]
  by_cases hmem : page ∈ queuePages queue
  · simp [hmem, storedPage_ne_nil hmem]
  · simp [hmem]

theorem loadQueue_saveQueue :
    (g.saveQueue queue).loadQueue = readPages pageOf (queuePages queue) queue := by
  change (queuePages queue).flatMap _ = _
  apply flatMap_congr
  intro page hpage
  have hload : (g.saveQueue queue).loadPendingPage page = storedPage queue page := by
    unfold loadPendingPage
    rw [pendingPages_saveQueue, if_pos hpage]
    rfl
  rw [hload, storedPage, filter_map, map_map]
  -- what is stored on a page already belongs there
  have hkeep : (queue.filter fun e => decide (pageOf e = page)).filter
      ((fun item => decide (pendingPageId item.id = page)) ∘ storedPending) =
      queue.filter fun e => decide (pageOf e = page) := by
    rw [filter_eq_self]
    intro e he
    exact (mem_filter.mp he).2
  rw [hkeep]
  exact map_id _

/-- What is read back is the queue, in another order perhaps. -/
theorem loadQueue_saveQueue_perm : (g.saveQueue queue).loadQueue.Perm queue := by
  rw [loadQueue_saveQueue]
  apply readPages_perm (queuePages_spec queue).1
  intro e he
  exact ((queuePages_spec queue).2 _).mpr ⟨e, he, rfl⟩

end

theorem mem_loadQueue_saveQueue {e : PendingValue (QueuedProposal A)} :
    e ∈ (g.saveQueue queue).loadQueue ↔ e ∈ queue := (loadQueue_saveQueue_perm g queue).mem_iff

/-- The pages that are stored are those of the index, each holds something, and only proposals
that belong to it. -/
structure Paged (g : Governance A) : Prop where
  nodup : g.pendingPageIndex.Nodup
  listed : ∀ page, page ∈ g.pendingPageIndex ↔ (g.pendingPages page).isSome = true
  filled : ∀ page items, g.pendingPages page = some items →
    items ≠ [] ∧ ∀ item ∈ items, pendingPageId item.id = page

theorem Paged.saveQueue (h : g.Paged) (queue : PendingActions (QueuedProposal A)) :
    (g.saveQueue queue).Paged where
  nodup := (queuePages_spec queue).1
  listed := by
    intro page
    rw [pendingPages_saveQueue]
    change page ∈ queuePages queue ↔ _
    by_cases hmem : page ∈ queuePages queue
    · simp [hmem]
    · by_cases hold : page ∈ g.pendingPageIndex
      · simp [hmem, hold]
      · rw [if_neg hmem, if_neg hold, ← h.listed]
        simp [hmem, hold]
  filled := by
    intro page items hitems
    rw [pendingPages_saveQueue] at hitems
    split at hitems
    · next hmem =>
      cases hitems
      refine ⟨storedPage_ne_nil hmem, ?_⟩
      intro item hitem
      obtain ⟨e, he, rfl⟩ := mem_map.mp hitem
      exact of_decide_eq_true (mem_filter.mp he).2
    · split at hitems
      · cases hitems
      · exact h.filled page items hitems

/-- A queue in order: no id and no key twice, only ids that have been given out, and not more
than the bound. -/
structure InOrder (next : Nat) (queue : PendingActions (QueuedProposal A)) : Prop where
  ids : (queue.map fun e => e.value.id).Nodup
  fresh : ∀ e ∈ queue, e.value.id < next
  keys : (queue.map fun e => e.value.actionKey).Nodup
  few : queue.length ≤ maxPendingProposals

variable {next : Nat} {queue' : PendingActions (QueuedProposal A)}

section

variable (h : InOrder next queue)
include h

theorem InOrder.perm (hperm : queue'.Perm queue) : InOrder next queue' where
  ids := (hperm.map _).nodup_iff.mpr h.ids
  fresh := fun e he => h.fresh e (hperm.mem_iff.mp he)
  keys := (hperm.map _).nodup_iff.mpr h.keys
  few := hperm.length_eq ▸ h.few

theorem InOrder.sublist (hsub : queue'.Sublist queue) : InOrder next queue' where
  ids := (hsub.map _).nodup h.ids
  fresh := fun e he => h.fresh e (hsub.mem he)
  keys := (hsub.map _).nodup h.keys
  few := hsub.length_le.trans h.few

theorem InOrder.mono {later : Nat} (hle : next ≤ later) : InOrder later queue :=
  ⟨h.ids, fun e he => Nat.lt_of_lt_of_le (h.fresh e he) hle, h.keys, h.few⟩

/-- A new proposal joins the queue once those under its key have left it. -/
theorem InOrder.append {action : GovernanceAction A} {readyAtNs : Nat}
    (hkey : ∀ e ∈ queue, e.value.actionKey ≠ action.pendingKey)
    (hroom : queue.length < maxPendingProposals) :
    InOrder (next + 1) (queue ++ [⟨⟨next, action⟩, readyAtNs⟩]) := by
  refine ⟨?_, ?_, ?_, ?_⟩
  · rw [map_append, nodup_append]
    refine ⟨h.ids, nodup_singleton _, ?_⟩
    intro a ha b hb hab
    obtain ⟨e, he, rfl⟩ := mem_map.mp ha
    rw [mem_singleton.mp hb] at hab
    exact absurd hab (Nat.ne_of_lt (h.fresh e he))
  · intro e he
    rcases mem_append.mp he with he | he
    · exact Nat.lt_succ_of_lt (h.fresh e he)
    · cases mem_singleton.mp he
      exact Nat.lt_succ_self next
  · rw [map_append, nodup_append]
    refine ⟨h.keys, nodup_singleton _, ?_⟩
    intro a ha b hb hab
    obtain ⟨e, he, rfl⟩ := mem_map.mp ha
    rw [mem_singleton.mp hb] at hab
    exact hkey e he hab
  · rw [length_append]
    exact hroom

end

/-- The stored queue is in order. -/
structure Waiting (g : Governance A) : Prop where
  paged : g.Paged
  order : InOrder g.nextProposalId g.loadQueue

theorem Waiting.saveQueue (h : g.Paged) (horder : InOrder g.nextProposalId queue) :
    (g.saveQueue queue).Waiting :=
  ⟨h.saveQueue queue, horder.perm (loadQueue_saveQueue_perm g queue)⟩

end Governance

end Templar.VaultGovernance
