import Templar.Lending.WithdrawalQueue

/-!
# The withdrawal queue refines a duplicate-free list

`Represents q l` reads the five stored structures as one list `l` of identified
requests. Mending a link is described once for each direction; removing, popping,
updating and appending are then a split of that list.
-/

namespace Templar.Lending

open Checked Chain Function List AList

variable {A : Type}

def QueueNode.cell (n : QueueNode A) : Cell Nat (A × Nat) :=
  ⟨(n.accountId, n.amount), n.prev, n.next⟩

/-- The nodes as cells of a chain. -/
def cells (t : Table Nat (QueueNode A)) (i : Nat) : Option (Cell Nat (A × Nat)) :=
  (t.lookup i).map QueueNode.cell

theorem cells_insert (t : Table Nat (QueueNode A)) (i : Nat) (n : QueueNode A) :
    cells (t.insert i n) = update (cells t) i (some n.cell) := by
  funext j
  by_cases h : j = i
  · subst h
    simp [cells]
  · simp [cells, lookup_insert_ne h, update_of_ne h]

theorem cells_erase (t : Table Nat (QueueNode A)) (i : Nat) :
    cells (t.erase i) = update (cells t) i none := by
  funext j
  by_cases h : j = i
  · subst h
    simp [cells]
  · simp [cells, lookup_erase_ne h, update_of_ne h]

theorem lookup_of_cells {t : Table Nat (QueueNode A)} {i : Nat}
    {c : Cell Nat (A × Nat)} (h : cells t i = some c) :
    t.lookup i = some ⟨c.content.1, c.content.2, c.prev, c.next⟩ := by
  obtain ⟨n, hn, rfl⟩ := Option.map_eq_some_iff.mp h
  exact hn

namespace WithdrawalQueue

variable {q : WithdrawalQueue A} {l : List (Nat × (A × Nat))} {i : Nat}
  {c : Cell Nat (A × Nat)} {a : A}

theorem existingNode_of_cells (h : cells q.queue i = some c) :
    q.existingNode i = .ok ⟨c.content.1, c.content.2, c.prev, c.next⟩ := by
  rw [existingNode, lookup_of_cells h]
  rfl

theorem setExistingNodePrev_of_cells (p : Option Nat) (h : cells q.queue i = some c) :
    ∃ t, q.setExistingNodePrev i p = .ok { q with queue := t } ∧
      cells t = update (cells q.queue) i (some { c with prev := p }) := by
  refine ⟨q.queue.insert i ⟨c.content.1, c.content.2, p, c.next⟩, ?_, cells_insert _ _ _⟩
  rw [setExistingNodePrev, existingNode_of_cells h]
  rfl

theorem setExistingNodeNext_of_cells (e : Option Nat) (h : cells q.queue i = some c) :
    ∃ t, q.setExistingNodeNext i e = .ok { q with queue := t } ∧
      cells t = update (cells q.queue) i (some { c with next := e }) := by
  refine ⟨q.queue.insert i ⟨c.content.1, c.content.2, c.prev, e⟩, ?_, cells_insert _ _ _⟩
  rw [setExistingNodeNext, existingNode_of_cells h]
  rfl

/-- Mending backwards: the rest of the list now starts after `p'`. -/
theorem unlinkNext_spec {p : Option Nat} (p' : Option Nat)
    (h : Segment (cells q.queue) p l none) (hn : (l.map Prod.fst).Nodup)
    (htail : l ≠ [] → q.queueTail = last l p') :
    ∃ t, q.unlinkNext (first l none) p' = .ok { q with queue := t, queueTail := last l p' } ∧
      Segment (cells t) p' l none ∧ ∀ j, j ∉ l.map Prod.fst → cells t j = cells q.queue j := by
  cases l with
  | nil => exact ⟨q.queue, rfl, trivial, fun _ _ => rfl⟩
  | cons c l =>
    obtain ⟨t, hset, ht⟩ := setExistingNodePrev_of_cells p' h.1
    have hc : c.1 ∉ l.map Prod.fst := (nodup_cons.mp hn).1
    refine ⟨t, ?_, ?_, ?_⟩
    · rw [← htail (cons_ne_nil _ _)]
      exact hset
    · rw [ht]
      exact h.set_prev hc
    · intro j hj
      rw [ht]
      refine update_of_ne (fun he => hj ?_) _ _
      rw [he]
      simp

theorem setExistingNodeNext_last {e : Option Nat} {c : Nat × A × Nat} (e' : Option Nat)
    (h : Segment (cells q.queue) none (l ++ [c]) e) (hn : ((l ++ [c]).map Prod.fst).Nodup) :
    ∃ t, q.setExistingNodeNext c.1 e' = .ok { q with queue := t } ∧
      Segment (cells t) none (l ++ [c]) e' ∧
      ∀ j, j ∉ (l ++ [c]).map Prod.fst → cells t j = cells q.queue j := by
  obtain ⟨t, hset, ht⟩ := setExistingNodeNext_of_cells e' h.get_middle
  have hc : c.1 ∉ l.map Prod.fst := by
    rw [map_append, nodup_append'] at hn
    exact fun hmem => hn.2.2 hmem (mem_singleton_self _)
  refine ⟨t, hset, ?_, ?_⟩
  · rw [ht]
    exact h.set_next hc
  · intro j hj
    rw [ht]
    refine update_of_ne (fun he => hj ?_) _ _
    rw [he]
    simp

/-- Mending forwards: the list so far now ends before `e'`. -/
theorem unlinkPrev_spec {e : Option Nat} (e' : Option Nat)
    (h : Segment (cells q.queue) none l e) (hn : (l.map Prod.fst).Nodup)
    (hhead : l ≠ [] → q.queueHead = first l e') :
    ∃ t, q.unlinkPrev (last l none) e' = .ok { q with queue := t, queueHead := first l e' } ∧
      Segment (cells t) none l e' ∧ ∀ j, j ∉ l.map Prod.fst → cells t j = cells q.queue j := by
  rcases eq_nil_or_concat l with rfl | ⟨l₁, c, rfl⟩
  · exact ⟨q.queue, rfl, trivial, fun _ _ => rfl⟩
  · rw [concat_eq_append] at h hn hhead ⊢
    rw [last_append, ← hhead (by simp)]
    exact setExistingNodeNext_last e' h hn

/-- The stored structures agree on the list of identified requests `l`. -/
structure Represents [DecidableEq A] (q : WithdrawalQueue A)
    (l : List (Nat × (A × Nat))) : Prop where
  segment : Segment (cells q.queue) none l none
  head : q.queueHead = first l none
  tail : q.queueTail = last l none
  length_eq : q.length = l.length
  ids : (l.map Prod.fst).Nodup
  accounts : ((l.map Prod.snd).map Prod.fst).Nodup
  entries_iff : ∀ a i, q.entries.lookup a = some i ↔ ∃ v, (i, (a, v)) ∈ l
  fresh : ∀ c ∈ l, c.1 < q.nextQueueNodeId
  room : l.length < q.nextQueueNodeId
  idBound : q.nextQueueNodeId < 2 ^ 32
  nodes : ∀ i, i ∉ l.map Prod.fst → cells q.queue i = none

variable [DecidableEq A]

theorem represents_new : Represents (new : WithdrawalQueue A) [] where
  segment := trivial
  head := rfl
  tail := rfl
  length_eq := rfl
  ids := nodup_nil
  accounts := nodup_nil
  entries_iff := by simp [new]
  fresh := by simp
  room := Nat.one_pos
  idBound := by
    change 1 < 2 ^ 32
    decide
  nodes := by simp [new, cells]

section Split

variable {l₁ l₂ : List (Nat × (A × Nat))} {v : Nat}

section

variable (h : Represents q (l₁ ++ (i, (a, v)) :: l₂))
include h

theorem Represents.id_notMem : i ∉ l₁.map Prod.fst ∧ i ∉ l₂.map Prod.fst := by
  have hn := h.ids
  rw [map_append, map_cons, nodup_middle, nodup_cons, mem_append] at hn
  exact not_or.mp hn.1

theorem Represents.account_notMem :
    a ∉ (l₁.map Prod.snd).map Prod.fst ∧ a ∉ (l₂.map Prod.snd).map Prod.fst := by
  have hn := h.accounts
  simp only [map_append, map_cons] at hn
  rw [nodup_middle, nodup_cons, mem_append] at hn
  exact not_or.mp hn.1

theorem Represents.lookup_split :
    q.entries.lookup a = some i := (h.entries_iff a i).mpr ⟨v, by simp⟩

theorem Represents.node_split :
    cells q.queue i = some ⟨(a, v), last l₁ none, first l₂ none⟩ := h.segment.get_middle

end

end Split

/-- A stored identifier is the one of exactly one place in the list. -/
theorem Represents.exists_split (h : Represents q l) (hi : q.entries.lookup a = some i) :
    ∃ l₁ v l₂, l = l₁ ++ (i, (a, v)) :: l₂ := by
  obtain ⟨v, hv⟩ := (h.entries_iff a i).mp hi
  obtain ⟨l₁, l₂, hl⟩ := append_of_mem hv
  exact ⟨l₁, v, l₂, hl⟩

theorem Represents.notMem_of_lookup (h : Represents q l) (hi : q.entries.lookup a = none) :
    a ∉ (l.map Prod.snd).map Prod.fst := by
  intro ha
  obtain ⟨e, he, rfl⟩ := mem_map.mp ha
  obtain ⟨c, hc, rfl⟩ := mem_map.mp he
  have hsome := (h.entries_iff c.2.1 c.1).mpr ⟨c.2.2, hc⟩
  rw [hi] at hsome
  cases hsome

section Erase

variable {l₁ l₂ : List (Nat × (A × Nat))} {w : Nat} {v : Nat}

theorem Represents.ids_disjoint (h : Represents q (l₁ ++ (i, (a, v)) :: l₂)) :
    List.Disjoint (l₁.map Prod.fst) (l₂.map Prod.fst) := by
  have hn := h.ids
  rw [map_append, map_cons, nodup_middle, nodup_cons, nodup_append'] at hn
  exact hn.2.2.2

/-- What is left when one request is gone from all five structures. -/
theorem Represents.erased {q' : WithdrawalQueue A} (h : Represents q (l₁ ++ (i, (a, v)) :: l₂))
    (hsegment : Segment (cells q'.queue) none (l₁ ++ l₂) none)
    (hhead : q'.queueHead = first (l₁ ++ l₂) none) (htail : q'.queueTail = last (l₁ ++ l₂) none)
    (hlength : q'.length = q.length - 1) (hentries : q'.entries = q.entries.erase a)
    (hnext : q'.nextQueueNodeId = q.nextQueueNodeId)
    (hnodes : ∀ j, j ∉ (l₁ ++ l₂).map Prod.fst → cells q'.queue j = none) :
    Represents q' (l₁ ++ l₂) where
  segment := hsegment
  head := hhead
  tail := htail
  length_eq := by
    have hl := h.length_eq
    simp only [length_append, length_cons] at hl ⊢
    omega
  ids := h.ids.sublist (((sublist_cons_self _ _).append_left _).map _)
  accounts := h.accounts.sublist ((((sublist_cons_self _ _).append_left _).map _).map _)
  entries_iff := by
    intro b j
    rw [hentries]
    by_cases hb : b = a
    · subst hb
      have hnot := h.account_notMem
      simp only [lookup_erase, reduceCtorEq, false_iff, not_exists]
      intro w hw
      rcases mem_append.mp hw with hw | hw
      · exact hnot.1 (mem_map_of_mem (mem_map_of_mem hw))
      · exact hnot.2 (mem_map_of_mem (mem_map_of_mem hw))
    · rw [lookup_erase_ne hb, h.entries_iff]
      simp [hb]
  fresh := by
    intro c hc
    rw [hnext]
    exact h.fresh c (((sublist_cons_self _ _).append_left _).subset hc)
  room := by
    have hr := h.room
    simp only [length_append, length_cons] at hr ⊢
    omega
  idBound := by
    rw [hnext]
    exact h.idBound
  nodes := hnodes

/-- A request leaves the list, and its neighbours are joined. -/
theorem remove_spec (h : Represents q (l₁ ++ (i, (a, v)) :: l₂)) :
    ∃ q', q.remove a = .ok (some v, q') ∧ Represents q' (l₁ ++ l₂) ∧
      q'.nextQueueNodeId = q.nextQueueNodeId := by
  obtain ⟨hi₁, hi₂⟩ := h.id_notMem
  have hdisj := h.ids_disjoint
  obtain ⟨hs₁, -, hs₂⟩ := segment_append.mp h.segment
  have hids := h.ids
  rw [map_append, map_cons, nodup_middle, nodup_cons, nodup_append'] at hids
  obtain ⟨-, hn₁, hn₂, -⟩ := hids
  have hlength : 1 ≤ q.length := by
    have hl := h.length_eq
    simp only [length_append, length_cons] at hl
    omega
  let q₀ : WithdrawalQueue A := { q with entries := q.entries.erase a, queue := q.queue.erase i }
  have hs₂' : Segment (cells q₀.queue) (some i) l₂ none := by
    rw [cells_erase]
    exact hs₂.update_other hi₂
  obtain ⟨t₁, hnext, hseg₂, hframe₁⟩ := unlinkNext_spec (last l₁ none) hs₂' hn₂ (by
    intro hne
    change q.queueTail = _
    rw [h.tail, last_append, last_cons]
    exact last_of_ne_nil hne _ _)
  have hseg₁ : Segment (cells t₁) none l₁ (some i) := by
    refine hs₁.congr fun c hc => ?_
    have hc₁ : c.1 ∈ l₁.map Prod.fst := mem_map_of_mem hc
    rw [hframe₁ c.1 (fun hc₂ => hdisj hc₁ hc₂), cells_erase]
    exact update_of_ne (fun he => hi₁ (by rw [← he]; exact hc₁)) _ _
  obtain ⟨t₂, hprev, hseg₁', hframe₂⟩ := unlinkPrev_spec
    (q := { q₀ with queue := t₁, queueTail := last l₂ (last l₁ none) }) (first l₂ none)
    hseg₁ hn₁ (by
      intro hne
      change q.queueHead = _
      rw [h.head, first_append]
      exact first_of_ne_nil hne _ _)
  have hseg₂' : Segment (cells t₂) (last l₁ none) l₂ none :=
    hseg₂.congr fun c hc => hframe₂ c.1 fun hc₁ => hdisj hc₁ (mem_map_of_mem hc)
  refine ⟨{ q₀ with
    queue := t₂, queueTail := last l₂ (last l₁ none), queueHead := first l₁ (first l₂ none),
    length := q.length - 1 }, ?_, ?_, rfl⟩
  · have hnode : ({ q with entries := q.entries.erase a } : WithdrawalQueue A).existingNode i =
        .ok ⟨a, v, last l₁ none, first l₂ none⟩ := existingNode_of_cells h.node_split
    have hsub : sub q.length 1 = .ok (q.length - 1) := sub_eq_ok.mpr ⟨hlength, rfl⟩
    simp only [remove, h.lookup_split, hnode, ok_bind]
    rw [hnext, ok_bind, hprev, ok_bind]
    change (sub q.length 1 >>= _) = _
    rw [hsub]
    rfl
  · refine h.erased (segment_append.mpr ⟨hseg₁', hseg₂'⟩) (first_append ..).symm (last_append ..).symm
      rfl rfl rfl ?_
    intro j hj
    rw [map_append, mem_append, not_or] at hj
    rw [hframe₂ j hj.1]
    change cells t₁ j = none
    rw [hframe₁ j hj.2, cells_erase]
    by_cases hji : j = i
    · rw [hji]
      exact update_self ..
    · rw [update_of_ne hji]
      refine h.nodes j ?_
      simp only [map_append, map_cons, mem_append, mem_cons]
      tauto

/-- The first request is removed like any other. -/
theorem pop_eq_remove (h : Represents q ((i, (a, v)) :: l₂)) :
    q.pop = (q.remove a).map fun r => (r.1.map (a, ·), r.2) := by
  have h₀ : Represents q ([] ++ (i, (a, v)) :: l₂) := h
  have hnode := lookup_of_cells h₀.node_split
  simp only [pop, remove, h.head, first_cons, h₀.lookup_split, existingNode, hnode, expect, ok_bind,
    unlinkNext, unlinkPrev, setExistingNodePrev, last_nil]
  cases first l₂ none with
  | none =>
    simp only [ok_bind]
    cases sub q.length 1 <;> rfl
  | some next =>
    dsimp only
    cases (q.queue.erase i).lookup next with
    | none => rfl
    | some node =>
      simp only [ok_bind]
      cases sub q.length 1 <;> rfl

/-- The first request leaves the list. -/
theorem pop_spec (h : Represents q ((i, (a, v)) :: l₂)) :
    ∃ q', q.pop = .ok (some (a, v), q') ∧ Represents q' l₂ ∧
      q'.nextQueueNodeId = q.nextQueueNodeId := by
  have h₀ : Represents q ([] ++ (i, (a, v)) :: l₂) := h
  obtain ⟨q', hremove, hq'⟩ := remove_spec h₀
  refine ⟨q', ?_, hq'⟩
  rw [pop_eq_remove h, hremove]
  rfl

theorem Represents.updated {t : Table Nat (QueueNode A)}
    (h : Represents q (l₁ ++ (i, (a, v)) :: l₂))
    (ht : cells t = update (cells q.queue) i (some ⟨(a, w), last l₁ none, first l₂ none⟩)) :
    Represents { q with queue := t } (l₁ ++ (i, (a, w)) :: l₂) where
  segment := by
    rw [ht]
    exact h.segment.set_content h.id_notMem.1 h.id_notMem.2
  head := by
    change q.queueHead = _
    rw [h.head, first_append, first_append]
    rfl
  tail := by
    change q.queueTail = _
    rw [h.tail, last_append, last_append]
    rfl
  length_eq := by
    have hl := h.length_eq
    simpa using hl
  ids := by simpa using h.ids
  accounts := by simpa using h.accounts
  entries_iff := by
    intro b j
    change q.entries.lookup b = some j ↔ _
    rw [h.entries_iff]
    simp only [mem_append, mem_cons, Prod.mk.injEq, exists_or, exists_and_left, exists_eq, and_true]
  fresh := by
    have hf := h.fresh
    simp only [mem_append, mem_cons, or_imp, forall_and, forall_eq] at hf ⊢
    exact hf
  room := by simpa using h.room
  idBound := h.idBound
  nodes := by
    intro j hj
    have hj' : j ∉ (l₁ ++ (i, (a, v)) :: l₂).map Prod.fst := by simpa using hj
    change cells t j = none
    rw [ht, update_of_ne]
    · exact h.nodes j hj'
    · rintro rfl
      simp at hj

theorem mutExistingNode_spec {T : Type} (h : Represents q (l₁ ++ (i, (a, v)) :: l₂))
    (f : QueueNode A → T × QueueNode A) {r : T}
    (hf : f ⟨a, v, last l₁ none, first l₂ none⟩ = (r, ⟨a, w, last l₁ none, first l₂ none⟩)) :
    ∃ q', q.mutExistingNode i f = .ok (r, q') ∧ Represents q' (l₁ ++ (i, (a, w)) :: l₂) ∧
      q'.nextQueueNodeId = q.nextQueueNodeId := by
  refine ⟨_, ?_, h.updated (cells_insert q.queue i ⟨a, w, last l₁ none, first l₂ none⟩), rfl⟩
  have hnode : q.existingNode i = .ok ⟨a, v, last l₁ none, first l₂ none⟩ :=
    existingNode_of_cells h.node_split
  simp only [mutExistingNode, hnode, ok_bind, hf]

end Erase

omit [DecidableEq A] in
/-- Before a node is appended, the last one is linked to it. -/
theorem linkTail_spec (h : Segment (cells q.queue) none l none) (hn : (l.map Prod.fst).Nodup)
    (htail : q.queueTail = last l none) (n : Nat) :
    ∃ t, q.linkTail n = .ok { q with queue := t } ∧ Segment (cells t) none l (some n) ∧
      ∀ j, j ∉ l.map Prod.fst → cells t j = cells q.queue j := by
  rcases eq_nil_or_concat l with rfl | ⟨l₁, c, rfl⟩
  · have hlink : q.linkTail n = .ok q := by
      rw [linkTail, htail]
      rfl
    exact ⟨q.queue, hlink, trivial, fun _ _ => rfl⟩
  · rw [concat_eq_append] at h hn htail ⊢
    have hlink : q.linkTail n = q.setExistingNodeNext c.1 (some n) := by
      rw [linkTail, htail, last_append]
      rfl
    rw [hlink]
    exact setExistingNodeNext_last (some n) h hn

/-- A request of a new account joins the end under the next number. -/
theorem insertNew_spec (h : Represents q l) (v : Nat) (ha : a ∉ (l.map Prod.snd).map Prod.fst)
    (hid : q.nextQueueNodeId + 1 < 2 ^ 32) :
    ∃ q', q.insertNew a v = .ok q' ∧ Represents q' (l ++ [(q.nextQueueNodeId, (a, v))]) ∧
      q'.nextQueueNodeId = q.nextQueueNodeId + 1 := by
  have hfresh : q.nextQueueNodeId ∉ l.map Prod.fst := by
    intro hmem
    obtain ⟨c, hc, he⟩ := mem_map.mp hmem
    have hlt := h.fresh c hc
    omega
  obtain ⟨t, hlink, hseg, hframe⟩ := linkTail_spec
    (q := { q with nextQueueNodeId := q.nextQueueNodeId + 1 }) h.segment h.ids h.tail
    q.nextQueueNodeId
  have hlength : q.length + 1 < 2 ^ 32 := by
    have hl := h.length_eq
    have hr := h.room
    omega
  have hhead : (if q.queueHead.isNone then some q.nextQueueNodeId else q.queueHead) =
      first l (some q.nextQueueNodeId) := by
    rw [h.head]
    cases l <;> rfl
  refine ⟨{ q with
    nextQueueNodeId := q.nextQueueNodeId + 1
    queueHead := first l (some q.nextQueueNodeId)
    queueTail := some q.nextQueueNodeId
    queue := t.insert q.nextQueueNodeId ⟨a, v, last l none, none⟩
    entries := q.entries.insert a q.nextQueueNodeId
    length := q.length + 1 }, ?_, ?_, rfl⟩
  · have hadd : add 32 q.length 1 = .ok (q.length + 1) :=
      add_eq_ok.mpr ⟨hlength, rfl⟩
    simp only [insertNew, hid, ↓reduceIte, unwrap, ok_bind]
    rw [hlink, ok_bind]
    change (add 32 q.length 1 >>= _) = _
    rw [hadd, ok_bind, ← hhead, ← h.tail]
  · constructor
    · rw [cells_insert]
      refine segment_append.mpr ⟨hseg.update_other hfresh, ?_⟩
      exact ⟨update_self .., trivial⟩
    · rw [first_append]
      rfl
    · rw [last_append]
      rfl
    · simp [h.length_eq]
    · rw [map_append]
      refine h.ids.append (nodup_singleton _) ?_
      simpa using hfresh
    · rw [map_append, map_append]
      refine h.accounts.append (nodup_singleton _) ?_
      simpa using ha
    · intro b j
      by_cases hb : b = a
      · subst hb
        have hnot : ∀ w, (j, (b, w)) ∉ l := fun w hw =>
          ha (mem_map_of_mem (mem_map_of_mem hw))
        simp [hnot, eq_comm]
      · change (q.entries.insert a q.nextQueueNodeId).lookup b = some j ↔ _
        rw [lookup_insert_ne hb, h.entries_iff]
        simp [hb]
    · intro c hc
      change c.1 < q.nextQueueNodeId + 1
      rcases mem_append.mp hc with hc | hc
      · have hlt := h.fresh c hc
        omega
      · rw [mem_singleton.mp hc]
        exact Nat.lt_succ_self _
    · have hr := h.room
      change (l ++ _).length < q.nextQueueNodeId + 1
      simpa using hr
    · exact hid
    · intro j hj
      simp only [map_append, map_cons, map_nil, mem_append, mem_singleton, not_or] at hj
      rw [cells_insert, update_of_ne hj.2, hframe j hj.1]
      exact h.nodes j hj.1

end WithdrawalQueue

end Templar.Lending
