import Templar.Lending.QueueRefinement

/-!
# Runs of the withdrawal queue

Any sequence of operations on a new queue returns what the abstract queue returns,
as long as identifiers do not run out. In the state it reaches every view agrees
with the list of requests. The sums of amounts are 128-bit integers: a depth that
does not fit aborts the view.
-/

namespace Templar.Lending

open Checked Chain WithdrawalQueue List Option

variable {A : Type} [DecidableEq A]

inductive QueueOp (A : Type) where
  | insertOrUpdate (accountId : A) (amount : Nat)
  | remove (accountId : A)
  | pop
  | mutHead (f : Nat → Nat × Nat)

inductive QueueReply (A : Type) where
  | inserted
  | removed (amount : Option Nat)
  | popped (request : Option (A × Nat))
  | head (value : Option Nat)
  deriving DecidableEq

def WithdrawalQueue.apply (q : WithdrawalQueue A) :
    QueueOp A → Outcome (QueueReply A × WithdrawalQueue A)
  | .insertOrUpdate a v => do
    let q ← q.insertOrUpdate a v
    .ok (.inserted, q)
  | .remove a => do
    let (amount, q) ← q.remove a
    .ok (.removed amount, q)
  | .pop => do
    let (request, q) ← q.pop
    .ok (.popped request, q)
  | .mutHead f => do
    let (value, q) ← q.mutHead f
    .ok (.head value, q)

def WithdrawalQueue.run (q : WithdrawalQueue A) :
    List (QueueOp A) → Outcome (List (QueueReply A) × WithdrawalQueue A)
  | [] => .ok ([], q)
  | op :: ops => do
    let (reply, q) ← q.apply op
    let (replies, q) ← q.run ops
    .ok (reply :: replies, q)

variable (f : Fifo A Nat)

/-- The abstract behaviour of one operation. -/
def fifoApply : QueueOp A → QueueReply A × Fifo A Nat
  | .insertOrUpdate a v => (.inserted, f.insertOrUpdate a v)
  | .remove a => (.removed (f.value a), f.remove a)
  | .pop => (.popped f.items.head?, f.pop)
  | .mutHead g => (.head (f.items.head?.map fun e => (g e.2).1), f.mutHead fun v => (g v).2)

def fifoRun (f : Fifo A Nat) : List (QueueOp A) → List (QueueReply A) × Fifo A Nat
  | [] => ([], f)
  | op :: ops =>
    let (reply, f) := fifoApply f op
    let (replies, f) := fifoRun f ops
    (reply :: replies, f)

/-- Whether an operation appends a request, and so takes an identifier. -/
def takesId : QueueOp A → Nat
  | .insertOrUpdate a _ => if f.has a then 0 else 1
  | _ => 0

def insertions (f : Fifo A Nat) : List (QueueOp A) → Nat
  | [] => 0
  | op :: ops => takesId f op + insertions (fifoApply f op).2 ops

def Refines (q : WithdrawalQueue A) (f : Fifo A Nat) : Prop :=
  ∃ l, WithdrawalQueue.Represents q l ∧ f.items = l.map Prod.snd

def depthBefore (a : A) : Nat := ((f.items.take (f.index a)).map Prod.snd).sum

def depth : Nat := (f.items.map Prod.snd).sum

/-- Everything the views of a queue return, in terms of the abstract one. -/
structure Observes (q : WithdrawalQueue A) (f : Fifo A Nat) : Prop where
  len : q.len = f.items.length
  iter : ∀ calls, f.items.length ≤ calls → q.iter calls = .ok (some f.items)
  get : ∀ a, q.get a = f.value a
  contains : ∀ a, q.contains a = f.has a
  peek : q.peek = .ok f.items.head?
  status : ∀ calls, f.items.length ≤ calls → q.getStatus calls =
    if depth f < 2 ^ 128 then .ok (some ⟨depth f, f.items.length⟩) else .error .overflow
  request : ∀ calls a, f.items.length ≤ calls → q.getRequestStatus calls a =
    match f.value a with
    | none => .ok (some none)
    | some v =>
      if depthBefore f a < 2 ^ 128 then .ok (some (some ⟨f.index a, depthBefore f a, v⟩))
      else .error .overflow

namespace WithdrawalQueue

variable {q : WithdrawalQueue A} {f : Fifo A Nat}

theorem refines_new : Refines (new : WithdrawalQueue A) Fifo.empty := ⟨[], represents_new, rfl⟩

/-- An account has no request, or its request has a place. -/
theorem lookup_cases (h : Refines q f) (a : A) :
    q.entries.lookup a = none ∧ a ∉ f.items.map Prod.fst ∨
      ∃ i l₁ v l₂, q.entries.lookup a = some i ∧ Represents q (l₁ ++ (i, (a, v)) :: l₂) ∧
        f.items = l₁.map Prod.snd ++ (a, v) :: l₂.map Prod.snd := by
  obtain ⟨l, hr, hf⟩ := h
  cases hi : q.entries.lookup a with
  | none => exact .inl ⟨rfl, hf ▸ hr.notMem_of_lookup hi⟩
  | some i =>
    obtain ⟨l₁, v, l₂, rfl⟩ := hr.exists_split hi
    exact .inr ⟨i, l₁, v, l₂, rfl, hr, by simp [hf]⟩

theorem insertOrUpdate_refines (h : Refines q f) (a : A) (v : Nat)
    (hid : q.nextQueueNodeId + takesId f (.insertOrUpdate a v) < 2 ^ 32) :
    ∃ q', q.insertOrUpdate a v = .ok q' ∧ Refines q' (f.insertOrUpdate a v) ∧
      q'.nextQueueNodeId = q.nextQueueNodeId + takesId f (.insertOrUpdate a v) := by
  rcases lookup_cases h a with ⟨hi, ha⟩ | ⟨i, l₁, w, l₂, hi, hr, hf⟩
  · have htakes : takesId f (.insertOrUpdate a v) = 1 := by simp [takesId, Fifo.has, ha]
    rw [htakes] at hid ⊢
    obtain ⟨l, hr, hf⟩ := h
    obtain ⟨q', hq, hr', hnext⟩ := insertNew_spec hr v (hf ▸ ha) hid
    refine ⟨q', ?_, ⟨_, hr', ?_⟩, hnext⟩
    · simp only [insertOrUpdate, hi, hq]
    · rw [Fifo.items_append ha, hf, map_append]
      rfl
  · obtain ⟨h₁, h₂⟩ := hr.account_notMem
    have ha : a ∈ f.items.map Prod.fst := by simp [hf]
    have htakes : takesId f (.insertOrUpdate a v) = 0 := by simp [takesId, Fifo.has, ha]
    obtain ⟨q', hq, hr', hnext⟩ := mutExistingNode_spec hr
      (fun node => ((), { node with amount := v })) rfl
    refine ⟨q', ?_, ⟨_, hr', ?_⟩, ?_⟩
    · simp only [insertOrUpdate, hi, hq, ok_bind]
    · rw [Fifo.items_update ha, hf, map_append]
      exact Fifo.replace_split h₁ h₂ v
    · rw [hnext, htakes]
      rfl

/-- An insertion that returns has found an identifier. -/
theorem insertOrUpdate_of_ok {q' : WithdrawalQueue A} (h : Refines q f) {a : A}
    {v : Nat} (hq : q.insertOrUpdate a v = .ok q') : Refines q' (f.insertOrUpdate a v) := by
  have hid : q.nextQueueNodeId + takesId f (.insertOrUpdate a v) < 2 ^ 32 := by
    rcases lookup_cases h a with ⟨hi, ha⟩ | ⟨i, l₁, w, l₂, hi, hr, hf⟩
    · simp only [takesId, Fifo.has, ha, decide_false, Bool.false_eq_true, ↓reduceIte]
      by_contra hlt
      simp only [insertOrUpdate, hi, insertNew, hlt, ↓reduceIte, unwrap, error_bind] at hq
      cases hq
    · have ha : a ∈ f.items.map Prod.fst := by simp [hf]
      simp only [takesId, Fifo.has, ha, decide_true, ↓reduceIte]
      exact hr.idBound
  obtain ⟨q₁, hq₁, hr, -⟩ := insertOrUpdate_refines h a v hid
  rw [hq] at hq₁
  cases hq₁
  exact hr

theorem remove_refines (h : Refines q f) (a : A) :
    ∃ q', q.remove a = .ok (f.value a, q') ∧ Refines q' (f.remove a) ∧
      q'.nextQueueNodeId = q.nextQueueNodeId := by
  rcases lookup_cases h a with ⟨hi, ha⟩ | ⟨i, l₁, v, l₂, hi, hr, hf⟩
  · obtain ⟨l, hr, hf⟩ := h
    refine ⟨q, ?_, ⟨l, hr, ?_⟩, rfl⟩
    · simp only [remove, hi, Fifo.value, Fifo.find?_of_notMem ha, map_none]
    · exact (Fifo.filter_of_notMem ha).trans hf
  · obtain ⟨h₁, h₂⟩ := hr.account_notMem
    obtain ⟨q', hq, hr', hnext⟩ := remove_spec hr
    refine ⟨q', ?_, ⟨_, hr', ?_⟩, hnext⟩
    · rw [hq, Fifo.value, hf, Fifo.find?_split h₁]
      rfl
    · simp only [Fifo.remove, hf, map_append]
      exact Fifo.filter_split h₁ h₂

theorem pop_refines (h : Refines q f) : ∃ q', q.pop = .ok (f.items.head?, q') ∧ Refines q' f.pop ∧
      q'.nextQueueNodeId = q.nextQueueNodeId := by
  obtain ⟨l, hr, hf⟩ := h
  cases l with
  | nil =>
    refine ⟨q, ?_, ⟨[], hr, ?_⟩, rfl⟩
    · simp only [pop, hr.head, first_nil, hf, map_nil, head?_nil]
    · simp only [Fifo.pop, hf, map_nil, tail_nil]
  | cons c l =>
    obtain ⟨q', hq, hr', hnext⟩ := pop_spec hr
    refine ⟨q', ?_, ⟨l, hr', ?_⟩, hnext⟩
    · rw [hq, hf]
      rfl
    · simp only [Fifo.pop, hf, map_cons, tail_cons]

theorem mutHead_refines {T : Type} (h : Refines q f) (g : Nat → T × Nat) :
    ∃ q', q.mutHead g = .ok (f.items.head?.map fun e => (g e.2).1, q') ∧
      Refines q' (f.mutHead fun v => (g v).2) ∧ q'.nextQueueNodeId = q.nextQueueNodeId := by
  obtain ⟨l, hr, hf⟩ := h
  cases l with
  | nil =>
    refine ⟨q, ?_, ⟨[], hr, ?_⟩, rfl⟩
    · simp only [mutHead, hr.head, first_nil, hf, map_nil, head?_nil, map_none]
    · simp only [Fifo.mutHead, hf]
      rfl
  | cons c l =>
    have hr₀ : Represents q ([] ++ (c.1, (c.2.1, c.2.2)) :: l) := hr
    obtain ⟨q', hq, hr', hnext⟩ := mutExistingNode_spec hr₀
      (fun node => ((g node.amount).1, { node with amount := (g node.amount).2 })) rfl
    refine ⟨q', ?_, ⟨_, hr', ?_⟩, hnext⟩
    · simp only [mutHead, hr.head, first_cons, hq, ok_bind, hf, map_cons, head?_cons, map_some]
    · simp only [Fifo.mutHead, hf]
      rfl

/-- One operation: the same reply, and the refinement is kept. -/
theorem apply_refines (h : Refines q f) (op : QueueOp A)
    (hid : q.nextQueueNodeId + takesId f op < 2 ^ 32) :
    ∃ q', q.apply op = .ok ((fifoApply f op).1, q') ∧ Refines q' (fifoApply f op).2 ∧
      q'.nextQueueNodeId = q.nextQueueNodeId + takesId f op := by
  cases op with
  | insertOrUpdate a v =>
    obtain ⟨q', hq, hr, hnext⟩ := insertOrUpdate_refines h a v hid
    exact ⟨q', by rw [apply, hq]; rfl, hr, hnext⟩
  | remove a =>
    obtain ⟨q', hq, hr, hnext⟩ := remove_refines h a
    exact ⟨q', by rw [apply, hq]; rfl, hr, hnext⟩
  | pop =>
    obtain ⟨q', hq, hr, hnext⟩ := pop_refines h
    exact ⟨q', by rw [apply, hq]; rfl, hr, hnext⟩
  | mutHead g =>
    obtain ⟨q', hq, hr, hnext⟩ := mutHead_refines h g
    exact ⟨q', by rw [apply, hq]; rfl, hr, hnext⟩

theorem run_refines (h : Refines q f) (ops : List (QueueOp A))
    (hid : q.nextQueueNodeId + insertions f ops < 2 ^ 32) :
    ∃ q', q.run ops = .ok ((fifoRun f ops).1, q') ∧ Refines q' (fifoRun f ops).2 := by
  induction ops generalizing q f with
  | nil => exact ⟨q, rfl, h⟩
  | cons op ops ih =>
    simp only [insertions] at hid
    obtain ⟨q₁, hq₁, hr₁, hnext⟩ := apply_refines h op (by omega)
    obtain ⟨q₂, hq₂, hr₂⟩ := ih hr₁ (by omega)
    refine ⟨q₂, ?_, hr₂⟩
    rw [run, hq₁, ok_bind]
    simp only [hq₂, ok_bind]
    rfl

section Views

variable {l : List (Nat × (A × Nat))} {p : Option Nat}

omit [DecidableEq A] in
theorem iterFrom_segment (h : Segment (cells q.queue) p l none) {calls : Nat}
    (hc : l.length ≤ calls) : q.iterFrom calls (first l none) = .ok (some (l.map Prod.snd)) := by
  induction l generalizing p calls with
  | nil => cases calls <;> rfl
  | cons c l ih =>
    obtain ⟨calls, rfl⟩ : ∃ n, calls = n + 1 := ⟨calls - 1, by simp at hc; omega⟩
    have ih := ih h.2 (by simpa using hc)
    simp only [first_cons, iterFrom, existingNode_of_cells h.1, ok_bind, ih]
    rfl

omit [DecidableEq A] in
theorem depthLoop_segment (h : Segment (cells q.queue) p l none) {calls d : Nat}
    (hc : l.length ≤ calls) (hd : d < 2 ^ 128) :
    q.depthLoop calls (first l none) d =
      if d + ((l.map Prod.snd).map Prod.snd).sum < 2 ^ 128 then
        .ok (some (d + ((l.map Prod.snd).map Prod.snd).sum))
      else .error .overflow := by
  induction l generalizing p calls d with
  | nil =>
    have hnil : q.depthLoop calls none d = .ok (some d) := by cases calls <;> rfl
    simp only [first_nil, map_nil, sum_nil, Nat.add_zero, hd, ↓reduceIte]
    exact hnil
  | cons c l ih =>
    obtain ⟨calls, rfl⟩ : ∃ n, calls = n + 1 := ⟨calls - 1, by simp at hc; omega⟩
    simp only [first_cons, depthLoop, existingNode_of_cells h.1, ok_bind, map_cons,
      sum_cons, Checked.add, fit]
    by_cases hfit : d + c.2.2 < 2 ^ 128
    · rw [if_pos hfit, ok_bind, ih h.2 (by simpa using hc) hfit, Nat.add_assoc]
    · rw [if_neg hfit, error_bind, if_neg (by omega)]

theorem requestStatusLoop_segment {l₁ l₂ : List (Nat × (A × Nat))} {i v : Nat}
    {a : A} (h : Segment (cells q.queue) p (l₁ ++ (i, (a, v)) :: l₂) none)
    (ha : a ∉ (l₁.map Prod.snd).map Prod.fst) {calls index d : Nat}
    (hc : l₁.length < calls) (hd : d < 2 ^ 128) :
    q.requestStatusLoop a calls (first (l₁ ++ (i, (a, v)) :: l₂) none) index d =
      if d + ((l₁.map Prod.snd).map Prod.snd).sum < 2 ^ 128 then
        .ok (some ⟨(index + l₁.length) % 2 ^ 32, d + ((l₁.map Prod.snd).map Prod.snd).sum, v⟩)
      else .error .overflow := by
  obtain ⟨calls, rfl⟩ : ∃ n, calls = n + 1 := ⟨calls - 1, by omega⟩
  induction l₁ generalizing p calls index d with
  | nil =>
    have hnode : q.existingNode i = .ok ⟨a, v, p, first l₂ none⟩ := existingNode_of_cells h.1
    simp only [nil_append, first_cons, requestStatusLoop, hnode, ok_bind, ↓reduceIte,
      map_nil, sum_nil, Nat.add_zero, hd, length_nil]
  | cons c l₁ ih =>
    have hne : c.2.1 ≠ a := by
      intro he
      exact ha (by simp [he])
    obtain ⟨calls, rfl⟩ : ∃ n, calls = n + 1 := ⟨calls - 1, by simp at hc; omega⟩
    simp only [cons_append, first_cons, requestStatusLoop, existingNode_of_cells h.1, ok_bind,
      hne, ↓reduceIte, map_cons, sum_cons, Checked.add, fit, length_cons]
    by_cases hfit : d + c.2.2 < 2 ^ 128
    · rw [if_pos hfit, ok_bind]
      refine (ih h.2 (fun hm => ha (mem_cons_of_mem _ hm)) hfit calls (by simpa using hc)).trans ?_
      rw [Nat.add_assoc d, Nat.add_assoc index, Nat.add_comm 1]
    · rw [if_neg hfit, error_bind, if_neg (by omega)]

end Views

section

variable (h : Refines q f)
include h

theorem get_refines (a : A) : q.get a = f.value a := by
  rcases lookup_cases h a with ⟨hi, ha⟩ | ⟨i, l₁, v, l₂, hi, hr, hf⟩
  · simp only [get, hi, bind_none, map_none, Fifo.value, Fifo.find?_of_notMem ha]
  · rw [get, hi, bind_some, lookup_of_cells hr.node_split, Fifo.value, hf,
      Fifo.find?_split hr.account_notMem.1]
    rfl

theorem contains_refines (a : A) : q.contains a = f.has a := by
  rcases lookup_cases h a with ⟨hi, ha⟩ | ⟨i, l₁, v, l₂, hi, hr, hf⟩
  · simp only [contains, hi, isSome_none, Fifo.has, ha, decide_false]
  · have ha : a ∈ f.items.map Prod.fst := by simp [hf]
    simp only [contains, hi, isSome_some, Fifo.has, ha, decide_true]

theorem peek_refines : q.peek = .ok f.items.head? := by
  obtain ⟨l, hr, hf⟩ := h
  cases l with
  | nil => simp only [peek, hr.head, first_nil, hf, map_nil, head?_nil]
  | cons c l =>
    simp only [peek, hr.head, first_cons, existingNode_of_cells hr.segment.1, ok_bind, hf,
      map_cons, head?_cons]

theorem getStatus_refines {calls : Nat} (hc : f.items.length ≤ calls) : q.getStatus calls =
      if depth f < 2 ^ 128 then .ok (some ⟨depth f, f.items.length⟩) else .error .overflow := by
  obtain ⟨l, hr, hf⟩ := h
  have hlen : f.items.length = l.length := by rw [hf, length_map]
  have hloop := depthLoop_segment hr.segment (d := 0) (hlen ▸ hc) (by decide)
  rw [Nat.zero_add, ← hf] at hloop
  rw [getStatus, hr.head, hloop, depth]
  split
  · rw [ok_bind, len, hr.length_eq, hlen]
    rfl
  · rfl

theorem getRequestStatus_refines (a : A) {calls : Nat}
    (hc : f.items.length ≤ calls) :
    q.getRequestStatus calls a =
      match f.value a with
      | none => .ok (some none)
      | some v =>
        if depthBefore f a < 2 ^ 128 then .ok (some (some ⟨f.index a, depthBefore f a, v⟩))
        else .error .overflow := by
  rcases lookup_cases h a with ⟨hi, ha⟩ | ⟨i, l₁, v, l₂, hi, hr, hf⟩
  · rw [Fifo.value, Fifo.find?_of_notMem ha]
    simp only [getRequestStatus, contains, hi, isSome_none, Bool.false_eq_true, ↓reduceIte,
      map_none]
  · have ha := hr.account_notMem.1
    have hlen : f.items.length = l₁.length + (l₂.length + 1) := by rw [hf]; simp
    have hbound : l₁.length < 2 ^ 32 := by
      have hroom := hr.room
      have hid := hr.idBound
      simp only [length_append, length_cons] at hroom
      omega
    have hvalue : f.value a = some v := by
      rw [Fifo.value, hf, Fifo.find?_split ha]
      rfl
    have hindex : f.index a = l₁.length := by
      rw [Fifo.index, hf, Fifo.findIdx_split ha, length_map]
    have hbefore : depthBefore f a = ((l₁.map Prod.snd).map Prod.snd).sum := by
      rw [depthBefore, hindex, hf, take_left' (length_map _)]
    have hloop : q.requestStatusLoop a calls _ 0 0 = _ :=
      requestStatusLoop_segment hr.segment ha (by omega) (by decide)
    rw [Nat.zero_add, Nat.zero_add, Nat.mod_eq_of_lt hbound, ← hbefore, ← hindex] at hloop
    simp only [getRequestStatus, contains, hi, isSome_some, ↓reduceIte, hr.head, hloop, hvalue]
    split <;> rfl

theorem observes_of_refines : Observes q f where
  len := by
    obtain ⟨l, hr, hf⟩ := h
    rw [len, hr.length_eq, hf, length_map]
  iter := by
    intro calls hc
    obtain ⟨l, hr, hf⟩ := h
    rw [hf, length_map] at hc
    rw [iter, hr.head, iterFrom_segment hr.segment hc, hf]
  get := get_refines h
  contains := contains_refines h
  peek := peek_refines h
  status := fun _ hc => getStatus_refines h hc
  request := fun _ a hc => getRequestStatus_refines h a hc

end

end WithdrawalQueue

/-- Every sequence of operations on a new queue, with fewer than `2^32 - 1` appended
requests, completes with the replies of the abstract queue, and every view of the
queue it leaves agrees with the abstract one. -/
theorem withdrawalQueue_refines_fifo (ops : List (QueueOp A))
    (h : insertions Fifo.empty ops < 2 ^ 32 - 1) :
    ∃ q, (new : WithdrawalQueue A).run ops =
        .ok ((fifoRun Fifo.empty ops).1, q) ∧
      Refines q (fifoRun Fifo.empty ops).2 ∧ Observes q (fifoRun Fifo.empty ops).2 := by
  have hid : (new : WithdrawalQueue A).nextQueueNodeId + insertions Fifo.empty ops < 2 ^ 32 := by
    change 1 + insertions Fifo.empty ops < 2 ^ 32
    omega
  obtain ⟨q, hq, hr⟩ := run_refines refines_new ops hid
  exact ⟨q, hq, hr, observes_of_refines hr⟩

/-- Two requests and a removal. -/
def sampleOps : List (QueueOp Nat) :=
  [.insertOrUpdate 7 100, .insertOrUpdate 8 50, .insertOrUpdate 7 30, .remove 8]

theorem withdrawalQueue_refines_fifo_sample : insertions Fifo.empty sampleOps < 2 ^ 32 - 1 ∧
      ∃ q, (new : WithdrawalQueue Nat).run sampleOps =
          .ok ((fifoRun Fifo.empty sampleOps).1, q) ∧
        Refines q (fifoRun Fifo.empty sampleOps).2 ∧ Observes q (fifoRun Fifo.empty sampleOps).2 :=
  ⟨by decide, withdrawalQueue_refines_fifo sampleOps (by decide)⟩

/-- Two queued requests whose amounts add up to `2^128`: the depth view aborts. -/
theorem getStatus_depth_overflow : ((new : WithdrawalQueue Nat).run
        [.insertOrUpdate 7 (2 ^ 128 - 1), .insertOrUpdate 8 1] >>= fun r => r.2.getStatus 2) =
      .error .overflow := by
  decide +kernel

end Templar.Lending
