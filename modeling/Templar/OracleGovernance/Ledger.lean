import Mathlib.Data.List.Nodup
import Mathlib.Logic.Function.Basic
import Templar.Lib.Timelock
import Templar.OracleGovernance.Kernel

/-!
# The ledger with its bodies

A runtime stores the kernel's ledger and, apart from it, one body for each pending
proposal. Whatever the runtime checks besides, a call that succeeds does one of the three
steps here. Over every run the bodies are those of the pending ids (`Synced`), an id is
executed at most once (`Spent`), and a lock that the kernel enforces at creation cannot be
outrun (`LockRule`).
-/

namespace Templar.OracleGovernance

open Governance Function List

structure Ledger (Ttls Operation A : Type) where
  header : Governance Ttls
  proposals : Nat → Option (Proposal Operation A)

/-- A proposal that was executed, and when. -/
structure Execution (Operation : Type) where
  time : Nat
  id : Nat
  operation : Operation
  deriving DecidableEq

namespace Ledger

variable {Ttls Operation A E : Type} [OperationPolicy Operation Ttls E]

/-- One step at time `now`. `Applies` says how an executed operation may change the
timelocks. -/
inductive Step (Applies : Operation → Ttls → Ttls → Prop) (now : Nat)
    (l : Ledger Ttls Operation A) :
    Option (Nat × Proposal Operation A) → Ledger Ttls Operation A → Prop
  | create {id requestedTtl operation createdBy p header}
      (created : l.header.create id operation now createdBy requestedTtl = .ok (p, header)) :
      Step Applies now l none ⟨header, update l.proposals id (some p)⟩
  | cancel {id header} (cancelled : l.header.cancel id = .ok header) :
      Step Applies now l none ⟨header, update l.proposals id none⟩
  | execute {id} {p : Proposal Operation A} {header : Governance Ttls} {ttls}
      (body : l.proposals id = some p) (executed : l.header.execute id p now = .ok header)
      (applied : Applies p.operation l.header.ttls ttls) :
      Step Applies now l (some (id, p)) ⟨header.setTtls ttls, update l.proposals id none⟩

/-- Steps at nondecreasing times, with what was executed. -/
inductive Run (Applies : Operation → Ttls → Ttls → Prop) (l : Ledger Ttls Operation A)
    (start : Nat) : List (Execution Operation) → Nat → Ledger Ttls Operation A → Prop
  | refl : Run Applies l start [] start l
  | idle {log now later l₁} (run : Run Applies l start log now l₁) (le : now ≤ later) :
      Run Applies l start log later l₁
  | tail {log now later l₁ l₂} {done : Option (Nat × Proposal Operation A)}
      (run : Run Applies l start log now l₁) (le : now ≤ later)
      (step : Step Applies later l₁ done l₂) :
      Run Applies l start (log ++ done.toList.map fun d => ⟨later, d.1, d.2.operation⟩) later l₂

variable {Applies : Operation → Ttls → Ttls → Prop} {l l' : Ledger Ttls Operation A}
  {now start : Nat} {done : Option (Nat × Proposal Operation A)}
  {log : List (Execution Operation)}

/-- A fold of events each of which does nothing, or one step, is a run. -/
theorem Run.foldl {World Event : Type} {step : World → Event → World} (time : Event → Nat)
    (ledger : World → Ledger Ttls Operation A)
    (executions : World → List (Execution Operation))
    (hstep : ∀ w event, step w event = w ∨
      ∃ done, Step Applies (time event) (ledger w) done (ledger (step w event)) ∧
        executions (step w event) =
          executions w ++ done.toList.map fun d => ⟨time event, d.1, d.2.operation⟩)
    {w : World} {events : List Event}
    (htimed : (now :: events.map time).Pairwise (· ≤ ·))
    (h : Run Applies l start (executions w) now (ledger w)) :
    ∃ later, Run Applies l start (executions (events.foldl step w)) later
      (ledger (events.foldl step w)) := by
  induction events generalizing w now with
  | nil => exact ⟨now, h⟩
  | cons event events ih =>
    obtain ⟨hnow, hrest⟩ := pairwise_cons.mp htimed
    have hle : now ≤ time event := hnow _ mem_cons_self
    refine ih hrest ?_
    rcases hstep w event with heq | ⟨done, hdone, hlog⟩
    · rw [heq]
      exact h.idle hle
    · rw [hlog]
      exact h.tail hle hdone

/-- The ledger without a proposal, and with the timelocks it leaves. -/
def without (l : Ledger Ttls Operation A) (id : Nat) (ttls : Ttls) : Ledger Ttls Operation A :=
  ⟨(l.header.removeAt (l.header.activeIds.idxOf id)).setTtls ttls, update l.proposals id none⟩

/-- What a step does: a proposal that waits long enough enters under the next id, or a pending one
leaves, and if it is executed it has waited. -/
theorem Step.cases (h : Step Applies now l done l') :
    (done = none ∧ ∃ (p : Proposal Operation A) (hfree : _), p.createdAt = now ∧
      OperationPolicy.minimumTtl p.operation l.header.ttls ≤ p.ttl ∧
      l' = ⟨l.header.reserve hfree, update l.proposals l.header.nextId (some p)⟩) ∨
    ∃ id ttls, id ∈ l.header.activeIds ∧ l' = l.without id ttls ∧
      (done = none ∧ ttls = l.header.ttls ∨ ∃ p, done = some (id, p) ∧ l.proposals id = some p ∧
        p.ttl ≤ now - p.createdAt ∧ Applies p.operation l.header.ttls ttls) := by
  cases h with
  | create hcreate =>
    obtain ⟨rfl, -, rfl, hfree, rfl⟩ := create_eq_ok hcreate
    exact .inl ⟨rfl, _, hfree, rfl, Nat.le_max_left _ _, rfl⟩
  | cancel hcancel =>
    obtain ⟨hmem, rfl⟩ := cancel_eq_ok hcancel
    exact .inr ⟨_, _, hmem, rfl, .inl ⟨rfl, rfl⟩⟩
  | execute hbody hexecute happlied =>
    obtain ⟨hmem, hmature, rfl⟩ := execute_eq_ok hexecute
    exact .inr ⟨_, _, hmem, rfl, .inr ⟨_, rfl, hbody, hmature, happlied⟩⟩

/-- The bodies are those of the pending ids. -/
def Synced (l : Ledger Ttls Operation A) : Prop :=
  ∀ id, (l.proposals id).isSome ↔ id ∈ l.header.activeIds

/-- Which ids are pending after a step. -/
theorem Step.synced (h : Step Applies now l done l') (hs : l.Synced) : l'.Synced := by
  intro other
  have hold := hs other
  rcases h.cases with ⟨-, p, hfree, -, -, rfl⟩ | ⟨id, ttls, hmem, rfl, -⟩
  · show _ ↔ other ∈ l.header.activeIds ++ [l.header.nextId]
    by_cases heq : other = l.header.nextId
    · simp [heq]
    · simp [heq, hold]
  · show _ ↔ other ∈ (l.header.removeAt (l.header.activeIds.idxOf id)).activeIds
    rw [mem_removeAt]
    by_cases heq : other = id
    · simp [heq, without]
    · simp [heq, hold, without]

/-- The executed ids are different, were issued, and are not pending. -/
structure Spent (ids : List Nat) (l : Ledger Ttls Operation A) : Prop where
  nodup : ids.Nodup
  issued : ∀ id ∈ ids, id < l.header.nextId
  notPending : ∀ id ∈ ids, id ∉ l.header.activeIds

theorem Step.spent {ids : List Nat} (h : Step Applies now l done l') (hs : Spent ids l) :
    Spent (ids ++ done.toList.map Prod.fst) l' := by
  rcases h.cases with ⟨rfl, p, hfree, -, -, rfl⟩ | ⟨id, ttls, hmem, rfl, hdone⟩
  · rw [Option.toList_none, map_nil, append_nil]
    refine ⟨hs.nodup, fun id hid => Nat.lt_succ_of_lt (hs.issued id hid), ?_⟩
    intro id hid hmem
    rcases mem_append.mp hmem with hmem | hmem
    · exact hs.notPending id hid hmem
    · exact Nat.ne_of_lt (hs.issued id hid) (mem_singleton.mp hmem)
  · have hleft : ∀ other, other ∈ (l.without id ttls).header.activeIds →
        other ≠ id ∧ other ∈ l.header.activeIds := fun other => (mem_removeAt _ _ _).mp
    rcases hdone with ⟨rfl, -⟩ | ⟨p, rfl, -⟩
    · rw [Option.toList_none, map_nil, append_nil]
      exact ⟨hs.nodup, hs.issued, fun other hid h => hs.notPending other hid (hleft other h).2⟩
    · simp only [Option.toList_some, map_cons, map_nil]
      refine ⟨?_, ?_, ?_⟩
      · rw [nodup_append]
        refine ⟨hs.nodup, nodup_singleton id, ?_⟩
        intro other hother _ hid heq
        rw [heq, mem_singleton.mp hid] at hother
        exact hs.notPending id hother hmem
      · intro other hother
        rcases mem_append.mp hother with hother | hother
        · exact hs.issued other hother
        · rw [mem_singleton.mp hother]
          exact l.header.inRange id hmem
      · intro other hother hpending
        obtain ⟨hne, hpending⟩ := hleft other hpending
        rcases mem_append.mp hother with hother | hother
        · exact hs.notPending other hother hpending
        · exact hne (mem_singleton.mp hother)

theorem Run.nodup_ids (h : Run Applies l start log now l') : (log.map (·.id)).Nodup := by
  suffices Spent (log.map (·.id)) l' from this.nodup
  induction h with
  | refl => exact ⟨nodup_nil, by simp, by simp⟩
  | idle _ _ ih => exact ih
  | tail _ _ hstep ih =>
    have hspent := hstep.spent ih
    rw [map_append, map_map]
    exact hspent

/-- A lock as the kernel sees it: what it guards waits for it, and an operation that could
bring it below a bound waits at least that long. -/
structure LockRule (Applies : Operation → Ttls → Ttls → Prop) where
  lock : Ttls → Nat
  Guarded : Operation → Prop
  Keeps : Nat → Operation → Prop
  guarded : ∀ operation ttls, Guarded operation →
    lock ttls ≤ OperationPolicy.minimumTtl operation ttls
  keeps : ∀ bound operation ttls, bound ≤ lock ttls →
    Keeps bound operation ∨ bound ≤ OperationPolicy.minimumTtl operation ttls
  applies : ∀ bound operation ttls ttls', Applies operation ttls ttls' → bound ≤ lock ttls →
    Keeps bound operation → bound ≤ lock ttls'

/-- A proposal that is pending with its body. -/
def Pending (l : Ledger Ttls Operation A) (d : Nat × Proposal Operation A) : Prop :=
  d.1 ∈ l.header.activeIds ∧ l.proposals d.1 = some d.2

omit [OperationPolicy Operation Ttls E] in
theorem pending_of_without {d : Nat × Proposal Operation A} {id : Nat} {ttls : Ttls}
    (h : (l.without id ttls).Pending d) : l.Pending d := by
  obtain ⟨hmem, hbody⟩ := h
  obtain ⟨hne, hmem⟩ := (mem_removeAt _ _ _).mp hmem
  exact ⟨hmem, (update_of_ne hne ..).symm.trans hbody⟩

omit [OperationPolicy Operation Ttls E] in
theorem pending_of_reserve {d : Nat × Proposal Operation A} {p : Proposal Operation A} {hfree}
    (h : Pending ⟨l.header.reserve hfree, update l.proposals l.header.nextId (some p)⟩ d) :
    l.Pending d ∨ d = (l.header.nextId, p) := by
  obtain ⟨id, q⟩ := d
  obtain ⟨hmem, hbody⟩ := h
  dsimp only at hbody
  by_cases hid : id = l.header.nextId
  · subst hid
    rw [update_self] at hbody
    cases hbody
    exact .inr rfl
  · rw [update_of_ne hid] at hbody
    rcases mem_append.mp hmem with hmem | hmem
    · exact .inl ⟨hmem, hbody⟩
    · exact absurd (mem_singleton.mp hmem) hid

/-- Pending proposals were created in the past. -/
def Past (now : Nat) (l : Ledger Ttls Operation A) : Prop :=
  ∀ d, l.Pending d → d.2.createdAt ≤ now

theorem Step.past (h : Step Applies now l done l') (hpast : l.Past now) : l'.Past now := by
  intro d hd
  rcases h.cases with ⟨-, p, hfree, rfl, -, rfl⟩ | ⟨id, ttls, -, rfl, -⟩
  · rcases pending_of_reserve hd with hd | rfl
    · exact hpast d hd
    · exact Nat.le_refl _
  · exact hpast d (pending_of_without hd)

namespace LockRule

/-- The lock of a ledger; the entries are the bodies of the pending ids. -/
def timelock (rule : LockRule Applies) (A : Type) :
    Timelock (Ledger Ttls Operation A) (Nat × Proposal Operation A) where
  lock l := rule.lock l.header.ttls
  Pending := Pending
  maturesAt d := d.2.createdAt + d.2.ttl
  Guarded d := rule.Guarded d.2.operation
  Keeps bound d := rule.Keeps bound d.2.operation

theorem step (rule : LockRule Applies) (h : Step Applies now l done l') (hpast : l.Past now) :
    (rule.timelock A).Step now l done l' := by
  rcases h.cases with ⟨rfl, p, hfree, rfl, hwaits, rfl⟩ | ⟨id, ttls, hmem, rfl, hdone⟩
  · refine .enter (p := (l.header.nextId, p)) (fun d => pending_of_reserve) rfl ?_ ?_
    · intro hguarded
      have hwait := rule.guarded p.operation l.header.ttls hguarded
      exact Nat.add_le_add_left (hwait.trans hwaits) p.createdAt
    · intro bound hbound
      rcases rule.keeps bound p.operation l.header.ttls hbound with hkeeps | hwait
      · exact .inl hkeeps
      · exact .inr (Nat.add_le_add_left (hwait.trans hwaits) p.createdAt)
  · rcases hdone with ⟨rfl, rfl⟩ | ⟨p, rfl, hbody, hmature, happlied⟩
    · exact .withdraw (fun d => pending_of_without) rfl
    · have hcreated : p.createdAt ≤ now := hpast (id, p) ⟨hmem, hbody⟩
      refine .execute ⟨hmem, hbody⟩ ?_ (fun d => pending_of_without) ?_
      · show p.createdAt + p.ttl ≤ now
        omega
      · intro bound hbound hkeeps
        exact rule.applies bound p.operation l.header.ttls ttls happlied hbound hkeeps

theorem run (rule : LockRule Applies) (h : Run Applies l start log now l') (hpast : l.Past start) :
    ∃ entries, (rule.timelock A).Run l start entries now l' ∧
      log = entries.map fun x => ⟨x.1, x.2.1, x.2.2.operation⟩ := by
  suffices l'.Past now ∧ ∃ entries, (rule.timelock A).Run l start entries now l' ∧
      log = entries.map fun x => ⟨x.1, x.2.1, x.2.2.operation⟩ from this.2
  induction h with
  | refl => exact ⟨hpast, [], .refl, rfl⟩
  | idle _ hle ih =>
    obtain ⟨hpast, entries, hrun, rfl⟩ := ih
    refine ⟨fun d hd => (hpast d hd).trans hle, entries, ?_, rfl⟩
    have hrun := hrun.tail hle (.withdraw (fun _ h => h) rfl)
    rwa [Option.toList_none, map_nil, append_nil] at hrun
  | tail _ hle hstep ih =>
    obtain ⟨hpast, entries, hrun, rfl⟩ := ih
    have hpast : Past _ _ := fun d hd => (hpast d hd).trans hle
    refine ⟨hstep.past hpast, _, hrun.tail hle (rule.step hstep hpast), ?_⟩
    rw [map_append, map_map]
    rfl

/-- From a ledger without pending proposals, what a lock guards is executed only after the
time it had at the start. -/
theorem not_outrun (rule : LockRule Applies) (h : Run Applies l start log now l')
    (hnone : l.header.activeIds = []) {x : Execution Operation} (hx : x ∈ log)
    (hguarded : rule.Guarded x.operation) : start + rule.lock l.header.ttls ≤ x.time := by
  have hempty : ∀ d, ¬ (rule.timelock A).Pending l d := by
    rintro d ⟨hmem, -⟩
    rw [hnone] at hmem
    cases hmem
  have hpast : l.Past start := fun d hd => absurd hd (hempty d)
  obtain ⟨entries, hrun, rfl⟩ := rule.run h hpast
  obtain ⟨⟨t, d⟩, hmem, rfl⟩ := mem_map.mp hx
  exact hrun.not_outrun hempty t d hmem hguarded

end LockRule

end Ledger

end Templar.OracleGovernance
