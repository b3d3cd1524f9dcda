import Templar.VaultGovernance.Queue

/-!
# What a call of governance can do

`Did` lists everything that a successful call of the governance contract has done, with the
action it carried out, if any, and what it reported. Invariants are proved of it and not of the
calls. A `Step` is a call of one of the two contracts, or any change of the rest of the ledger;
a call that fails changes nothing.
-/

namespace Templar.VaultGovernance

open Checked Curator SorobanVault PendingActions Function

variable {A σ : Type}

section

variable [DecidableEq A] {caller : A} {action : GovernanceAction A}
  {id proposalId : Nat} {call : GovernanceCall A} {kind : GovernanceActionKind}
  {events : List (Event A)} {s' : System A σ} {a : Option (GovernanceAction A)}

/-- The governance contract after it has given out an id. -/
def Governance.numbered (g : Governance A) : Governance A :=
  { g with nextProposalId := g.nextProposalId + 1 }

/-- The proposals that wait under another key than an action's. -/
def Governance.others (g : Governance A) (action : GovernanceAction A) :
    PendingActions (QueuedProposal A) :=
  g.loadQueue.filter fun e => !decide (e.value.actionKey = action.pendingKey)

/-- The ids of the proposals that an action takes the place of. -/
def Governance.replacedIds (g : Governance A) (action : GovernanceAction A) : List Nat :=
  (g.loadQueue.filter fun e => decide (e.value.actionKey = action.pendingKey)).map fun e => e.value.id

/-- A submission that has passed the checks for the given decision. -/
structure Submitted (link : Link A σ) (timestamp : Nat) (s : System A σ)
    (action : GovernanceAction A) (nowNs : Nat) (decision : TimelockDecision) : Prop where
  allowed : s.governance.abdicated action.actionKind = false
  valid : validateAction link s.ledger.world action = .ok ()
  decided : decideSubmission s.governance timestamp action = .ok decision
  now : ledgerTimestamp timestamp = .ok nowNs
  next : s.governance.nextProposalId + 1 < 2 ^ 64

/-- What the sentinel may do without a proposal. -/
inductive ByHand (g : Governance A) : GovernanceAction A → Prop
  | pause : ByHand g (.setPaused true)
  | restrict {mode accounts} (tighter : GovernanceRestrictions.determineRelaxed
        (restrictionSnapshot g.currentRestrictionMode g.currentRestrictionAccounts)
        (restrictionSnapshot mode accounts) = false) : ByHand g (.setRestrictions mode accounts)

inductive Did (link : Link A σ) (timestamp : Nat) (s : System A σ) :
    Option (GovernanceAction A) → List (Event A) → System A σ → Prop
  | queued {action : GovernanceAction A} {nowNs}
      (submitted : Submitted link timestamp s action nowNs .timelocked)
      (room : s.governance.loadQueue.hasPendingKey action.pendingKey QueuedProposal.actionKey = true ∨
        s.governance.loadQueue.length < maxPendingProposals) :
      Did link timestamp s none
        ((s.governance.replacedIds action).map .revoked ++ [.submitted s.governance.nextProposalId action
          (saturatingAdd 64 nowNs (submissionTimelock s.governance action))])
        { s with
          governance := s.governance.numbered.saveQueue (s.governance.others action ++
            [⟨⟨s.governance.nextProposalId, action⟩,
              saturatingAdd 64 nowNs (submissionTimelock s.governance action)⟩]) }
  | immediate {action nowNs g s'} (submitted : Submitted link timestamp s action nowNs .immediate)
      (replaced : g = s.governance.numbered ∧ s.governance.others action = s.governance.loadQueue ∨
        g = s.governance.numbered.saveQueue (s.governance.others action))
      (done : executeAction link timestamp { s with governance := g } action = .ok s') :
      Did link timestamp s (some action)
        ((s.governance.replacedIds action).map .revoked ++ [.submitted s.governance.nextProposalId action 0,
          .accepted s.governance.nextProposalId action]) s'
  | accepted {before after} {entry : PendingValue (QueuedProposal A)} {nowNs} {s' : System A σ}
      (split : s.governance.loadQueue = before ++ entry :: after)
      (now : ledgerTimestamp timestamp = .ok nowNs) (mature : entry.readyAtNs ≤ nowNs)
      (inTime : nowNs - entry.readyAtNs ≤ proposalExecutionWindowNs)
      (done : executeAction link timestamp s entry.value.action = .ok s') :
      Did link timestamp s (some entry.value.action) [.accepted entry.value.id entry.value.action]
        { s' with governance := s'.governance.saveQueue (before ++ after) }
  | revoked {keep} {gone : List Nat}
      (removed : ∀ id, id ∈ gone ↔ ∃ e ∈ s.governance.loadQueue, keep e = false ∧ e.value.id = id) :
      Did link timestamp s none (gone.map .revoked)
        { s with governance := s.governance.saveQueue (s.governance.loadQueue.filter keep) }
  | approval {approvals} : Did link timestamp s none []
        { s with governance := { s.governance with approvedOtherUntil := approvals } }
  | byHand {caller : A} {action : GovernanceAction A} {s' : System A σ}
      (sentinel : s.governance.sentinel = some caller)
      (allowed : s.governance.abdicated action.actionKind = false) (hand : ByHand s.governance action)
      (done : executeVaultGovernanceAction link timestamp s caller action = .ok s') :
      Did link timestamp s (some action) []
        { s' with governance := s'.governance.recordAction action }
  | abdicated {kind : GovernanceActionKind} : Did link timestamp s none []
        { s with
          governance := { s.governance with
            abdicated := update s.governance.abdicated kind true } }
  | nothing : Did link timestamp s none [] s

def Event.acceptedAction : Event A → Option (GovernanceAction A)
  | .accepted _ action => some action
  | _ => none

/-- The action that a call has carried out: that of a proposal it reports as accepted, or the
sentinel's own. -/
def executed (call : GovernanceCall A) (done : Done A σ) : Option (GovernanceAction A) :=
  match call with
  | .setPaused _ paused => some (.setPaused paused)
  | .setRestrictions _ mode accounts => some (.setRestrictions mode accounts)
  | _ => done.events.findSome? Event.acceptedAction

variable {link : Link A σ} {timestamp : Nat} {s : System A σ} {done : Done A σ}

omit [DecidableEq A] in
theorem findSome_revoked (gone : List Nat) (events : List (Event A)) :
    (gone.map Event.revoked ++ events).findSome? Event.acceptedAction =
      events.findSome? Event.acceptedAction := by
  rw [List.findSome?_append, List.findSome?_eq_none_iff.mpr, Option.none_or]
  intro e he
  obtain ⟨_, -, rfl⟩ := List.mem_map.mp he
  rfl

theorem map_revoked (g : Governance A) (action : GovernanceAction A) :
    ((g.loadQueue.filter fun e => decide (e.value.actionKey = action.pendingKey)).map
      PendingValue.value).map (fun p => (.revoked p.id : Event A)) =
      (g.replacedIds action).map .revoked := by
  simp [Governance.replacedIds]

/-- Nothing is written when nothing waits under the key. -/
theorem replaced_cases (g : Governance A) (action : GovernanceAction A) :
    let kept := if ((g.loadQueue.filter fun e => decide (e.value.actionKey = action.pendingKey)).map
      PendingValue.value).isEmpty then g.numbered else g.numbered.saveQueue (g.others action)
    kept = g.numbered ∧ g.others action = g.loadQueue ∨
      kept = g.numbered.saveQueue (g.others action) := by
  intro kept
  by_cases hempty : ((g.loadQueue.filter fun e => decide (e.value.actionKey = action.pendingKey)).map
      PendingValue.value).isEmpty = true
  · refine .inl ⟨if_pos hempty, ?_⟩
    rw [List.isEmpty_iff, List.map_eq_nil_iff, List.filter_eq_nil_iff] at hempty
    apply List.filter_eq_self.mpr
    intro e he
    simpa using hempty e he
  · exact .inr (if_neg hempty)

theorem submit_did (h : submit link timestamp s caller action = .ok (id, done)) :
    Did link timestamp s (executed (.submit caller action) done) done.events done.system := by
  simp only [submit, requireNotAbdicated, nextProposalId, do_ok] at h
  obtain ⟨-, hallowed, hvalid, decision, hdecided, nowNs, hnow, hroom, _, ⟨_, ⟨hnext, rfl⟩, rfl⟩, h⟩ := h
  have hsubmitted : Submitted link timestamp s action nowNs decision :=
    ⟨hallowed, hvalid, hdecided, hnow, hnext⟩
  cases decision with
  | timelocked =>
    simp only [submitTimelocked, scheduleReplacing, revokeByKey,
      schedule, Except.ok.injEq, Prod.mk.injEq, map_revoked] at h
    obtain ⟨-, rfl⟩ := h
    simp only [reduceCtorEq, false_or] at hroom
    unfold executed
    rw [findSome_revoked]
    exact .queued hsubmitted hroom
  | immediate =>
    simp only [submitImmediate, revokeByKey, do_ok, map_revoked] at h
    obtain ⟨s', hs', -, rfl⟩ := h
    unfold executed
    rw [findSome_revoked]
    exact .immediate hsubmitted (replaced_cases s.governance action) hs'

/-- Under its id or its kind, the proposal that is taken has matured and not expired. -/
theorem acceptTaken_did {K : Type} [DecidableEq K] {key : K} {keyOf : QueuedProposal A → K}
    {nowNs : Nat} (hcall : executed call done = done.events.findSome? Event.acceptedAction)
    (hnow : ledgerTimestamp timestamp = .ok nowNs) (hexpired : (s.governance.loadQueue.any fun e =>
      decide (keyOf e.value = key) && expired e nowNs) = false)
    (h : acceptTaken link timestamp s (s.governance.loadQueue.takeByKey nowNs key keyOf) =
      .ok (id, done)) : Did link timestamp s (executed call done) done.events done.system := by
  rw [hcall]
  unfold acceptTaken at h
  split at h
  · next proposal rest htake =>
    simp only [do_ok] at h
    obtain ⟨s', hs', -, rfl⟩ := h
    obtain ⟨before, entry, after, hsplit, rfl, rfl, hkey, hmature⟩ := takeFrom_eq_ready htake
    refine .accepted hsplit hnow hmature ?_ hs'
    rw [List.any_eq_false] at hexpired
    have hlive := hexpired entry (hsplit ▸ List.mem_append_right _ List.mem_cons_self)
    simpa [hkey, expired] using hlive
  · cases h
  · cases h

theorem accept_did (h : accept link timestamp s caller proposalId = .ok (id, done)) :
    Did link timestamp s (executed (.accept caller proposalId) done) done.events done.system := by
  simp only [accept, do_ok] at h
  obtain ⟨-, nowNs, hnow, hexpired, h⟩ := h
  exact acceptTaken_did rfl hnow hexpired h

theorem acceptKind_did (h : acceptKind link timestamp s caller kind = .ok (id, done)) :
    Did link timestamp s (executed (.acceptKind caller kind) done) done.events done.system := by
  simp only [acceptKind, do_ok] at h
  obtain ⟨-, nowNs, hnow, -, hexpired, h⟩ := h
  exact acceptTaken_did rfl hnow hexpired h

/-- Proposals under a key leave the queue, and their ids are reported. -/
theorem revokeByKey_did {K : Type} [DecidableEq K] {key : K} {keyOf : QueuedProposal A → K}
    {gone : List Nat} (h : ∀ id, id ∈ gone ↔
      ∃ e ∈ s.governance.loadQueue, keyOf e.value = key ∧ e.value.id = id) :
    Did link timestamp s none (gone.map .revoked)
      { s with
        governance := s.governance.saveQueue (s.governance.loadQueue.revokeByKey key keyOf).2 } := by
  refine .revoked fun id => (h id).trans ?_
  simp

theorem revoke_did (h : revoke s caller proposalId = .ok done) :
    Did link timestamp s none done.events done.system := by
  simp only [revoke, do_ok] at h
  obtain ⟨entry, hentry, -, -, rfl⟩ := h
  have hid : entry.value.id = proposalId := by
    simpa using List.find?_some hentry
  have hgone : ∀ id, id ∈ [proposalId] ↔ ∃ e ∈ s.governance.loadQueue,
      QueuedProposal.id e.value = proposalId ∧ e.value.id = id := by
    intro id
    rw [List.mem_singleton]
    constructor
    · rintro rfl
      exact ⟨entry, List.mem_of_find?_eq_some hentry, hid, hid⟩
    · rintro ⟨e, -, rfl, rfl⟩
      rfl
  exact revokeByKey_did hgone

theorem revokeKind_did (h : revokeKind s caller kind = .ok done) :
    Did link timestamp s none done.events done.system := by
  simp only [revokeKind, do_ok] at h
  obtain ⟨-, -, hone, proposal, hproposal, rfl⟩ := h
  -- at most one proposal of the kind waits, so it is the one whose id is reported
  have hfilter : ∃ entry, s.governance.loadQueue.filter (fun e => decide (e.value.kind = kind)) =
      [entry] ∧ entry.value = proposal := by
    simp only [revokeByKey] at hproposal
    rw [matching, List.countP_eq_length_filter] at hone
    cases hlist : s.governance.loadQueue.filter (fun e => decide (e.value.kind = kind)) with
    | nil =>
      rw [hlist] at hproposal
      cases hproposal
    | cons entry rest =>
      rw [hlist] at hproposal hone
      have hrest : rest = [] := by simpa using hone
      rw [hrest]
      exact ⟨entry, rfl, Option.some.inj hproposal⟩
  obtain ⟨entry, hfilter, rfl⟩ := hfilter
  have hgone : ∀ id, id ∈ [entry.value.id] ↔ ∃ e ∈ s.governance.loadQueue,
      QueuedProposal.kind e.value = kind ∧ e.value.id = id := by
    intro id
    rw [List.mem_singleton]
    constructor
    · rintro rfl
      have hmem : entry ∈ [entry] := List.mem_singleton_self entry
      rw [← hfilter, List.mem_filter] at hmem
      exact ⟨entry, hmem.1, of_decide_eq_true hmem.2, rfl⟩
    · rintro ⟨e, he, hkind, rfl⟩
      have hmem : e ∈ s.governance.loadQueue.filter fun e => decide (e.value.kind = kind) :=
        List.mem_filter.mpr ⟨he, decide_eq_true hkind⟩
      rw [hfilter, List.mem_singleton] at hmem
      rw [hmem]
  exact revokeByKey_did hgone

theorem revokeOtherPending_did {key : String} {payloadHash : Hash}
    (h : revokeOtherPending s caller key payloadHash = .ok done) :
    Did link timestamp s none done.events done.system := by
  simp only [revokeOtherPending, do_ok] at h
  obtain ⟨-, -, rfl⟩ := h
  have hgone : ∀ id, id ∈ ((s.governance.loadQueue.revokeByKey (.other key payloadHash)
      QueuedProposal.actionKey).1.map QueuedProposal.id) ↔ ∃ e ∈ s.governance.loadQueue,
      QueuedProposal.actionKey e.value = .other key payloadHash ∧ e.value.id = id := by
    intro id
    simp [revokeByKey, and_assoc]
  have hdid : Did link timestamp s none _ _ := revokeByKey_did hgone
  rw [List.map_map] at hdid
  exact hdid

/-- What carries nothing out reports nothing as accepted. -/
theorem Did.executed_none (h : Did link timestamp s none events s') :
    events.findSome? Event.acceptedAction = none := by
  generalize hnone : (none : Option (GovernanceAction A)) = a at h
  cases h with
  | queued => exact findSome_revoked _ _
  | immediate => cases hnone
  | accepted => cases hnone
  | @revoked keep gone =>
    have hgone := findSome_revoked gone ([] : List (Event A))
    rw [List.append_nil] at hgone
    exact hgone
  | approval => rfl
  | byHand => cases hnone
  | abdicated => rfl
  | nothing => rfl

theorem execute_did (h : execute link timestamp s call = .ok done) :
    Did link timestamp s (executed call done) done.events done.system := by
  cases call with
  | submit caller action =>
    simp only [execute, do_ok] at h
    obtain ⟨⟨id, _⟩, h, rfl⟩ := h
    exact submit_did h
  | accept caller proposalId =>
    simp only [execute, do_ok] at h
    obtain ⟨⟨id, _⟩, h, rfl⟩ := h
    exact accept_did h
  | acceptKind caller kind =>
    simp only [execute, do_ok] at h
    obtain ⟨⟨id, _⟩, h, rfl⟩ := h
    exact acceptKind_did h
  | revoke caller proposalId =>
    have hdid : Did link timestamp s none done.events done.system := revoke_did h
    have hnone : executed (.revoke caller proposalId) done = none := hdid.executed_none
    rw [hnone]
    exact hdid
  | revokeKind caller kind =>
    have hdid : Did link timestamp s none done.events done.system := revokeKind_did h
    have hnone : executed (.revokeKind caller kind) done = none := hdid.executed_none
    rw [hnone]
    exact hdid
  | revokeOtherPending caller key payloadHash =>
    have hdid : Did link timestamp s none done.events done.system := revokeOtherPending_did h
    have hnone : executed (.revokeOtherPending caller key payloadHash) done = none := hdid.executed_none
    rw [hnone]
    exact hdid
  | revokeOtherApproved caller key payloadHash =>
    simp only [execute, revokeOtherApproved, do_ok] at h
    obtain ⟨-, -, rfl⟩ := h
    exact .approval
  | consumeOther caller key payloadHash =>
    simp only [execute, consumeOther, do_ok] at h
    obtain ⟨-, -, rfl⟩ := h
    exact .approval
  | setPaused caller paused =>
    simp only [execute, setPaused, requireSentinel, requireNotAbdicated, do_ok] at h
    obtain ⟨hsentinel, rfl, hallowed, s', hs', rfl⟩ := h
    exact .byHand hsentinel hallowed .pause hs'
  | setRestrictions caller mode accounts =>
    simp only [execute, setRestrictions, requireSentinel, requireNotAbdicated, do_ok] at h
    obtain ⟨hsentinel, hallowed, htighter, s', hs', rfl⟩ := h
    exact .byHand hsentinel hallowed (.restrict htighter) hs'
  | abdicate caller kind =>
    simp only [execute, abdicate, do_ok] at h
    obtain ⟨-, rfl⟩ := h
    exact .abdicated
  | extendTtl =>
    cases h
    exact .nothing

/-- An executed action is recorded; only an opaque one leaves an approval. -/
theorem executeAction_governance (h : executeAction link timestamp s action = .ok s') :
    ∃ approvals, s'.governance =
      { s.governance.recordAction action with approvedOtherUntil := approvals } := by
  have hkeep : ∀ g : Governance A,
      g = { g with approvedOtherUntil := g.approvedOtherUntil } := fun _ => rfl
  cases action
  case setAdmin newAdmin =>
    cases h
    exact ⟨_, hkeep _⟩
  case setTimelock kind newTimelockNs =>
    simp only [executeAction, do_ok] at h
    obtain ⟨-, rfl⟩ := h
    exact ⟨_, hkeep _⟩
  case other key payloadHash =>
    simp only [executeAction, do_ok] at h
    obtain ⟨now, -, rfl⟩ := h
    exact ⟨_, rfl⟩
  case upgrade newWasmHash =>
    simp only [executeAction, do_ok] at h
    obtain ⟨ledger, -, rfl⟩ := h
    exact ⟨_, hkeep _⟩
  case migrate =>
    simp only [executeAction, do_ok] at h
    obtain ⟨ledger, -, rfl⟩ := h
    exact ⟨_, hkeep _⟩
  case cancelMigration =>
    simp only [executeAction, do_ok] at h
    obtain ⟨ledger, -, rfl⟩ := h
    exact ⟨_, hkeep _⟩
  all_goals
    simp only [executeAction, executeVaultGovernanceAction, do_ok] at h
    obtain ⟨_, ⟨command, -, ledger, -, rfl⟩, rfl⟩ := h
    exact ⟨_, hkeep _⟩

/-- What the queue is made of, and what has been given up for good. -/
structure SameQueue (g g' : Governance A) : Prop where
  pages : g'.pendingPages = g.pendingPages
  index : g'.pendingPageIndex = g.pendingPageIndex
  next : g'.nextProposalId = g.nextProposalId
  abdicated : g'.abdicated = g.abdicated

omit [DecidableEq A] in
theorem SameQueue.loadQueue {g g' : Governance A} (h : SameQueue g g') :
    g'.loadQueue = g.loadQueue := by
  unfold Governance.loadQueue Governance.loadPendingPage
  rw [h.index, h.pages]

omit [DecidableEq A] in
theorem sameQueue_recordAction (g : Governance A) (action : GovernanceAction A) :
    SameQueue g (g.recordAction action) := by
  cases action <;> exact ⟨rfl, rfl, rfl, rfl⟩

theorem executeAction_sameQueue (h : executeAction link timestamp s action = .ok s') :
    SameQueue s.governance s'.governance := by
  obtain ⟨approvals, hg⟩ := executeAction_governance h
  have hsame := sameQueue_recordAction s.governance action
  rw [hg]
  exact ⟨hsame.pages, hsame.index, hsame.next, hsame.abdicated⟩

theorem executeVaultGovernanceAction_governance
    (h : executeVaultGovernanceAction link timestamp s caller action = .ok s') :
    s'.governance = s.governance := by
  simp only [executeVaultGovernanceAction, do_ok] at h
  obtain ⟨command, -, ledger, -, rfl⟩ := h
  rfl

/-- How a call changes the queue: some proposals leave, and at most one that has just been
submitted, with a new id, joins. -/
theorem Did.mem_loadQueue (h : Did link timestamp s a events s')
    {e : PendingValue (QueuedProposal A)} (he : e ∈ s'.governance.loadQueue) :
    e ∈ s.governance.loadQueue ∨
      ∃ nowNs, Submitted link timestamp s e.value.action nowNs .timelocked ∧
        e.value.id = s.governance.nextProposalId ∧
        e.readyAtNs = saturatingAdd 64 nowNs (submissionTimelock s.governance e.value.action) := by
  cases h with
  | queued submitted room =>
    rw [Governance.mem_loadQueue_saveQueue] at he
    rcases List.mem_append.mp he with he | he
    · exact .inl (List.mem_filter.mp he).1
    · cases List.mem_singleton.mp he
      exact .inr ⟨_, submitted, rfl, rfl⟩
  | immediate submitted replaced done =>
    left
    rw [(executeAction_sameQueue done).loadQueue] at he
    rcases replaced with ⟨rfl, -⟩ | rfl
    · exact he
    · rw [Governance.mem_loadQueue_saveQueue] at he
      exact (List.mem_filter.mp he).1
  | accepted split now mature inTime done =>
    left
    rw [Governance.mem_loadQueue_saveQueue] at he
    rw [split]
    exact (List.sublist_cons_self _ _).append_left _ |>.mem he
  | revoked removed =>
    rw [Governance.mem_loadQueue_saveQueue] at he
    exact .inl (List.mem_filter.mp he).1
  | approval => exact .inl he
  | @byHand caller action s₁ sentinel allowed hand done =>
    left
    rw [(sameQueue_recordAction _ action).loadQueue, executeVaultGovernanceAction_governance done] at he
    exact he
  | abdicated => exact .inl he
  | nothing => exact .inl he

theorem Did.abdicated_mono (h : Did link timestamp s a events s')
    (hkind : s.governance.abdicated kind = true) : s'.governance.abdicated kind = true := by
  cases h with
  | queued submitted room => exact hkind
  | immediate submitted replaced done =>
    rw [(executeAction_sameQueue done).abdicated]
    rcases replaced with ⟨rfl, -⟩ | rfl <;> exact hkind
  | @accepted before after entry nowNs s₁ split now mature inTime done =>
    change s₁.governance.abdicated kind = true
    rw [(executeAction_sameQueue done).abdicated]
    exact hkind
  | revoked removed => exact hkind
  | approval => exact hkind
  | @byHand caller action s₁ sentinel allowed hand done =>
    change (s₁.governance.recordAction action).abdicated kind = true
    rw [(sameQueue_recordAction _ action).abdicated, executeVaultGovernanceAction_governance done]
    exact hkind
  | @abdicated given =>
    change update s.governance.abdicated given true kind = true
    by_cases heq : kind = given
    · rw [heq, update_self]
    · rw [update_of_ne heq]
      exact hkind
  | nothing => exact hkind

end

/-- A call of one of the two contracts, or a change of the rest of the ledger. -/
inductive Step (A σ : Type) where
  | governance (timestamp : Nat) (call : GovernanceCall A)
  | vault (timestamp : Nat) (command : VaultCommand A)
  | command (timestamp : Nat) (caller : A) (command : GovernanceCommand A)
  | upgrade (caller : A)
  | migrate (timestamp : Nat) (caller : A)
  | world (world : σ)

variable [DecidableEq A]

/-- The vault after a call that may have failed. -/
def System.withLedger (s : System A σ) (result : CallM (Ledger A σ)) : System A σ :=
  match result with
  | .ok ledger => { s with ledger }
  | .error _ => s

section

variable (link : Link A σ) (s : System A σ)

def System.step : Step A σ → System A σ
  | .governance timestamp call =>
    match execute link timestamp s call with
    | .ok done => done.system
    | .error _ => s
  | .vault timestamp command =>
    s.withLedger ((executePublicCommand link.host timestamp s.ledger command).map Prod.snd)
  | .command timestamp caller command =>
    s.withLedger (executeGovernance link.host timestamp s.ledger caller command)
  | .upgrade caller => s.withLedger (SorobanVault.upgrade s.ledger caller)
  | .migrate timestamp caller =>
    s.withLedger (SorobanVault.migrate link.host timestamp s.ledger caller)
  | .world world => { s with ledger := { s.ledger with world } }

/-- The action of governance that a step carries out. -/
def System.executes : Step A σ → Option (GovernanceAction A)
  | .governance timestamp call =>
    match execute link timestamp s call with
    | .ok done => executed call done
    | .error _ => none
  | _ => none

end

def System.run (link : Link A σ) (s : System A σ) (steps : List (Step A σ)) :
    System A σ := steps.foldl (System.step link) s

variable {link : Link A σ} {s : System A σ}

omit [DecidableEq A] in
@[simp] theorem governance_withLedger (s : System A σ) (result : CallM (Ledger A σ)) :
    (s.withLedger result).governance = s.governance := by
  unfold System.withLedger
  split <;> rfl

/-- A step is a successful call of governance, or it leaves the governance contract alone. -/
theorem System.step_cases (link : Link A σ) (s : System A σ) (step : Step A σ) :
    (s.executes link step = none ∧ (s.step link step).governance = s.governance) ∨
      ∃ timestamp events, Did link timestamp s (s.executes link step) events (s.step link step) := by
  cases step with
  | governance timestamp call =>
    simp only [System.executes, System.step]
    cases h : execute link timestamp s call with
    | ok done => exact .inr ⟨timestamp, done.events, execute_did h⟩
    | error e => exact .inl ⟨rfl, rfl⟩
  | vault timestamp command | command timestamp caller command | upgrade caller
  | migrate timestamp caller => exact .inl ⟨rfl, governance_withLedger _ _⟩
  | world world => exact .inl ⟨rfl, rfl⟩

/-- What every step keeps, a run keeps. -/
theorem System.run_induct {P : System A σ → Prop} {steps : List (Step A σ)} (hs : P s)
    (hstep : ∀ x, ∀ step ∈ steps, P x → P (x.step link step)) : P (s.run link steps) := by
  refine List.foldlRecOn steps (System.step link) hs ?_
  intro x hx step hmem
  exact hstep x step hmem hx

/-- A ledger with the vault at 1 and governance at 2. -/
def sampleLink : Link Nat Int where
  host := sampleHost
  address := 2

/-- The two contracts as they are created, with the account 5 as admin. -/
def Fresh (timelockNs : UInt64) (s : System Nat Int) : Prop :=
  construct sampleLink 0 5 timelockNs = .ok s.governance ∧
    initializeImpl sampleLink.host none 0 3 2 10 11 0 0 0 0 = .ok s.ledger

end Templar.VaultGovernance
