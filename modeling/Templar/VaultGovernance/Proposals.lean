import Templar.VaultGovernance.History

/-!
# Proposals that the vault refuses

Governance queues any change of the restrictions, but the vault takes a change that does not
relax them from the sentinel alone. So a proposal to relax goes through once it has matured,
and one to tighten never does.
-/

namespace Templar.VaultGovernance

open Checked Curator SorobanVault Vault

variable {A σ : Type}

/-- A value of the pause or a list of restrictions. -/
inductive Brake (A : Type) where
  | pause (paused : Bool)
  | restrict (mode : RestrictionMode) (accounts : List A)

namespace Brake

def action : Brake A → GovernanceAction A
  | pause paused => .setPaused paused
  | restrict mode accounts => .setRestrictions mode accounts

variable [DecidableEq A]

/-- The restrictions that a mode and a list of accounts stand for. -/
def proposedRestrictions (mode : RestrictionMode) (accounts : List A) : Option (Restrictions A) :=
  match mode with
  | .none => none
  | .blacklist => some (.blacklist (normalizeMembers accounts))
  | .whitelist => some (.whitelist (normalizeMembers accounts))

/-- The vault has exactly the proposed value. -/
def InForce (b : Brake A) (c : Contract A) : Prop :=
  match b with
  | pause paused => c.paused = paused
  | restrict mode accounts => c.restrictions = proposedRestrictions mode accounts

/-- The restrictions become wider, and are not more than the vault stores. -/
def Relaxes (b : Brake A) (c : Contract A) : Prop :=
  match b with
  | pause _ => True
  | restrict mode accounts =>
    GovernanceRestrictions.determineRelaxed (governanceRestrictions c.restrictions)
      (governanceRestrictions (proposedRestrictions mode accounts)) = true ∧
    (mode = .none ∨ (normalizeMembers accounts).length ≤ sorobanMaxRestrictionAddresses)

theorem restrictionsFromPolicy_asU32 (mode : RestrictionMode) (accounts : List A) :
    restrictionsFromPolicy mode.asU32 accounts = .ok (proposedRestrictions mode accounts) := by
  cases mode <;> rfl

theorem saveRestrictions_proposed {c c' : Contract A} {mode : RestrictionMode} {accounts : List A} :
    CuratorVault.saveRestrictions c (proposedRestrictions mode accounts) = .ok c' ↔
      (mode = .none ∨ (normalizeMembers accounts).length ≤ sorobanMaxRestrictionAddresses) ∧
        c' = { c with restrictions := proposedRestrictions mode accounts } := by
  cases mode <;> simp only [CuratorVault.saveRestrictions, proposedRestrictions, do_ok] <;> simp

variable {host : Host A σ} {l l' : Ledger A σ} {caller : A} {b : Brake A}

/-- What the vault does with a brake that reaches it. -/
def sent (host : Host A σ) (l : Ledger A σ) (caller : A) : Brake A → CallM (Ledger A σ)
  | pause paused => applyPausedPolicy host l caller paused
  | restrict mode accounts => applyRestrictionsPolicy host l caller mode.asU32 accounts

/-- The vault resumes and relaxes for governance. -/
theorem Relaxes.sent (h : b.Relaxes l.contract) (hpause : b ≠ .pause true)
    (hours : l.contract.governance = caller) :
    ∃ l', b.sent host l caller = .ok l' ∧ b.InForce l'.contract := by
  cases b with
  | pause paused =>
    cases paused with
    | false => exact ⟨_, bind_eq_ok.mpr ⟨(), ensure_of hours.symm, rfl⟩, rfl⟩
    | true => exact absurd rfl hpause
  | restrict mode accounts =>
    have hsaved := (saveRestrictions_proposed (c := l.contract)).mpr ⟨h.2, rfl⟩
    refine ⟨_, bind_eq_ok.mpr ⟨_, restrictionsFromPolicy_asU32 mode accounts, (if_pos h.1).trans
      (bind_eq_ok.mpr ⟨(), ensure_of hours.symm, bind_eq_ok.mpr ⟨_, hsaved, rfl⟩⟩)⟩, rfl⟩

/-- Nothing else goes through, unless the caller is the sentinel. -/
theorem relaxes_of_sent (h : b.sent host l caller = .ok l') :
    b.Relaxes l.contract ∨ l.contract.sentinel = some caller := by
  cases b with
  | pause paused => exact .inl trivial
  | restrict mode accounts =>
    simp only [Brake.sent, applyRestrictionsPolicy, restrictionsFromPolicy_asU32, do_ok] at h
    obtain ⟨_, rfl, h⟩ := h
    split at h
    · next hrelaxed =>
      simp only [do_ok] at h
      obtain ⟨-, c, hc, -⟩ := h
      exact .inl ⟨hrelaxed, (saveRestrictions_proposed.mp hc).1⟩
    · simp only [ensureSentinelIdentity, do_ok] at h
      obtain ⟨⟨_, hsentinel, rfl⟩, -⟩ := h
      exact .inr hsentinel

end Brake

variable [DecidableEq A] {link : Link A σ} {timestamp : Nat} {s s' : System A σ}

/-- Accepting a proposal that waits, has matured and not expired is executing it. -/
theorem accept_ready (link : Link A σ) {entry : PendingValue (QueuedProposal A)} {nowNs : Nat}
    (hs : s.governance.Waiting) (hmem : entry ∈ s.governance.loadQueue)
    (hnow : ledgerTimestamp timestamp = .ok nowNs) (hmature : entry.readyAtNs ≤ nowNs)
    (hintime : nowNs ≤ entry.readyAtNs + proposalExecutionWindowNs) :
    ∃ rest, ∀ result, accept link timestamp s s.governance.admin entry.value.id = .ok result ↔
      ∃ s', executeAction link timestamp s entry.value.action = .ok s' ∧
        result = (entry.value.id, ⟨[.accepted entry.value.id entry.value.action],
          { s' with governance := s'.governance.saveQueue rest }⟩) := by
  have hunique : ∀ e ∈ s.governance.loadQueue, e.value.id = entry.value.id → e = entry :=
    fun e he hid => List.inj_on_of_nodup_map hs.order.ids he hmem hid
  have htake : ∃ rest, s.governance.loadQueue.takeByKey nowNs entry.value.id QueuedProposal.id =
      (.ready entry.value, rest) := PendingActions.takeFrom_of_mem hmem hmature hunique
  obtain ⟨rest, hrest⟩ := htake
  have hlive : (s.governance.loadQueue.any fun e =>
      decide (e.value.id = entry.value.id) && expired e nowNs) = false := by
    rw [List.any_eq_false]
    intro e he
    by_cases hid : e.value.id = entry.value.id
    · cases hunique e he hid
      simp only [decide_true, Bool.true_and, expired, decide_eq_true_eq]
      omega
    · simp [hid]
  refine ⟨rest, fun result => ?_⟩
  simp only [accept, requireAdmin, do_ok, hnow, exists_eq_left, hlive, hrest, acceptTaken, true_and]

/-- A brake that governance carries out is sent to the vault, and recorded. -/
theorem executeAction_brake {b : Brake A} (hours : s.ledger.contract.governance = link.address)
    (hactive : s.ledger.contract.migrationInProgress = false) :
    executeAction link timestamp s b.action = .ok s' ↔
      ∃ ledger, b.sent link.host s.ledger link.address = .ok ledger ∧
        s' = { s with ledger, governance := s.governance.recordAction b.action } := by
  have hreached : ∀ command, governancePayloadForAction b.action = some command →
      executeGovernance link.host timestamp s.ledger link.address command =
        b.sent link.host s.ledger link.address := by
    intro command hcommand
    cases b <;> cases hcommand
    all_goals
      unfold executeGovernance governanceCommandCallerKind
      rw [if_pos hours.symm]
      unfold executeGovernanceCommand
      rw [ensure_of hactive]
    case pause paused => cases paused <;> rfl
    case restrict mode accounts => rfl
  have hexecute : executeAction link timestamp s b.action = (do
      let s ← executeVaultGovernanceAction link timestamp s link.address b.action
      return { s with governance := s.governance.recordAction b.action }) := by
    cases b <;> rfl
  have hpayload : ∃ command, governancePayloadForAction b.action = some command := by
    cases b <;> exact ⟨_, rfl⟩
  obtain ⟨command, hcommand⟩ := hpayload
  rw [hexecute, executeVaultGovernanceAction, hcommand]
  simp only [do_ok, orStop_eq_ok, Option.some.injEq, exists_eq_left', hreached command hcommand]
  constructor
  · rintro ⟨_, ⟨ledger, hledger, rfl⟩, rfl⟩
    exact ⟨ledger, hledger, rfl⟩
  · rintro ⟨ledger, hledger, rfl⟩
    exact ⟨_, ⟨ledger, hledger, rfl⟩, rfl⟩

theorem decideSubmission_brake {g : Governance A} {b : Brake A} {d : TimelockDecision}
    (h : decideSubmission g timestamp b.action = .ok d) : d = .timelocked ∧ b ≠ .pause true := by
  cases b with
  | pause paused =>
    simp only [decideSubmission, Brake.action, timelockedChange, do_ok] at h
    obtain ⟨rfl, -, rfl⟩ := h
    exact ⟨rfl, by simp⟩
  | restrict mode accounts =>
    simp only [decideSubmission, Brake.action, timelockedChange, do_ok] at h
    obtain ⟨-, rfl⟩ := h
    exact ⟨rfl, by simp⟩

/-- A submission of a brake leaves the vault and the admin as they were, and the proposal in the
queue. -/
theorem submit_brake {b : Brake A} {caller : A} {id : Nat} {done : Done A σ}
    (h : submit link timestamp s caller b.action = .ok (id, done)) :
    caller = done.system.governance.admin ∧ done.system.ledger = s.ledger ∧ b ≠ .pause true ∧
      ∃ readyAtNs, ⟨⟨id, b.action⟩, readyAtNs⟩ ∈ done.system.governance.loadQueue := by
  simp only [submit, requireAdmin, nextProposalId, do_ok] at h
  obtain ⟨hadmin, -, -, decision, hdecided, nowNs, -, -, _, ⟨_, -, rfl⟩, h⟩ := h
  obtain ⟨rfl, hpause⟩ := decideSubmission_brake hdecided
  cases h
  refine ⟨hadmin, rfl, hpause, saturatingAdd 64 nowNs (submissionTimelock s.governance b.action), ?_⟩
  rw [Governance.mem_loadQueue_saveQueue]
  exact List.mem_append_right _ List.mem_cons_self

/-- Whatever the two contracts have come to, a proposal to resume or to relax the restrictions
is accepted at any time from when it is ready until a week later, if nothing but the rest of the
ledger has changed in between, and the vault then has exactly what was proposed. No other brake
is, unless the governance contract is the vault's sentinel. -/
theorem queued_brake_is_accepted (hs : Reachable link s)
    (hours : s.ledger.contract.governance = link.address)
    (hactive : s.ledger.contract.migrationInProgress = false) (b : Brake A) (caller : A) (id : Nat)
    (done : Done A σ) (h : submit link timestamp s caller b.action = .ok (id, done)) :
    ∃ entry ∈ done.system.governance.loadQueue, entry.value = ⟨id, b.action⟩ ∧
      ∀ (world : σ) (later nowNs : Nat), ledgerTimestamp later = .ok nowNs →
        entry.readyAtNs ≤ nowNs → nowNs ≤ entry.readyAtNs + proposalExecutionWindowNs →
        (b.Relaxes s.ledger.contract →
          ∃ done', accept link later (done.system.step link (.world world)) caller id =
            .ok (id, done') ∧ b.InForce done'.system.ledger.contract) ∧
        ((∃ result, accept link later (done.system.step link (.world world)) caller id =
            .ok result) →
          b.Relaxes s.ledger.contract ∨ s.ledger.contract.sentinel = some link.address) := by
  obtain ⟨hadmin, hledger, hpause, readyAtNs, hmem⟩ := submit_brake h
  refine ⟨_, hmem, rfl, ?_⟩
  intro world later nowNs hnow hmature hintime
  have hwaiting : (done.system.step link (.world world)).governance.Waiting :=
    (submit_did h).waiting hs.waiting
  have hcontract : (done.system.step link (.world world)).ledger.contract = s.ledger.contract :=
    show done.system.ledger.contract = _ from congrArg Ledger.contract hledger
  rw [← hcontract] at hours hactive ⊢
  obtain ⟨rest, haccept⟩ := accept_ready link hwaiting hmem hnow hmature hintime
  have hadmin : caller = (done.system.step link (.world world)).governance.admin := hadmin
  simp only [hadmin, haccept, executeAction_brake hours hactive]
  constructor
  · intro hrelaxes
    obtain ⟨l', hl', hforce⟩ := hrelaxes.sent hpause hours
    exact ⟨_, ⟨_, ⟨l', hl', rfl⟩, rfl⟩, hforce⟩
  · rintro ⟨_, _, ⟨l', hl', -⟩, -⟩
    exact Brake.relaxes_of_sent hl'

theorem Fresh.created {timelockNs : UInt64} {s : System Nat Int} (h : Fresh timelockNs s) :
    Created sampleLink s :=
  ⟨⟨0, 5, timelockNs, h.1⟩, ⟨0, 3, 10, 11, 0, 0, 0, 0, h.2⟩⟩

/-- A sentinel is named and lets nobody but itself in. -/
def restricting : List (Step Nat Int) :=
  [.governance 0 (.submit 5 (.setSentinel 7)), .governance 0 (.setRestrictions 7 .whitelist [7])]

theorem queued_brake_is_accepted_whitelist : ∃ s₀ done, Fresh 0 s₀ ∧
    (s₀.run sampleLink restricting).ledger.contract.restrictions = some (.whitelist [7]) ∧
    submit sampleLink 0 (s₀.run sampleLink restricting) 5 (.setRestrictions .whitelist [7, 8]) =
      .ok (2, done) ∧
    ∃ done', accept sampleLink 1 done.system 5 2 = .ok (2, done') ∧
      done'.system.ledger.contract.restrictions = some (.whitelist [7, 8]) := by
  obtain ⟨s₀, hs₀⟩ : ∃ s₀, Fresh 0 s₀ := ⟨⟨_, _⟩, rfl, rfl⟩
  have hrun : (s₀.run sampleLink restricting).ledger.contract.restrictions = some (.whitelist [7]) ∧
      (s₀.run sampleLink restricting).ledger.contract.governance = 2 ∧
      (s₀.run sampleLink restricting).ledger.contract.migrationInProgress = false ∧
      ∃ r, submit sampleLink 0 (s₀.run sampleLink restricting) 5 (.setRestrictions .whitelist [7, 8]) =
          .ok r ∧ r.1 = 2 ∧
        r.2.system.governance.loadQueue = [⟨⟨2, .setRestrictions .whitelist [7, 8]⟩, 0⟩] := by
    obtain ⟨g, l⟩ := s₀
    cases hs₀.1
    cases hs₀.2
    decide +kernel
  obtain ⟨hlist, hours, hactive, ⟨id, done⟩, hdone, rfl, hqueue⟩ := hrun
  refine ⟨s₀, done, hs₀, hlist, hdone, ?_⟩
  obtain ⟨entry, hmem, -, haccept⟩ := queued_brake_is_accepted ⟨s₀, restricting, hs₀.created, rfl⟩
    hours hactive (.restrict .whitelist [7, 8]) 5 2 done hdone
  have hrelaxes : (Brake.restrict .whitelist [7, 8]).Relaxes
      (s₀.run sampleLink restricting).ledger.contract := by
    unfold Brake.Relaxes
    rw [hlist]
    decide
  rw [hqueue, List.mem_singleton] at hmem
  cases hmem
  exact (haccept done.system.ledger.world 1 1000000000 rfl (by decide) (by decide)).1 hrelaxes

/-- With nothing restricted and both contracts agreeing on it, a proposal of a whitelist is
queued, and the vault refuses it when it is ready. -/
theorem queued_brake_is_refused : ∃ s done, Fresh 0 s ∧
    s.governance.currentPaused = s.ledger.contract.paused ∧
    restrictionSnapshot s.governance.currentRestrictionMode s.governance.currentRestrictionAccounts =
      governanceRestrictions s.ledger.contract.restrictions ∧
    s.ledger.contract.governance = sampleLink.address ∧
    s.ledger.contract.migrationInProgress = false ∧
    submit sampleLink 0 s 5 (Brake.restrict .whitelist [7]).action = .ok (1, done) ∧
    done.system.governance.loadQueue = [⟨⟨1, .setRestrictions .whitelist [7]⟩, 0⟩] ∧
    accept sampleLink 1 done.system 5 1 = .error .trap :=
  ⟨⟨_, _⟩, _, ⟨rfl, rfl⟩, rfl, rfl, rfl, rfl, rfl, rfl, rfl⟩

/-- Whatever the two contracts have come to, the queue read back from the pages is short, its ids
are distinct and have been given out, and no two of its proposals have the same key. -/
theorem pending_proposals_in_order (h : Reachable link s) :
    let queue := s.governance.loadQueue
    queue.length ≤ 64 ∧ (queue.map fun e => e.value.id).Nodup ∧
      (∀ e ∈ queue, e.value.id < s.governance.nextProposalId) ∧
      (queue.map fun e => e.value.actionKey).Nodup := by
  obtain ⟨hids, hfresh, hkeys, hfew⟩ := h.waiting.order
  exact ⟨hfew, hids, hfresh, hkeys⟩

/-- Three proposals, of which the last is about the same thing as the first. -/
def proposing : List (Step Nat Int) :=
  [.governance 0 (.submit 5 (.setAdmin 6)), .governance 1 (.submit 5 (.setRestrictions .whitelist [7])),
    .governance 2 (.submit 5 (.setAdmin 8))]

theorem pending_proposals_in_order_replaced : ∃ s, Fresh 0 s ∧
    (s.run sampleLink proposing).governance.loadQueue.map (fun e => e.value) =
      [⟨2, .setRestrictions .whitelist [7]⟩, ⟨3, .setAdmin 8⟩] ∧
    ((s.run sampleLink proposing).governance.loadQueue.map fun e => e.value.id).Nodup ∧
    ((s.run sampleLink proposing).governance.loadQueue.map fun e => e.value.actionKey).Nodup := by
  obtain ⟨s, hs⟩ : ∃ s, Fresh 0 s := ⟨⟨_, _⟩, rfl, rfl⟩
  obtain ⟨-, hids, -, hkeys⟩ :=
    pending_proposals_in_order ⟨s, proposing, hs.created, rfl⟩
  refine ⟨s, hs, ?_, hids, hkeys⟩
  obtain ⟨g, l⟩ := s
  cases hs.1
  cases hs.2
  decide +kernel

end Templar.VaultGovernance
