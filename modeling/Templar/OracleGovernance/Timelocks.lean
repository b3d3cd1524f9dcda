import Templar.OracleGovernance.NearRuns
import Templar.OracleGovernance.Soroban

/-!
# Timelocks cannot be outrun

The locks are changed by proposals that the locks delay. Both contracts are runs of the
ledger, and both policies follow its rule for locks, so that no chain of edits makes a call
or an edit happen before the lock it had at the start has passed.
-/

namespace Templar.OracleGovernance

open Checked Function

namespace Soroban

variable {A Asset : Type}

def Applies : GovernanceAction A Asset → TtlConfig → TtlConfig → Prop
  | .setActionTtl kind newTtlNs, ttls, ttls' => ttls' = update ttls kind newTtlNs
  | _, ttls, ttls' => ttls' = ttls

def Keeps (kind : OperationKind) (bound : Nat) : GovernanceAction A Asset → Prop
  | .setActionTtl other newTtlNs => other = kind → bound ≤ newTtlNs
  | _ => True

variable [DecidableEq A]

omit [DecidableEq A] in
theorem le_minimumTtl (ttls : TtlConfig) (action : GovernanceAction A Asset) :
    ttls action.kind ≤ action.minimumTtl ttls := by
  cases action
  case setActionTtl => exact Nat.le_max_left _ _
  all_goals exact Nat.le_refl _

def actionLock (kind : OperationKind) :
    Ledger.LockRule (Applies : GovernanceAction A Asset → TtlConfig → TtlConfig → Prop) where
  lock ttls := ttls kind
  Guarded action := action.kind = kind
  Keeps := Keeps kind
  guarded := by
    rintro action ttls rfl
    exact le_minimumTtl ttls action
  keeps := by
    intro bound action ttls hbound
    cases action
    case setActionTtl other newTtlNs =>
      by_cases heq : other = kind
      · subst heq
        exact .inr (hbound.trans (Nat.le_max_right _ _))
      · exact .inl fun h => absurd h heq
    all_goals exact .inl trivial
  applies := by
    intro bound action ttls ttls' happlies hbound hkeeps
    cases action
    case setActionTtl other newTtlNs =>
      cases happlies
      by_cases heq : kind = other
      · subst heq
        rw [update_self]
        exact hkeeps rfl
      · rwa [update_of_ne heq]
    all_goals exact happlies ▸ hbound

variable {S : Type} [RoleStore S A Role]

namespace Contract

variable {c c' : Contract S A Asset} {env : Env A Asset} {caller : A} {id : Nat}

omit [DecidableEq A] in
theorem now_eq_ok {now : Nat} (h : env.now = .ok now) : now = env.timestamp * 1000000000 := by
  unfold Env.now at h
  rw [okOr_eq_ok, checkedMul_eq_some] at h
  exact h.2

omit [DecidableEq A] in
theorem executeAction_eq_ok {action : GovernanceAction A Asset}
    (h : c.executeAction env action = .ok c') :
    ∃ ttls, Applies action c.header.ttls ttls ∧
      c'.toLedger = ⟨c.header.setTtls ttls, c.proposals⟩ := by
  cases action
  case setActionTtl kind newTtlNs =>
    cases h
    exact ⟨_, rfl, rfl⟩
  case setRole account role set =>
    refine ⟨c.header.ttls, rfl, ?_⟩
    simp only [executeAction, revoke] at h
    split at h
    · cases h
      rfl
    split at h
    · cases h
      rfl
    split at h
    · cases h
    · cases h
      rfl
  all_goals
    obtain ⟨_, -, rfl, rfl⟩ := bind_eq_ok.mp h
    exact ⟨c.header.ttls, rfl, rfl⟩

theorem executeProposal_eq_ok {operation : GovernanceAction A Asset}
    (h : c.executeProposal env caller id = .ok (operation, c')) :
    ∃ p header ttls, c.proposals id = some p ∧ p.operation = operation ∧
      c.header.execute id p (env.timestamp * 1000000000) = .ok header ∧
      Applies operation c.header.ttls ttls ∧
      c'.toLedger = ⟨header.setTtls ttls, update c.proposals id none⟩ := by
  unfold executeProposal at h
  simp only [do_ok] at h
  obtain ⟨p, hbody, -, now, hnow, header, hexecute, c₁, haction, rfl, rfl⟩ := h
  cases now_eq_ok hnow
  obtain ⟨ttls, happlies, hledger⟩ := executeAction_eq_ok haction
  obtain ⟨-, -, hheader⟩ := Governance.execute_eq_ok hexecute
  refine ⟨p, header, ttls, hbody, rfl, hexecute, ?_, ?_⟩
  · rw [hheader] at happlies
    exact happlies
  · rw [hledger]

end Contract

namespace World

theorem step_cases (w : World S A Asset) (event : Event A Asset) : w.step event = w ∨
      ∃ done, Ledger.Step Applies event.time w.contract.toLedger done
          (w.step event).contract.toLedger ∧
        (w.step event).log =
          w.log ++ done.toList.map fun d => ⟨event.time, d.1, d.2.operation⟩ := by
  obtain ⟨env, call⟩ := event
  cases call with
  | create caller id operation requestedTtl =>
    simp only [step]
    split
    · next c' h =>
      simp only [Contract.createProposal, do_ok] at h
      obtain ⟨-, -, now, hnow, ⟨p, header⟩, hcreate, -, _, -, rfl⟩ := h
      cases Contract.now_eq_ok hnow
      exact .inr ⟨none, .create hcreate, (List.append_nil _).symm⟩
    · exact .inl rfl
  | cancel caller id =>
    simp only [step]
    split
    · next c' h =>
      simp only [Contract.cancelProposal, do_ok] at h
      obtain ⟨_, -, -, header, hcancel, rfl⟩ := h
      exact .inr ⟨none, .cancel hcancel, (List.append_nil _).symm⟩
    · exact .inl rfl
  | execute caller id =>
    simp only [step]
    split
    · next operation c' h =>
      obtain ⟨p, header, ttls, hbody, rfl, hexecute, happlies, hledger⟩ :=
        Contract.executeProposal_eq_ok h
      refine .inr ⟨some (id, p), ?_, rfl⟩
      rw [hledger]
      exact .execute hbody hexecute happlies
    · exact .inl rfl

theorem ledgerRun {events : List (Event A Asset)} {start : Nat} (h : Timed start events)
    (c : Contract S A Asset) :
    ∃ now, Ledger.Run Applies c.toLedger start ((⟨c, []⟩ : World S A Asset).run events).log now
      ((⟨c, []⟩ : World S A Asset).run events).contract.toLedger :=
  Ledger.Run.foldl Event.time (fun w : World S A Asset => w.contract.toLedger)
    (fun w => w.log) step_cases h .refl

end World

end Soroban

/-- From a contract without pending proposals, over every run at nondecreasing times: on NEAR
a call of a method, or an operation on the governance, is executed only after the time its
lock had at the start; on Soroban so is every action; and no proposal is executed twice. -/
theorem timelocks_cannot_be_outrun {S T AccountId A Asset : Type} [DecidableEq A]
    [RoleStore S AccountId Near.Role] [RoleStore T A Soroban.Role] :
    (∀ (c : Near.Contract S AccountId) (start : Nat) (events : List (Near.Event AccountId)),
      c.header.activeIds = [] → Near.Timed start events →
      let log := ((⟨c, []⟩ : Near.World S AccountId).run events).log
      (∀ x ∈ log, ∀ call, x.operation = .targetFunctionCall call →
        start + (c.header.ttls.resolve call.methodName).ttl ≤ x.time) ∧
      (∀ x ∈ log, ∀ operation, x.operation = .reflexive operation →
        start + c.header.ttls.reflexiveTtls.get operation.kind ≤ x.time) ∧
      (log.map (·.id)).Nodup) ∧
    ∀ (c : Soroban.Contract T A Asset) (start : Nat)
      (events : List (Soroban.Event A Asset)),
      c.header.activeIds = [] → Soroban.Timed start events →
      let log := ((⟨c, []⟩ : Soroban.World T A Asset).run events).log
      (∀ x ∈ log, start + c.header.ttls x.operation.kind ≤ x.time) ∧ (log.map (·.id)).Nodup := by
  constructor
  · intro c start events hnone htimed log
    obtain ⟨now, hrun⟩ := Near.World.ledgerRun htimed c
    refine ⟨?_, ?_, hrun.nodup_ids⟩
    · intro x hx call hcall
      exact (Near.methodLock call.methodName).not_outrun hrun hnone hx ⟨call, hcall, rfl⟩
    · intro x hx operation hoperation
      exact (Near.reflexiveLock operation.kind).not_outrun hrun hnone hx ⟨operation, hoperation, rfl⟩
  · intro c start events hnone htimed log
    obtain ⟨now, hrun⟩ := Soroban.World.ledgerRun htimed c
    refine ⟨?_, hrun.nodup_ids⟩
    intro x hx
    exact (Soroban.actionLock x.operation.kind).not_outrun hrun hnone hx rfl

/-- A shortened lock does not help: the call is executed when the old lock has passed, not
before. -/
theorem timelocks_cannot_be_outrun_example :
    ∃ policy, Near.GovernancePolicy.uniform 10 = .ok policy ∧
      ∃ x ∈ ((⟨.new 7 1 policy, []⟩ : Near.World (Near.Role → Finset Nat) Nat).run
          [⟨⟨1, 1, 0⟩, .create 0 (.reflexive (.setTargetDefault ⟨2, .admin⟩)) 0⟩,
            ⟨⟨1, 1, 10⟩, .execute 0⟩,
            ⟨⟨1, 1, 10⟩, .create 1 (.targetFunctionCall ⟨"admin_upgrade", [], 0, 1⟩) 0⟩,
            ⟨⟨1, 1, 11⟩, .execute 1⟩, ⟨⟨1, 1, 12⟩, .execute 1⟩, ⟨⟨1, 1, 12⟩, .execute 1⟩]).log,
        x.id = 1 ∧ x.time = 12 ∧ 0 + 10 ≤ x.time := by
  let policy : Near.GovernancePolicy := ⟨⟨⟨10, 10, 10⟩, ⟨10, .admin⟩, ∅⟩, by simp, by decide⟩
  have hparse : Near.GovernancePolicy.uniform 10 = .ok policy := by decide +kernel
  obtain ⟨hcalls, -⟩ := (@timelocks_cannot_be_outrun (Near.Role → Finset Nat) (Soroban.Role → Finset Nat) Nat Nat Nat
    _ _ _).1 (.new 7 1 policy) 0
    [⟨⟨1, 1, 0⟩, .create 0 (.reflexive (.setTargetDefault ⟨2, .admin⟩)) 0⟩,
      ⟨⟨1, 1, 10⟩, .execute 0⟩,
      ⟨⟨1, 1, 10⟩, .create 1 (.targetFunctionCall ⟨"admin_upgrade", [], 0, 1⟩) 0⟩,
      ⟨⟨1, 1, 11⟩, .execute 1⟩, ⟨⟨1, 1, 12⟩, .execute 1⟩, ⟨⟨1, 1, 12⟩, .execute 1⟩]
    rfl (by simp [Near.Timed])
  refine ⟨policy, hparse, ⟨12, 1, .targetFunctionCall ⟨"admin_upgrade", [], 0, 1⟩⟩, ?_, rfl, rfl, ?_⟩
  · decide +kernel
  · exact hcalls _ (by decide +kernel) _ rfl

end Templar.OracleGovernance
