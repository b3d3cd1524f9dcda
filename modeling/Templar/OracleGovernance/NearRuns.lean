import Templar.OracleGovernance.NearContract

/-!
# Runs of the governance contract on NEAR

Every call that succeeds is a step of the ledger (`World.ledgerRun`). A lock is shortened
only by a proposal that waited for it, which is what `methodLock` and `reflexiveLock` state
of the policy's edits. From a new contract the policy stays within its bounds, an admin is
left, and the bodies are those of the pending ids (`Contract.Sound`); therefore an admin can
always create a proposal while there is room.
-/

namespace Templar.OracleGovernance.Near

open Checked Std GovernancePolicy Function Contract

variable {A : Type} {policy policy' : GovernancePolicy} {method other : String}

/-- How an executed operation changes the policy. -/
def Applies : Operation A → GovernancePolicy → GovernancePolicy → Prop
  | .reflexive (.setReflexiveTtl kind ttl), policy, policy' =>
    policy.setReflexiveTtl kind ttl = .ok policy'
  | .reflexive (.setTargetDefault new), policy, policy' =>
    policy.setTargetDefault new = .ok policy'
  | .reflexive (.setMethodPolicy method new), policy, policy' =>
    policy.setMethodPolicy method new = .ok policy'
  | _, policy, policy' => policy' = policy

/-- An operation after which the lock of a method is at least `bound`, if it was before. -/
def KeepsMethod (method : String) (bound : Nat) : Operation A → Prop
  | .reflexive (.setTargetDefault new) => bound ≤ new.ttl
  | .reflexive (.setMethodPolicy other (some new)) => other = method → bound ≤ new.ttl
  | _ => True

def KeepsReflexive (kind : ReflexiveKind) (bound : Nat) : Operation A → Prop
  | .reflexive (.setReflexiveTtl other ttl) => other = kind → bound ≤ ttl
  | _ => True

theorem le_lockEditTtl {editLock current new bound : Nat} (h : bound ≤ current) :
    bound ≤ new ∨ bound ≤ lockEditTtl editLock current new := by
  unfold lockEditTtl
  split
  · exact .inr (h.trans (Nat.le_max_right _ _))
  · exact .inl (by omega)

/-- The lock of a target method. A reset of its override does not shorten it, because no
override waits longer than the default. -/
def methodLock (method : String) :
    Ledger.LockRule (Applies : Operation A → GovernancePolicy → GovernancePolicy → Prop) where
  lock policy := (policy.resolve method).ttl
  Guarded operation := ∃ call, operation = .targetFunctionCall call ∧ call.methodName = method
  Keeps := KeepsMethod method
  guarded := by
    rintro _ policy ⟨call, rfl, rfl⟩
    exact Nat.le_refl _
  keeps := by
    rintro bound (operation | call) policy hbound
    · cases operation with
      | setTargetDefault new =>
        exact le_lockEditTtl (hbound.trans (policy.resolve_le_default method))
      | setMethodPolicy other new =>
        cases new with
        | none => exact .inl trivial
        | some new =>
          by_cases heq : other = method
          · subst heq
            exact (le_lockEditTtl hbound).imp (fun h _ => h) id
          · exact .inl fun h => absurd h heq
      | setReflexiveTtl kind ttl => exact .inl trivial
      | setRole account role set => exact .inl trivial
      | selfUpgrade code migrateArgs => exact .inl trivial
    · exact .inl trivial
  applies := by
    rintro bound (operation | call) policy policy' happlies hbound hkeeps
    · cases operation with
      | setReflexiveTtl kind ttl =>
        obtain ⟨-, hwire⟩ := setReflexiveTtl_eq_ok happlies
        rw [resolve, hwire]
        exact hbound
      | setTargetDefault new =>
        obtain ⟨-, hwire⟩ := setTargetDefault_eq_ok happlies
        rw [resolve] at hbound ⊢
        rw [hwire]
        cases hentry : policy.methodPolicies[method]? with
        | none => simpa [hentry, KeepsMethod] using hkeeps
        | some entry => simpa [hentry] using hbound
      | setMethodPolicy other new =>
        have hdefault := hbound.trans (policy.resolve_le_default method)
        cases new with
        | some new =>
          rw [resolve, setMethodPolicy_some happlies]
          dsimp only
          rw [ExtTreeMap.getElem?_insert]
          simp only [LawfulEqCmp.compare_eq_iff_eq]
          split
          · next heq => exact hkeeps heq
          · exact hbound
        | none =>
          rw [resolve, setMethodPolicy_none happlies]
          dsimp only
          rw [ExtTreeMap.getElem?_erase]
          simp only [LawfulEqCmp.compare_eq_iff_eq]
          split
          · exact hdefault
          · exact hbound
      | setRole account role set => exact happlies ▸ hbound
      | selfUpgrade code migrateArgs => exact happlies ▸ hbound
    · exact happlies ▸ hbound

/-- The lock of a kind of operations on the governance itself. -/
def reflexiveLock (kind : ReflexiveKind) :
    Ledger.LockRule (Applies : Operation A → GovernancePolicy → GovernancePolicy → Prop) where
  lock policy := policy.reflexiveTtls.get kind
  Guarded operation := ∃ reflexive, operation = .reflexive reflexive ∧ reflexive.kind = kind
  Keeps := KeepsReflexive kind
  guarded := by
    rintro _ policy ⟨operation, rfl, rfl⟩
    show _ ≤ Operation.minimumTtl policy (.reflexive operation)
    unfold Operation.minimumTtl lockEditTtl
    dsimp only
    split
    · split
      · exact Nat.le_max_left _ _
      · exact Nat.le_refl _
    · exact Nat.le_refl _
  keeps := by
    rintro bound (operation | call) policy hbound
    · cases operation with
      | setReflexiveTtl other ttl =>
        by_cases heq : other = kind
        · subst heq
          exact (le_lockEditTtl hbound).imp (fun h _ => h) id
        · exact .inl fun h => absurd h heq
      | setTargetDefault new => exact .inl trivial
      | setMethodPolicy other new => exact .inl trivial
      | setRole account role set => exact .inl trivial
      | selfUpgrade code migrateArgs => exact .inl trivial
    · exact .inl trivial
  applies := by
    rintro bound (operation | call) policy policy' happlies hbound hkeeps
    · cases operation with
      | setReflexiveTtl other ttl =>
        obtain ⟨-, hwire⟩ := setReflexiveTtl_eq_ok happlies
        rw [hwire]
        dsimp only
        rw [ReflexiveTtls.get_set]
        split
        · next heq => exact hkeeps heq.symm
        · exact hbound
      | setTargetDefault new =>
        obtain ⟨-, hwire⟩ := setTargetDefault_eq_ok happlies
        rw [hwire]
        exact hbound
      | setMethodPolicy other new =>
        cases new with
        | some new =>
          rw [setMethodPolicy_some happlies]
          exact hbound
        | none =>
          rw [setMethodPolicy_none happlies]
          exact hbound
      | setRole account role set => exact happlies ▸ hbound
      | selfUpgrade code migrateArgs => exact happlies ▸ hbound
    · exact happlies ▸ hbound

variable {S : Type} [RoleStore S A Role]

namespace Contract

variable {c c' : Contract S A} {env : Env A} {id : Nat}
  {operation : Operation A} {promise : Option (Promise A)}

/-- Some account is an admin. -/
def HasAdmin (c : Contract S A) : Prop := ∃ account, c.hasRole account .admin = true

/-- The last admin is not removed. -/
theorem HasAdmin.setRole {account : A} {role : Role} {set : Bool} (hadmin : c.HasAdmin)
    (h : c.assertCanSetRole account role set = .ok ()) :
    (if set then c.addRole account role else c.removeRole account role).HasAdmin := by
  cases set with
  | true => exact RoleStore.exists_has_add hadmin
  | false =>
    refine RoleStore.exists_has_remove hadmin ?_
    rintro rfl hhas
    have hhas : c.hasRole account .admin = true := hhas
    simpa [assertCanSetRole, hhas] using ensure_eq_ok.mp h

/-- The effects change the policy as `Applies` says, and leave an admin. -/
theorem enact_eq_ok (h : c.enact operation = .ok (promise, c')) :
    ∃ policy, Applies operation c.header.ttls policy ∧
      c'.toLedger = (c.setPolicy policy).toLedger ∧ (c.HasAdmin → c'.HasAdmin) := by
  rcases operation with operation | call
  · cases operation with
    | setReflexiveTtl kind ttl | setTargetDefault new | setMethodPolicy method new =>
      simp only [enact, do_ok] at h
      obtain ⟨policy, hpolicy, rfl, rfl⟩ := h
      exact ⟨policy, hpolicy, rfl, id⟩
    | setRole account role set =>
      obtain ⟨_, hassert, rfl, rfl⟩ := bind_eq_ok.mp h
      refine ⟨c.header.ttls, rfl, ?_, fun hadmin => hadmin.setRole hassert⟩
      cases set <;> rfl
    | selfUpgrade code migrateArgs =>
      cases h
      exact ⟨c.header.ttls, rfl, rfl, id⟩
  · cases h
    exact ⟨c.header.ttls, rfl, rfl, id⟩

theorem executeProposal_eq_ok (h : c.executeProposal env id = .ok (operation, promise, c')) :
    ∃ p header policy, c.proposals id = some p ∧ p.operation = operation ∧
      c.header.execute id p env.timestamp = .ok header ∧
      Applies operation c.header.ttls policy ∧
      c'.toLedger = ⟨header.setTtls policy, update c.proposals id none⟩ ∧
      (c.HasAdmin → c'.HasAdmin) := by
  unfold executeProposal at h
  simp only [do_ok] at h
  obtain ⟨-, p, hbody, -, -, header, hexecute, ⟨promise, c₁⟩, henact, rfl, rfl, rfl⟩ := h
  obtain ⟨policy, happlies, hledger, hadmin⟩ := enact_eq_ok henact
  obtain ⟨-, -, hheader⟩ := Governance.execute_eq_ok hexecute
  refine ⟨p, header, policy, hbody, rfl, hexecute, ?_, hledger, hadmin⟩
  rw [hheader] at happlies
  exact happlies

end Contract

namespace World

/-- A call that fails, or one step of the ledger; an admin stays. -/
theorem step_cases (w : World S A) (event : Event A) : w.step event = w ∨
      ∃ done, Ledger.Step Applies event.env.timestamp w.contract.toLedger done
          (w.step event).contract.toLedger ∧
        (w.step event).log =
          w.log ++ done.toList.map (fun d => ⟨event.env.timestamp, d.1, d.2.operation⟩) ∧
        (w.contract.HasAdmin → (w.step event).contract.HasAdmin) := by
  obtain ⟨env, call⟩ := event
  cases call with
  | create id operation requestedTtl =>
    simp only [step]
    split
    · next p c' h =>
      simp only [createProposal, do_ok] at h
      obtain ⟨-, -, -, ⟨_, header⟩, hcreate, -, rfl, rfl⟩ := h
      exact .inr ⟨none, .create hcreate, (List.append_nil _).symm, fun h => h⟩
    · exact .inl rfl
  | cancel id =>
    simp only [step]
    split
    · next c' h =>
      simp only [cancelProposal, do_ok] at h
      obtain ⟨-, _, -, -, header, hcancel, rfl⟩ := h
      exact .inr ⟨none, .cancel hcancel, (List.append_nil _).symm, fun h => h⟩
    · exact .inl rfl
  | execute id =>
    simp only [step]
    split
    · next operation promise c' h =>
      obtain ⟨p, header, policy, hbody, rfl, hexecute, happlies, hledger, hadmin⟩ :=
        executeProposal_eq_ok h
      refine .inr ⟨some (id, p), ?_, rfl, hadmin⟩
      rw [hledger]
      exact .execute hbody hexecute happlies
    · exact .inl rfl

theorem ledgerRun {events : List (Event A)} {start : Nat} (h : Timed start events)
    (c : Contract S A) :
    ∃ now, Ledger.Run Applies c.toLedger start ((⟨c, []⟩ : World S A).run events).log now
      ((⟨c, []⟩ : World S A).run events).contract.toLedger := by
  refine Ledger.Run.foldl (fun event : Event A => event.env.timestamp)
    (fun w : World S A => w.contract.toLedger) (fun w => w.log) (fun w event => ?_) h .refl
  exact (step_cases w event).imp id fun ⟨done, hstep, hlog, _⟩ => ⟨done, hstep, hlog⟩

end World

/-- No lock exceeds the maximum. -/
structure GovernancePolicy.WithinMaximum (policy : GovernancePolicy) : Prop where
  reflexive : ∀ kind, policy.reflexiveTtls.get kind ≤ maxProposalTtl
  target : policy.defaultTarget.ttl ≤ maxProposalTtl

theorem Applies.withinMaximum {operation : Operation A}
    (h : Applies operation policy policy') (hp : policy.WithinMaximum) : policy'.WithinMaximum := by
  rcases operation with operation | call
  · cases operation with
    | setReflexiveTtl kind ttl =>
      obtain ⟨hle, hwire⟩ := setReflexiveTtl_eq_ok h
      constructor
      · intro other
        rw [hwire]
        dsimp only
        rw [ReflexiveTtls.get_set]
        split
        · exact hle
        · exact hp.reflexive other
      · rw [hwire]
        exact hp.target
    | setTargetDefault new =>
      obtain ⟨hle, hwire⟩ := setTargetDefault_eq_ok h
      constructor
      · rw [hwire]
        exact hp.reflexive
      · rw [hwire]
        exact hle
    | setMethodPolicy method new =>
      cases new with
      | some new =>
        have hwire := setMethodPolicy_some h
        exact ⟨by rw [hwire]; exact hp.reflexive, by rw [hwire]; exact hp.target⟩
      | none =>
        have hwire := setMethodPolicy_none h
        exact ⟨by rw [hwire]; exact hp.reflexive, by rw [hwire]; exact hp.target⟩
    | setRole account role set => exact h ▸ hp
    | selfUpgrade code migrateArgs => exact h ▸ hp
  · exact h ▸ hp

theorem GovernancePolicy.withinMaximum_of_tryFrom {wire : GovernancePolicyWire}
    (h : tryFrom wire = .ok policy) : policy.WithinMaximum := by
  unfold tryFrom at h
  dsimp only at h
  split at h
  · cases h
  next hfind =>
  split at h
  · cases h
  split at h
  · cases h
  cases h
  simp only [List.find?_eq_none, List.mem_cons, List.not_mem_nil, or_false, decide_eq_true_eq,
    Nat.not_lt, forall_eq_or_imp, forall_eq] at hfind
  obtain ⟨hpolicy, hrole, hupgrade, htarget⟩ := hfind
  refine ⟨fun kind => ?_, htarget⟩
  cases kind with
  | setPolicy => exact hpolicy
  | setRole => exact hrole
  | selfUpgrade => exact hupgrade

/-- What an operation has to wait is within the maximum. -/
theorem GovernancePolicy.WithinMaximum.minimumTtl_le (h : policy.WithinMaximum)
    (operation : Operation A) : operation.minimumTtl policy ≤ maxProposalTtl := by
  have hmethod : ∀ method, (policy.resolve method).ttl ≤ maxProposalTtl := fun method =>
    (policy.resolve_le_default method).trans h.target
  rcases operation with operation | call
  · have hedit : ∀ current new, operation.lockEdit policy = some (current, new) →
        current ≤ maxProposalTtl := by
      intro current new hsome
      cases operation with
      | setReflexiveTtl kind ttl =>
        cases hsome
        exact h.reflexive kind
      | setTargetDefault policy =>
        cases hsome
        exact h.target
      | setMethodPolicy method policy =>
        cases policy with
        | some policy =>
          cases hsome
          exact hmethod method
        | none => cases hsome
      | setRole account role set => cases hsome
      | selfUpgrade code migrateArgs => cases hsome
    unfold Operation.minimumTtl lockEditTtl
    dsimp only
    split
    · next current new hsome =>
      split
      · exact Nat.max_le.mpr ⟨h.reflexive _, hedit current new hsome⟩
      · exact h.reflexive _
    · exact h.reflexive _
  · exact hmethod call.methodName

namespace Contract

variable {c c' : Contract S A}

structure Sound (c : Contract S A) : Prop where
  policy : c.header.ttls.WithinMaximum
  capacity : c.header.maxPendingProposals = maxPendingProposals
  synced : c.Synced
  admin : c.HasAdmin

/-- A step of the ledger keeps the policy within its bounds. -/
theorem Sound.step {now : Nat} {done : Option (Nat × Proposal (Operation A) A)}
    (h : c.Sound) (hstep : Ledger.Step Applies now c.toLedger done c'.toLedger)
    (hadmin : c'.HasAdmin) : c'.Sound := by
  have hsynced := hstep.synced h.synced
  suffices c'.header.ttls.WithinMaximum ∧
      c'.header.maxPendingProposals = c.header.maxPendingProposals from
    ⟨this.1, this.2.trans h.capacity, hsynced, hadmin⟩
  generalize c'.toLedger = l at hstep
  rcases hstep.cases with ⟨-, p, hfree, -, -, rfl⟩ | ⟨id, ttls, -, rfl, ⟨-, rfl⟩ | ⟨p, -, -, -, happlies⟩⟩
  · exact ⟨h.policy, rfl⟩
  · exact ⟨h.policy, rfl⟩
  · exact ⟨happlies.withinMaximum h.policy, rfl⟩

/-- An admin can create every valid operation while there is room. -/
theorem Sound.createProposal (h : c.Sound) {env : Env A} {requestedTtl : Nat} {operation : Operation A}
    (hadmin : c.hasRole env.predecessor .admin = true) (hdeposit : env.attachedDeposit = 1)
    (hid : c.header.nextId < 2 ^ 32) (hvalid : operation.onCreate = .ok ())
    (httl : requestedTtl ≤ maxProposalTtl) (hroom : c.header.activeIds.length < maxPendingProposals) :
    ∃ p c', c.createProposal env c.header.nextId operation requestedTtl = .ok (p, c') := by
  have hfree : c.header.activeIds.length < c.header.maxPendingProposals := by
    rw [h.capacity]
    exact hroom
  have hvalid : OperationPolicy.validateOnCreate GovernancePolicy operation = .ok () := hvalid
  have hcreate : c.header.create c.header.nextId operation env.timestamp env.predecessor requestedTtl =
      .ok (⟨operation, env.timestamp, max (operation.minimumTtl c.header.ttls) requestedTtl,
        env.predecessor⟩, c.header.reserve hfree) := by
    unfold Governance.create
    rw [if_neg (not_not.mpr rfl), dif_neg (Nat.not_le.mpr hfree), hvalid, okOr_checkedAdd (by omega)]
    rfl
  have hwait : max (operation.minimumTtl c.header.ttls) requestedTtl ≤ maxProposalTtl :=
    Nat.max_le.mpr ⟨h.policy.minimumTtl_le operation, httl⟩
  have hauthorized : c.assertAuthorized env operation = .ok () := ensure_of (.inl hadmin)
  exact ⟨_, _, bind_eq_ok.mpr ⟨(), ensure_of hdeposit, bind_eq_ok.mpr ⟨(), hauthorized,
    bind_eq_ok.mpr ⟨(), ensure_of httl, bind_eq_ok.mpr ⟨_, mapError_eq_ok.mpr hcreate,
      bind_eq_ok.mpr ⟨(), ensure_of hwait, rfl⟩⟩⟩⟩⟩⟩

end Contract

namespace World

variable {w : World S A}

theorem sound_run (events : List (Event A)) (h : w.contract.Sound) :
    (w.run events).contract.Sound := by
  induction events generalizing w with
  | nil => exact h
  | cons event events ih =>
    refine ih ?_
    rcases step_cases w event with heq | ⟨done, hstep, -, hadmin⟩
    · rw [heq]
      exact h
    · exact h.step hstep (hadmin h.admin)

/-- Over every run from a new contract with a policy that parses: the policy is within its
bounds, an admin is left, the bodies are those of the pending ids, and an admin who attaches
the one yocto can create any valid operation under the next id while there is room. -/
theorem governance_stays_open {wire : GovernancePolicyWire} {policy : GovernancePolicy}
    (hparse : tryFrom wire = .ok policy) (proxyOracleId adminId : A)
    (events : List (Event A)) :
    let c := ((⟨.new proxyOracleId adminId policy, []⟩ : World S A).run events).contract
    let table := c.header.ttls
    ((∀ (method : String) (override : MethodPolicy),
        table.methodPolicies[method]? = some override →
        override.ttl ≤ table.defaultTarget.ttl ∧ override.ttl ≤ maxProposalTtl) ∧
      table.defaultTarget.ttl ≤ maxProposalTtl ∧
      (∀ kind, table.reflexiveTtls.get kind ≤ maxProposalTtl) ∧
      table.methodPolicies.size ≤ 64) ∧
    (∃ account, c.hasRole account .admin = true) ∧
    (∀ id, (c.proposals id).isSome ↔ id ∈ c.header.activeIds) ∧
    c.header.activeIds.length ≤ 64 ∧ c.header.activeIds.Pairwise (· < ·) ∧
    (∀ id ∈ c.header.activeIds, id < c.header.nextId) ∧
    ∀ (env : Env A) (id : Nat) (operation : Operation A) (requestedTtl : Nat),
      c.hasRole env.predecessor .admin = true → env.attachedDeposit = 1 →
      id = c.header.nextId → id < 2 ^ 32 → operation.onCreate = .ok () →
      requestedTtl ≤ maxProposalTtl → c.header.activeIds.length < 64 →
      ∃ p c', c.createProposal env id operation requestedTtl = .ok (p, c') := by
  intro c table
  have hnew : Contract.Sound (.new proxyOracleId adminId policy : Contract S A) := by
    refine ⟨withinMaximum_of_tryFrom hparse, rfl, fun id => by simp [new, Governance.new], adminId, ?_⟩
    exact (RoleStore.has_iff _ _ _).mpr ((RoleStore.mem_add _ _ _ _ _).mpr (.inl ⟨rfl, rfl⟩))
  have h : c.Sound := sound_run events hnew
  refine ⟨⟨?_, h.policy.target, h.policy.reflexive, table.size_le⟩, h.admin, h.synced, ?_,
    c.header.ordered, c.header.inRange, ?_⟩
  · intro method override hsome
    have hle := table.ceiling method override hsome
    exact ⟨hle, hle.trans h.policy.target⟩
  · have hlen := c.header.length_le
    rw [h.capacity] at hlen
    exact hlen
  · rintro env _ operation requestedTtl hadmin hdeposit rfl hid hvalid httl hroom
    exact h.createProposal hadmin hdeposit hid hvalid httl hroom

/-- The only admin shortens a lock, and can create the next proposal. -/
theorem governance_stays_open_after_edit : ∃ policy, uniform 10 = .ok policy ∧
      ∃ p c', createProposal ((⟨.new 7 1 policy, []⟩ : World (Role → Finset Nat) Nat).run
          [⟨⟨1, 1, 0⟩, .create 0 (.reflexive (.setReflexiveTtl .setRole 5)) 0⟩,
            ⟨⟨1, 1, 10⟩, .execute 0⟩]).contract
        ⟨1, 1, 10⟩ 1 (.targetFunctionCall ⟨"admin_upgrade", [], 0, 1⟩) 0 = .ok (p, c') := by
  let policy : GovernancePolicy := ⟨⟨⟨10, 10, 10⟩, ⟨10, .admin⟩, ∅⟩, by simp, by decide⟩
  have hparse : uniform 10 = .ok policy := by decide +kernel
  refine ⟨policy, hparse, ?_⟩
  obtain ⟨-, -, -, -, -, -, hcreate⟩ := governance_stays_open (S := Role → Finset Nat) hparse 7 1
    [⟨⟨1, 1, 0⟩, .create 0 (.reflexive (.setReflexiveTtl .setRole 5)) 0⟩, ⟨⟨1, 1, 10⟩, .execute 0⟩]
  exact hcreate ⟨1, 1, 10⟩ 1 (.targetFunctionCall ⟨"admin_upgrade", [], 0, 1⟩) 0
    (by decide +kernel) rfl (by decide +kernel) (by decide) (by decide +kernel) (by decide)
    (by decide +kernel)

end World

end Templar.OracleGovernance.Near
