import Templar.SorobanVault.Books

/-!
# What the commands of governance do

Each command sets one thing. What the settings are afterwards is said for each of them, and
that the two books of the vault still agree; from the latter and the public commands the vault's
own invariant follows.
-/

namespace Templar.SorobanVault

open Checked Curator Vault CuratorVault PolicyState

variable {A σ : Type} [DecidableEq A] {host : Host A σ} {l l' : Ledger A σ}
  {timestamp marketId mode : Nat} {caller : A} {u : Unit} {p p' : PolicyState}
  {c : Contract A} {accounts : List A}

omit [DecidableEq A] in
/-- The settings are the given ones, and books that were right are right. -/
structure Contract.Became (c : Contract A) (settings : Settings A)
    (c' : Contract A) : Prop where
  settings : c'.settings = settings
  booked : Booked c.state c.policyState → Booked c'.state c'.policyState

/-- A session that stores a new policy state and nothing else. -/
theorem withContractVault_policy {g : CuratorVault A σ → CallM (CuratorVault A σ)}
    {P : Rules → Rules → Prop}
    (hg : ∀ v v', g v = .ok v' → ∃ policy rules, v' = v.savePolicyState policy ∧
      v.policyState.Edited rules policy ∧ P v.policyState.rules rules)
    (h : withContractVault host l (fun v => do let v ← g v return ((), v)) = .ok (u, l')) :
    ∃ rules, P l.contract.settings.rules rules ∧
      l.contract.Became { l.contract.settings with rules } l'.contract := by
  obtain ⟨v, v', hloaded, hstorage, hf, rfl⟩ := withContractVault_eq_ok h
  simp only [do_ok] at hf
  obtain ⟨w, hw, -, rfl⟩ := hf
  obtain ⟨policy, rules, rfl, hedited, hP⟩ := hg v _ hw
  rw [hloaded.rules] at hP
  rw [← hstorage]
  refine ⟨rules, hP, ?_, ?_⟩
  · rw [← hedited.rules]
    rfl
  · intro hbooked
    rw [hloaded.policyState hbooked.policy] at hedited
    exact ⟨hbooked.kernel, hedited.sound hbooked.policy, hbooked.external.trans hedited.total.symm,
      hbooked.idle⟩

theorem applySupplyQueuePolicy_became {targetIds : List Nat} {adapters : Option (List A)}
    (h : applySupplyQueuePolicy host l targetIds adapters = .ok l') :
    ∃ queue, l.contract.Became
      { l.contract.settings with rules := { l.contract.settings.rules with queue } } l'.contract := by
  simp only [applySupplyQueuePolicy, do_ok] at h
  obtain ⟨-, bindings, -, ⟨_, m⟩, hm, rfl⟩ := h
  have hpolicy := withContractVault_policy (P := fun r r' => ∃ queue, r' = { r with queue }) ?_ hm
  · obtain ⟨_, ⟨queue, rfl⟩, hbecame⟩ := hpolicy
    exact ⟨queue, hbecame.settings, hbecame.booked⟩
  · intro v v' hv
    simp only [setSupplyQueueAuthorized, do_ok, policyOrInvalidInput_eq_ok] at hv
    obtain ⟨entries, -, queue, -, policy, hpolicy, rfl⟩ := hv
    exact ⟨policy, _, rfl, replaceSupplyQueue_edited hpolicy, queue, rfl⟩

theorem applyCapPolicy_became {newCap : Int} (h : applyCapPolicy host l marketId newCap = .ok l') :
    0 ≤ newCap ∧ l.contract.Became
      { l.contract.settings with
        rules := l.contract.settings.rules.withMarketCap marketId newCap.toNat } l'.contract := by
  simp only [applyCapPolicy, toU128, do_ok] at h
  obtain ⟨_, ⟨hrange, rfl⟩, ⟨_, m⟩, hm, rfl⟩ := h
  refine ⟨hrange, ?_⟩
  have hpolicy := withContractVault_policy
    (P := fun r r' => r' = r.withMarketCap marketId newCap.toNat) ?_ hm
  · obtain ⟨_, rfl, hbecame⟩ := hpolicy
    exact hbecame
  · intro v v' hv
    simp only [applyGovernanceCapAuthorized, do_ok, policyOrInvalidInput_eq_ok] at hv
    obtain ⟨policy, hpolicy, rfl⟩ := hv
    split at hpolicy
    · exact ⟨policy, _, rfl, setMarketCap_edited hpolicy, rfl⟩
    · next hnone =>
      refine ⟨policy, _, rfl, setMarketConfig_edited hpolicy, ?_⟩
      have hmarket : v.policyState.rules.market marketId = none :=
        Option.not_isSome_iff_eq_none.mp hnone
      rw [Rules.withMarketCap, hmarket]
      rfl

/-- Only a market that has cap 0 and holds nothing is removed. -/
theorem applyRemoveMarketPolicy_became (h : applyRemoveMarketPolicy host l marketId = .ok l') :
    (∃ config, l.contract.settings.rules.market marketId = some config ∧ config.cap = 0) ∧
      l.contract.Became
        { l.contract.settings with rules := l.contract.settings.rules.withoutMarket marketId }
        l'.contract := by
  simp only [applyRemoveMarketPolicy, do_ok] at h
  obtain ⟨⟨_, m⟩, hm, rfl⟩ := h
  have hpolicy := withContractVault_policy
    (P := fun r r' => (∃ config, r.market marketId = some config ∧ config.cap = 0) ∧
      r' = r.withoutMarket marketId) ?_ hm
  · obtain ⟨_, ⟨hclosed, rfl⟩, hbecame⟩ := hpolicy
    exact ⟨hclosed, hbecame⟩
  · intro v v' hv
    simp only [applyGovernanceRemoveMarketAuthorized, do_ok, policyOrInvalidInput_eq_ok] at hv
    obtain ⟨config, hconfig, hcap, hzero, policy, hpolicy, rfl⟩ := hv
    exact ⟨policy, _, rfl, removeMarket_edited hconfig hzero hpolicy, ⟨config, hconfig, hcap⟩, rfl⟩

theorem applyGroupPolicy_became {marketId : Option Nat} {capGroupId : Option String}
    {value : Option Int} (h : applyGroupPolicy host l mode marketId capGroupId value = .ok l') :
    ∃ update, capGroupUpdate mode marketId capGroupId value = .ok update ∧
      (∀ m id, update = .setMembership m id → (l.contract.settings.rules.market m).isSome = true) ∧
      l.contract.Became
        { l.contract.settings with rules := l.contract.settings.rules.updated update } l'.contract := by
  simp only [applyGroupPolicy, do_ok] at h
  obtain ⟨update, hupdate, ⟨_, m⟩, hm, rfl⟩ := h
  refine ⟨update, hupdate, ?_⟩
  have hpolicy := withContractVault_policy
    (P := fun r r' => (∀ m id, update = .setMembership m id → (r.market m).isSome = true) ∧
      r' = r.updated update) ?_ hm
  · obtain ⟨_, ⟨hknown, rfl⟩, hbecame⟩ := hpolicy
    exact ⟨hknown, hbecame⟩
  · intro v v' hv
    simp only [applyGovernanceCapGroupUpdateAuthorized, do_ok, policyOrInvalidInput_eq_ok] at hv
    obtain ⟨policy, hpolicy, rfl⟩ := hv
    obtain ⟨hknown, hedited⟩ := groupUpdate_edited hpolicy
    exact ⟨policy, _, rfl, hedited, hknown, rfl⟩

omit [DecidableEq A] in
theorem saveRestrictions_eq_ok {c' : Contract A} {restrictions : Option (Restrictions A)}
    (h : CuratorVault.saveRestrictions c restrictions = .ok c') : c' = { c with restrictions } := by
  unfold CuratorVault.saveRestrictions at h
  split at h
  all_goals
    simp only [do_ok] at h
    obtain ⟨-, rfl⟩ := h
    rfl

/-- Governance relaxes, the sentinel does the rest. -/
theorem applyRestrictionsPolicy_became
    (h : applyRestrictionsPolicy host l caller mode accounts = .ok l') :
    ∃ next, restrictionsFromPolicy mode accounts = .ok next ∧
      (if GovernanceRestrictions.determineRelaxed (governanceRestrictions l.contract.restrictions)
          (governanceRestrictions next) then caller = l.contract.governance
        else l.contract.sentinel = some caller) ∧
      l.contract.Became { l.contract.settings with restrictions := next } l'.contract := by
  simp only [applyRestrictionsPolicy, requireGovernance, ensureSentinelIdentity, do_ok] at h
  obtain ⟨next, hnext, h⟩ := h
  refine ⟨next, hnext, ?_⟩
  split at h
  · next hrelaxed =>
    simp only [do_ok] at h
    obtain ⟨hcaller, c, hc, rfl⟩ := h
    rw [if_pos hrelaxed]
    cases saveRestrictions_eq_ok hc
    exact ⟨hcaller, rfl, id⟩
  · next hrelaxed =>
    simp only [do_ok] at h
    obtain ⟨⟨sentinel, hsentinel, rfl⟩, ⟨_, m⟩, hm, rfl⟩ := h
    rw [if_neg hrelaxed]
    obtain ⟨v, v', -, hstorage, hf, rfl⟩ := withContractVault_eq_ok hm
    simp only [CuratorVault.setRestrictions, do_ok] at hf
    obtain ⟨w, ⟨-, c, hc, rfl⟩, -, rfl⟩ := hf
    cases saveRestrictions_eq_ok hc
    rw [← hstorage] at hsentinel ⊢
    exact ⟨hsentinel, rfl, id⟩

theorem applyPausedPolicy_became {paused : Bool} (h : applyPausedPolicy host l caller paused = .ok l') :
    (if paused then l.contract.sentinel = some caller else caller = l.contract.governance) ∧
      l.contract.Became { l.contract.settings with paused } l'.contract := by
  cases paused with
  | true =>
    simp only [applyPausedPolicy, ensureSentinelIdentity, if_true, do_ok] at h ⊢
    obtain ⟨⟨sentinel, hsentinel, rfl⟩, ⟨_, m⟩, hm, rfl⟩ := h
    obtain ⟨v, v', -, hstorage, hf, rfl⟩ := withContractVault_eq_ok hm
    simp only [CuratorVault.pause, do_ok] at hf
    obtain ⟨w, ⟨-, rfl⟩, -, rfl⟩ := hf
    rw [← hstorage] at hsentinel ⊢
    exact ⟨hsentinel, rfl, id⟩
  | false =>
    simp only [applyPausedPolicy, requireGovernance, Bool.false_eq_true, if_false, do_ok] at h ⊢
    obtain ⟨hcaller, rfl⟩ := h
    exact ⟨hcaller, rfl, id⟩

theorem settleFees_kept {allowed : Bool} {nowNs : Nat} {v v' : CuratorVault A σ}
    (hv : Loaded v) (h : settleFees host allowed nowNs v = .ok (u, v')) :
    v.storage.Kept v'.storage := by
  simp only [settleFees, CuratorVault.payLastWindow, do_ok] at h
  obtain ⟨hidle, paid, hpaid, w, hw, -, rfl⟩ := h
  have hworked : Worked v paid ∧
      (Sound maxPending v.state → v.state.opState = .idle → paid.state.opState = .idle) := by
    split at hpaid
    · obtain ⟨hworked, -, hrest⟩ := refreshFeesIfDue_worked hpaid
      exact ⟨hworked, hrest⟩
    · cases hpaid
      exact ⟨.refl, fun _ => id⟩
  split at hw
  · refine kept_of_worked hv ((hworked.1.tail .renumber).tail (.save hw)) ?_ ?_
    · obtain ⟨rfl, -⟩ := saveState_eq_ok hw
      rfl
    · rw [(saveState_eq_ok hw).1]
      exact hworked.2
  · refine kept_of_worked hv (hworked.1.tail (.save hw)) ?_ ?_
    · obtain ⟨rfl, -⟩ := saveState_eq_ok hw
      rfl
    · rw [(saveState_eq_ok hw).1]
      exact hworked.2

theorem applyFeesPolicy_became {performanceFeeWad managementFeeWad : Int}
    {maxGrowthRateWad : Option Int}
    (h : applyFeesPolicy host timestamp l accounts performanceFeeWad managementFeeWad
      maxGrowthRateWad = .ok l') : ∃ performanceRecipient managementRecipient,
      accounts = [performanceRecipient, managementRecipient] ∧
      0 ≤ performanceFeeWad ∧ 0 ≤ managementFeeWad ∧ (∀ rate ∈ maxGrowthRateWad, 0 ≤ rate) ∧
      l.contract.Became
        { l.contract.settings with
          fees := ⟨⟨performanceFeeWad.toNat, performanceRecipient⟩,
            ⟨managementFeeWad.toNat, managementRecipient⟩, maxGrowthRateWad.map Int.toNat⟩ }
        l'.contract := by
  unfold applyFeesPolicy at h
  split at h
  · next performanceRecipient managementRecipient =>
    simp only [applyFeeChange, requireNonNegativeBoundedWad, toU128, do_ok] at h
    obtain ⟨now, -, ⟨_, m⟩, hm, c, ⟨_, ⟨_, ⟨hperformance, rfl⟩, -, rfl⟩, _, ⟨_, ⟨hmanagement, rfl⟩,
      -, rfl⟩, rate, hrate, -, rfl⟩, rfl⟩ := h
    have hkept : l.contract.Kept m.contract :=
      withContractVault_kept (fun _ _ hv hf => settleFees_kept hv hf) hm
    have hrate : (∀ r ∈ maxGrowthRateWad, 0 ≤ r) ∧ rate = maxGrowthRateWad.map Int.toNat := by
      cases maxGrowthRateWad with
      | none =>
        cases hrate
        exact ⟨by simp, rfl⟩
      | some raw =>
        simp only [optionalU128, toU128, do_ok] at hrate
        obtain ⟨_, ⟨hraw, rfl⟩, rfl⟩ := hrate
        refine ⟨?_, rfl⟩
        rintro r ⟨⟩
        exact hraw
    obtain ⟨hpositive, rfl⟩ := hrate
    refine ⟨_, _, rfl, hperformance, hmanagement, hpositive, ?_, hkept.booked⟩
    rw [← hkept.settings]
    rfl
  · cases h

/-- The configuration does not touch the books. -/
theorem applyConfig_books {args : GovernanceConfigArgs A}
    (h : applyConfig host l args = .ok c) :
    c.state = l.contract.state ∧ c.policyState = l.contract.policyState := by
  unfold applyConfig at h
  split at h
  · simp only [applyCuratorConfig, do_ok] at h
    obtain ⟨_, -, -, rfl⟩ := h
    exact ⟨rfl, rfl⟩
  · simp only [applyGovernanceConfig, do_ok] at h
    obtain ⟨_, -, -, rfl⟩ := h
    exact ⟨rfl, rfl⟩
  · simp only [applySentinelConfig, do_ok] at h
    obtain ⟨_, -, -, rfl⟩ := h
    exact ⟨rfl, rfl⟩
  · simp only [applyAllocatorsConfig, do_ok] at h
    obtain ⟨_, -, -, -, rfl⟩ := h
    exact ⟨rfl, rfl⟩
  · simp only [applyAllowedAdaptersConfig, do_ok] at h
    obtain ⟨_, -, -, -, rfl⟩ := h
    exact ⟨rfl, rfl⟩
  · simp only [do_ok] at h
    obtain ⟨_, -, rfl⟩ := h
    exact ⟨rfl, rfl⟩
  · simp only [applyVirtualOffsetsConfig, do_ok] at h
    obtain ⟨_, -, _, -, -, -, _, -, _, -, rfl⟩ := h
    exact ⟨rfl, rfl⟩
  · simp only [applyWithdrawalCooldownConfig, do_ok] at h
    obtain ⟨_, -, _, -, rfl⟩ := h
    exact ⟨rfl, rfl⟩
  · simp only [applyIdleResyncCooldownConfig, do_ok] at h
    obtain ⟨_, -, _, -, rfl⟩ := h
    exact ⟨rfl, rfl⟩
  · simp only [applyMaxNavAgeConfig, do_ok] at h
    obtain ⟨_, -, _, -, rfl⟩ := h
    exact ⟨rfl, rfl⟩
  · cases h

theorem setGovernancePolicyImpl_booked {args : GovernancePolicyArgs A}
    (h : setGovernancePolicyImpl host timestamp l caller args = .ok l')
    (hbooked : Booked l.contract.state l.contract.policyState) :
    Booked l'.contract.state l'.contract.policyState := by
  unfold setGovernancePolicyImpl at h
  split at h
  · simp only [do_ok] at h
    obtain ⟨-, -, -, -, -, -, -, targetIds, -, h⟩ := h
    obtain ⟨queue, hbecame⟩ := applySupplyQueuePolicy_became h
    exact hbecame.booked hbooked
  · simp only [do_ok] at h
    obtain ⟨-, -, -, -, -, -, -, marketId, -, value, -, h⟩ := h
    exact (applyCapPolicy_became h).2.booked hbooked
  · simp only [do_ok] at h
    obtain ⟨-, -, -, -, -, -, -, -, marketId, -, h⟩ := h
    exact (applyRemoveMarketPolicy_became h).2.booked hbooked
  · simp only [do_ok] at h
    obtain ⟨-, -, -, -, -, -, mode, -, accounts, -, h⟩ := h
    obtain ⟨next, -, -, hbecame⟩ := applyRestrictionsPolicy_became h
    exact hbecame.booked hbooked
  · simp only [do_ok] at h
    obtain ⟨-, -, -, -, -, mode, -, h⟩ := h
    obtain ⟨update, -, -, hbecame⟩ := applyGroupPolicy_became h
    exact hbecame.booked hbooked
  · simp only [do_ok] at h
    obtain ⟨-, -, -, -, -, -, -, mode, -, h⟩ := h
    split at h
    · exact (applyPausedPolicy_became h).2.booked hbooked
    · exact (applyPausedPolicy_became h).2.booked hbooked
    · cases h
  · simp only [do_ok] at h
    obtain ⟨-, -, -, -, -, accounts, -, value, -, valueB, -, h⟩ := h
    obtain ⟨_, _, -, -, -, -, hbecame⟩ := applyFeesPolicy_became h
    exact hbecame.booked hbooked
  · cases h

theorem executeGovernance_booked {command : GovernanceCommand A}
    (h : executeGovernance host timestamp l caller command = .ok l')
    (hbooked : Booked l.contract.state l.contract.policyState) :
    Booked l'.contract.state l'.contract.policyState := by
  simp only [executeGovernance, executeGovernanceCommand, do_ok] at h
  obtain ⟨kind, -, -, -, h⟩ := h
  cases command with
  | setGovernanceConfig args =>
    simp only [setGovernanceConfigImpl, do_ok] at h
    obtain ⟨-, c, hc, rfl⟩ := h
    obtain ⟨hstate, hpolicy⟩ := applyConfig_books hc
    change Booked c.state c.policyState
    rw [hstate, hpolicy]
    exact hbooked
  | setGovernancePolicy args => exact setGovernancePolicyImpl_booked h hbooked
  | skim token =>
    simp only [skimImpl, do_ok] at h
    obtain ⟨-, -, balance, -, -, world, -, rfl⟩ := h
    exact hbooked

theorem migrate_booked (h : migrate host timestamp l caller = .ok l')
    (hbooked : Booked l.contract.state l.contract.policyState) :
    Booked l'.contract.state l'.contract.policyState := by
  simp only [migrate, normalizeMigratedState, loadPolicyState, do_ok] at h
  obtain ⟨-, -, c, ⟨now, -, -, -, rfl⟩, policy, hpolicy, c', hc', -, rfl⟩ := h
  cases saveRestrictions_eq_ok hc'
  cases (fromParts_eq_ok hpolicy).2 hbooked.policy
  exact ⟨sound_renumber hbooked.kernel _ _, hbooked.policy, hbooked.external, hbooked.idle⟩

theorem migrate_settings (h : migrate host timestamp l caller = .ok l') :
    l'.contract.settings = l.contract.settings := by
  simp only [migrate, normalizeMigratedState, loadPolicyState, do_ok] at h
  obtain ⟨-, -, c, ⟨now, -, -, -, rfl⟩, policy, hpolicy, c', hc', -, rfl⟩ := h
  cases saveRestrictions_eq_ok hc'
  have hrules := (fromParts_eq_ok hpolicy).1
  simp only [Contract.settings, hrules]

/-- A call of the vault, or any change of the rest of the ledger. -/
inductive VaultStep (A σ : Type) where
  | command (timestamp : Nat) (command : VaultCommand A)
  | governance (timestamp : Nat) (caller : A) (command : GovernanceCommand A)
  | upgrade (caller : A)
  | migrate (timestamp : Nat) (caller : A)
  | world (world : σ)

/-- The ledger after a call; one that fails is rolled back. -/
def Ledger.step (host : Host A σ) (l : Ledger A σ) : VaultStep A σ → Ledger A σ
  | .command timestamp command =>
    match executePublicCommand host timestamp l command with
    | .ok (_, l') => l'
    | .error _ => l
  | .governance timestamp caller command =>
    (executeGovernance host timestamp l caller command).toOption.getD l
  | .upgrade caller => (SorobanVault.upgrade l caller).toOption.getD l
  | .migrate timestamp caller => (SorobanVault.migrate host timestamp l caller).toOption.getD l
  | .world world => { l with world }

def Ledger.run (host : Host A σ) (l : Ledger A σ) (steps : List (VaultStep A σ)) :
    Ledger A σ := steps.foldl (Ledger.step host) l

omit [DecidableEq A] in
/-- A call that may fail keeps what a successful one keeps. -/
theorem getD_induct {P : Ledger A σ → Prop} {result : CallM (Ledger A σ)} (hl : P l)
    (h : ∀ l', result = .ok l' → P l') : P (result.toOption.getD l) := by
  cases result with
  | ok l' => exact h l' rfl
  | error e => exact hl

theorem Ledger.step_booked (hbooked : Booked l.contract.state l.contract.policyState)
    (step : VaultStep A σ) :
    Booked (l.step host step).contract.state (l.step host step).contract.policyState := by
  cases step with
  | command timestamp command =>
    simp only [Ledger.step]
    split
    · next h => exact (executePublicCommand_kept h).booked hbooked
    · exact hbooked
  | governance timestamp caller command =>
    exact getD_induct (P := fun l => Booked l.contract.state l.contract.policyState) hbooked
      fun _ h => executeGovernance_booked h hbooked
  | upgrade caller =>
    refine getD_induct (P := fun l => Booked l.contract.state l.contract.policyState) hbooked ?_
    intro l' h
    simp only [SorobanVault.upgrade, do_ok] at h
    obtain ⟨-, rfl⟩ := h
    exact hbooked
  | migrate timestamp caller =>
    exact getD_induct (P := fun l => Booked l.contract.state l.contract.policyState) hbooked
      fun _ h => migrate_booked h hbooked
  | world world => exact hbooked

/-- After any sequence of calls on a vault, whatever tokens and adapters answer, the kernel's
external assets are the sum of the principals, the total is idle and external together, a group
is recorded with what its markets hold, the supply queue names open markets only, and no
operation is under way. -/
theorem books_agree (world : σ) (curator governance assetToken shareToken : A)
    (virtualShares virtualAssets : Int) (withdrawalCooldownNs idleResyncCooldownNs : Nat)
    (h : initializeImpl host none world curator governance assetToken shareToken virtualShares
      virtualAssets withdrawalCooldownNs idleResyncCooldownNs = .ok l)
    (steps : List (VaultStep A σ)) :
    let c := (l.run host steps).contract
    c.state.externalAssets = c.policyState.principalTotal ∧
    c.state.totalAssets = c.state.idleAssets + c.state.externalAssets ∧
    (∀ id record, c.policyState.capGroup id = some record →
      record.principal = c.policyState.groupTotal id) ∧
    (∀ e ∈ c.policyState.supplyQueue.entries, ∃ config,
      c.policyState.marketConfig e.targetId = some config ∧ config.enabled = true ∧ config.cap ≠ 0) ∧
    c.state.opState = .idle := by
  have hnew : Booked l.contract.state l.contract.policyState := by
    simp only [initializeImpl, do_ok] at h
    obtain ⟨-, _, -, _, -, -, -, rfl⟩ := h
    exact ⟨.of_new, PolicyState.sound_default, rfl, rfl⟩
  have hbooked : Booked (l.run host steps).contract.state (l.run host steps).contract.policyState := by
    refine List.foldlRecOn steps (Ledger.step host)
      (motive := fun l => Booked l.contract.state l.contract.policyState) hnew ?_
    intro l hl step _
    exact Ledger.step_booked hl step
  exact ⟨hbooked.external, hbooked.kernel.balanced, fun _ _ => hbooked.policy.group_principal,
    hbooked.policy.targets, hbooked.idle⟩

/-- A command of governance that sets a policy. -/
def policyStep (kind : GovernancePolicyKind) (targetIds : Option (List Nat))
    (accounts : Option (List Nat)) (marketId : Option Nat) (value : Option Int) : VaultStep Nat Int :=
  .governance 0 2 (.setGovernancePolicy
    { kind, targetIds, mode := none, accounts, marketId, capGroupId := none, value, valueB := none
      valueC := none })

/-- Governance opens a market through the adapter at 20, a hundred units are deposited, and the
curator supplies sixty of them. -/
def supplied : List (VaultStep Nat Int) :=
  [policyStep .cap none none (some 7) (some 100),
    .governance 0 2 (.setGovernanceConfig ⟨.allowedAdapters, none, some [20], none, none⟩),
    policyStep .supplyQueue (some [7]) (some [20]) none none,
    .command 0 (.depositWithMin 8 8 100 0), .command 0 (.allocate 3 7 60 true)]

theorem books_agree_with_market : ∃ l, initializeImpl sampleHost none 0 3 2 10 11 0 0 0 0 = .ok l ∧
    (l.run sampleHost supplied).contract.state.idleAssets = 40 ∧
    (l.run sampleHost supplied).contract.policyState.principalFor 7 = some 60 ∧
    (l.run sampleHost supplied).contract.state.externalAssets =
      (l.run sampleHost supplied).contract.policyState.principalTotal := by
  obtain ⟨l, hl, hidle, hprincipal⟩ : ∃ l, initializeImpl sampleHost none 0 3 2 10 11 0 0 0 0 = .ok l ∧
      (l.run sampleHost supplied).contract.state.idleAssets = 40 ∧
      (l.run sampleHost supplied).contract.policyState.principalFor 7 = some 60 := by
    decide +kernel
  exact ⟨l, hl, hidle, hprincipal, (books_agree 0 3 2 10 11 0 0 0 0 hl supplied).1⟩

end Templar.SorobanVault
