import Templar.SorobanVault.Commands
import Templar.VaultGovernance.Proposals

/-!
# What an executed action does to the vault

An action that reaches the vault sets what it names and nothing else (`Enacts`). A direct command
of the sentinel changes the pause and the restrictions alone (`executeGovernance_sentinel`).
-/

namespace Templar.VaultGovernance

open Checked Curator SorobanVault Vault GovernanceAction Option

variable {A σ : Type} {action : GovernanceAction A} {host : Host A σ}
  {command : GovernanceCommand A}

/-- The fees of a proposal as the vault stores them. -/
def FeeParams.spec (params : FeeParams A) : FeesSpec A :=
  ⟨⟨params.performanceFeeWad.toNat, params.performanceRecipient⟩,
    ⟨params.managementFeeWad.toNat, params.managementRecipient⟩,
    params.maxGrowthRateWad.map Int.toNat⟩

structure FeeParams.NonNegative (params : FeeParams A) : Prop where
  performance : 0 ≤ params.performanceFeeWad
  management : 0 ≤ params.managementFeeWad
  growth : ∀ rate ∈ params.maxGrowthRateWad, 0 ≤ rate

variable [DecidableEq A]

/-- The vault's settings before and after an action that has been carried out. -/
def Enacts (v v' : Settings A) : GovernanceAction A → Prop
  | .setCurator curator => v' = { v with curator }
  | .setGovernance governance => v' = { v with governance }
  | .setSentinel sentinel => v' = { v with sentinel := some sentinel }
  | .setAllocators allocators => v' = { v with allocators }
  | .setAllowedAdapters adapters =>
    v' = { v with allowedAdapters := if adapters = [] then none else some adapters }
  | .setSkimRecipient recipient => v' = { v with skimRecipient := recipient }
  | .setWithdrawalCooldown ns => v' = { v with withdrawalCooldownNs := ns }
  | .setIdleResyncCooldown ns => v' = { v with idleResyncCooldownNs := ns }
  | .setMaxNavAge ns => v' = { v with maxNavAgeNs := ns }
  | .setSupplyQueue _ => ∃ queue, v' = { v with rules := { v.rules with queue } }
  | .setPaused paused => v' = { v with paused }
  | .setFees params => params.NonNegative ∧ v' = { v with fees := params.spec }
  | .setRestrictions mode accounts =>
    v' = { v with restrictions := Brake.proposedRestrictions mode accounts }
  | .setCap marketId cap =>
    0 ≤ cap ∧ v' = { v with rules := v.rules.withMarketCap marketId cap.toNat }
  | .removeMarket marketId =>
    (v.rules.market marketId).isSome = true ∧
      v' = { v with rules := v.rules.withoutMarket marketId }
  | .setGroupCap capGroupId cap => 0 ≤ cap ∧ ∃ id : CapGroupId, id.value = capGroupId ∧
      v' = { v with rules := v.rules.withGroup id fun c => { c with absoluteCap := some cap.toNat } }
  | .setGroupRelCap capGroupId cap => 0 ≤ cap ∧ ∃ id : CapGroupId, id.value = capGroupId ∧
      v' = { v with rules := v.rules.withGroup id fun c => { c with relativeCap := some cap.toNat } }
  | .setGroupMember marketId capGroupId => (v.rules.market marketId).isSome = true ∧
      ∃ id : Option CapGroupId, id.map CapGroupId.value = proposedGroup capGroupId ∧
      v' = { v with rules := v.rules.withMember marketId id }
  | .skim _ | .upgrade _ | .migrate | .cancelMigration | .setAdmin _ | .setTimelock _ _ | .other _ _ =>
    v' = v

variable {link : Link A σ} {timestamp : Nat} {s s' : System A σ} {caller : A} {l l' : Ledger A σ}

/-- A setting changes only by an action of its kind. -/
structure EnactsFrame (v v' : Settings A) (kind : GovernanceActionKind) : Prop where
  governance : kind ≠ .governance → v'.governance = v.governance
  paused : kind ≠ .pause → v'.paused = v.paused
  restrictions : kind ≠ .restrictions → v'.restrictions = v.restrictions
  fees : kind ≠ .fees → v'.fees = v.fees
  withdrawalCooldown : kind ≠ .withdrawalCooldown → v'.withdrawalCooldownNs = v.withdrawalCooldownNs
  idleResyncCooldown : kind ≠ .idleResyncCooldown → v'.idleResyncCooldownNs = v.idleResyncCooldownNs
  maxNavAge : kind ≠ .maxNavAge → v'.maxNavAgeNs = v.maxNavAgeNs
  curator : kind ≠ .curator → v'.curator = v.curator
  sentinel : kind ≠ .sentinel → v'.sentinel = v.sentinel
  allocators : kind ≠ .allocators → v'.allocators = v.allocators
  allowedAdapters : kind ≠ .allowedAdapters → v'.allowedAdapters = v.allowedAdapters
  skimRecipient : kind ≠ .skim → v'.skimRecipient = v.skimRecipient
  market : kind ≠ .cap → kind ≠ .marketRemoval → kind ≠ .capGroup → v'.rules.market = v.rules.market
  cap : kind ≠ .capGroup → v'.rules.cap = v.rules.cap
  queue : kind ≠ .supplyQueue → kind ≠ .cap → kind ≠ .marketRemoval → v'.rules.queue = v.rules.queue

theorem Enacts.frame {v v' : Settings A} (h : Enacts v v' action) :
    EnactsFrame v v' action.actionKind := by
  cases action
  case setSupplyQueue entries =>
    obtain ⟨queue, rfl⟩ := h
    constructor <;> simp [actionKind]
  case setFees params =>
    obtain ⟨-, rfl⟩ := h
    constructor <;> simp [actionKind]
  case setCap marketId cap =>
    obtain ⟨-, rfl⟩ := h
    constructor <;> simp [actionKind, Rules.withMarketCap]
  case removeMarket marketId =>
    obtain ⟨-, rfl⟩ := h
    constructor <;> simp [actionKind, Rules.withoutMarket]
  case setGroupCap | setGroupRelCap =>
    obtain ⟨-, id, -, rfl⟩ := h
    constructor <;> simp [actionKind, Rules.withGroup]
  case setGroupMember marketId capGroupId =>
    obtain ⟨-, id, -, rfl⟩ := h
    constructor <;> simp [actionKind, Rules.withMember]
  all_goals
    cases h
    constructor <;> simp [actionKind]

/-- The vault's side of a command: who sent it, and what it did. -/
theorem executeGovernance_eq_ok (h : executeGovernance host timestamp l caller command = .ok l') :
    (caller = l.contract.governance ∨
      l.contract.sentinel = some caller ∧ governanceCommandAllowsSentinel command = true) ∧
    executeGovernanceCommand host timestamp l caller command = .ok l' := by
  simp only [executeGovernance, do_ok] at h
  obtain ⟨kind, hkind, hallowed, h⟩ := h
  refine ⟨?_, h⟩
  unfold governanceCommandCallerKind at hkind
  split at hkind
  · next hgovernance => exact .inl hgovernance
  · split at hkind
    · next hsentinel =>
      cases hkind
      exact .inr ⟨hsentinel, ensure_eq_ok.mp hallowed⟩
    · cases hkind

theorem executeVaultGovernanceAction_eq_ok
    (h : executeVaultGovernanceAction link timestamp s caller action = .ok s') :
    ∃ command, governancePayloadForAction action = some command ∧
      executeGovernanceCommand link.host timestamp s.ledger caller command = .ok s'.ledger ∧
      s'.governance = s.governance := by
  simp only [executeVaultGovernanceAction, do_ok, orStop_eq_ok] at h
  obtain ⟨command, hcommand, ledger, hledger, rfl⟩ := h
  exact ⟨command, hcommand, (executeGovernance_eq_ok hledger).2, rfl⟩

theorem setGovernanceConfigImpl_eq_ok {args : GovernanceConfigArgs A}
    (h : executeGovernanceCommand host timestamp l caller (.setGovernanceConfig args) = .ok l') :
    applyConfig host l args = .ok l'.contract := by
  simp only [executeGovernanceCommand, setGovernanceConfigImpl, do_ok] at h
  obtain ⟨-, -, c, hc, rfl⟩ := h
  exact hc

theorem toU64_natCast {n : Nat} {m : Nat} (h : toU64 n = .ok m) : m = n := by
  simp only [toU64, do_ok] at h
  obtain ⟨-, rfl⟩ := h
  rfl

omit [DecidableEq A] in
theorem config_eq {c : Contract A} {settings : Settings A}
    (hc : l'.contract = c) (hsettings : c.settings = settings) : l'.contract.settings = settings := by
  rw [hc, hsettings]

theorem setGovernancePolicyImpl_of_command {args : GovernancePolicyArgs A}
    (h : executeGovernanceCommand host timestamp l caller (.setGovernancePolicy args) = .ok l') :
    setGovernancePolicyImpl host timestamp l caller args = .ok l' := by
  obtain ⟨_, -, h⟩ := bind_eq_ok.mp h
  exact h

/-- A change of a group that governance sends names a group that the vault knows how to
read. -/
theorem parseCapGroup_eq_ok {raw : String} {id : CapGroupId} (h : parseCapGroup raw = .ok id) :
    id.value = raw := by
  unfold parseCapGroup at h
  rw [CuratorVault.policyOrInvalidInput_eq_ok, CapGroupId.tryFrom_eq_ok] at h
  exact h

theorem optionalU128_eq_ok {value : Int} {cap : Option Nat}
    (h : optionalU128 (some value) = .ok cap) : 0 ≤ value ∧ cap = some value.toNat := by
  simp only [optionalU128, toU128, do_ok] at h
  obtain ⟨_, ⟨hvalue, rfl⟩, rfl⟩ := h
  exact ⟨hvalue, rfl⟩

/-- A command that carries an action to the vault enacts it. -/
theorem command_enacts (hcommand : governancePayloadForAction action = some command)
    (h : executeGovernanceCommand link.host timestamp l caller command = .ok l') :
    Enacts l.contract.settings l'.contract.settings action := by
  cases action <;> cases hcommand
  -- a configuration replaces one setting, once its value has been checked
  case' setCurator | setGovernance | setSentinel | setAllocators | setAllowedAdapters |
      setSkimRecipient | setWithdrawalCooldown | setIdleResyncCooldown | setMaxNavAge =>
    have hconfig := setGovernanceConfigImpl_eq_ok h
    simp only [applyConfig, applyCuratorConfig, applyGovernanceConfig, applySentinelConfig,
      applyAllocatorsConfig, applyAllowedAdaptersConfig, applyWithdrawalCooldownConfig,
      applyIdleResyncCooldownConfig, applyMaxNavAgeConfig, do_ok, ensureSome_eq_ok,
      some.injEq] at hconfig
    obtain ⟨_, rfl, hc⟩ := hconfig
  case setCurator | setGovernance | setSentinel => exact config_eq hc.2 rfl
  case setAllocators | setAllowedAdapters => exact config_eq hc.2.2 rfl
  case setSkimRecipient => exact config_eq hc rfl
  case setWithdrawalCooldown | setIdleResyncCooldown | setMaxNavAge =>
    obtain ⟨_, hns, hc⟩ := hc
    cases toU64_natCast hns
    exact config_eq hc rfl
  case skim token =>
    simp only [executeGovernanceCommand, skimImpl, do_ok] at h
    obtain ⟨-, -, -, _, -, -, _, -, rfl⟩ := h
    rfl
  -- a policy is one of nine kinds, each with its own arguments
  case' setSupplyQueue | setPaused | setFees | setRestrictions | setCap | removeMarket | setGroupCap |
      setGroupRelCap | setGroupMember =>
    have hpolicy := setGovernancePolicyImpl_of_command h
    simp only [setGovernancePolicyImpl, do_ok, ensureSome_eq_ok, some.injEq] at hpolicy
  case setSupplyQueue entries =>
    obtain ⟨-, -, -, -, -, -, -, _, rfl, hpolicy⟩ := hpolicy
    obtain ⟨queue, hbecame⟩ := applySupplyQueuePolicy_became hpolicy
    exact ⟨queue, hbecame.settings⟩
  case setPaused paused =>
    obtain ⟨-, -, -, -, -, -, -, _, rfl, hpolicy⟩ := hpolicy
    cases paused with
    | false | true => exact (applyPausedPolicy_became hpolicy).2.settings
  case setFees params =>
    obtain ⟨-, -, -, -, -, _, rfl, _, rfl, _, rfl, hpolicy⟩ := hpolicy
    obtain ⟨_, _, haccounts, hperformance, hmanagement, hrate, hbecame⟩ :=
      applyFeesPolicy_became hpolicy
    cases haccounts
    exact ⟨⟨hperformance, hmanagement, hrate⟩, hbecame.settings⟩
  case setRestrictions mode accounts =>
    obtain ⟨-, -, -, -, -, -, _, rfl, _, rfl, hpolicy⟩ := hpolicy
    obtain ⟨next, hnext, -, hbecame⟩ := applyRestrictionsPolicy_became hpolicy
    rw [Brake.restrictionsFromPolicy_asU32] at hnext
    cases hnext
    exact hbecame.settings
  case setCap marketId cap =>
    obtain ⟨-, -, -, -, -, -, -, _, rfl, _, rfl, hpolicy⟩ := hpolicy
    obtain ⟨hcap, hbecame⟩ := applyCapPolicy_became hpolicy
    exact ⟨hcap, hbecame.settings⟩
  case removeMarket marketId =>
    obtain ⟨-, -, -, -, -, -, -, -, _, rfl, hpolicy⟩ := hpolicy
    obtain ⟨⟨config, hconfig, -⟩, hbecame⟩ := applyRemoveMarketPolicy_became hpolicy
    exact ⟨isSome_of_eq_some hconfig, hbecame.settings⟩
  case setGroupCap | setGroupRelCap =>
    obtain ⟨-, -, -, -, -, _, rfl, hpolicy⟩ := hpolicy
    obtain ⟨update, hupdate, -, hbecame⟩ := applyGroupPolicy_became hpolicy
    simp only [capGroupUpdate, getD_some, do_ok] at hupdate
    obtain ⟨id, hid, newCap, hcap, rfl⟩ := hupdate
    obtain ⟨hpositive, rfl⟩ := optionalU128_eq_ok hcap
    exact ⟨hpositive, id, parseCapGroup_eq_ok hid, hbecame.settings⟩
  case setGroupMember marketId capGroupId =>
    obtain ⟨-, -, -, -, -, _, rfl, hpolicy⟩ := hpolicy
    obtain ⟨update, hupdate, hmarket, hbecame⟩ := applyGroupPolicy_became hpolicy
    simp only [capGroupUpdate, do_ok, ensureSome_eq_ok, some.injEq] at hupdate
    obtain ⟨_, rfl, hupdate⟩ := hupdate
    by_cases hempty : capGroupId = ""
    · have hgroup : proposedGroup capGroupId = none := if_pos hempty
      rw [hgroup] at hupdate
      cases hupdate
      exact ⟨hmarket _ _ rfl, none, hgroup.symm, hbecame.settings⟩
    · have hgroup : proposedGroup capGroupId = some capGroupId := if_neg hempty
      rw [hgroup, getD_some, if_neg hempty] at hupdate
      simp only [do_ok] at hupdate
      obtain ⟨id, hid, rfl⟩ := hupdate
      refine ⟨hmarket _ _ rfl, some id, ?_, hbecame.settings⟩
      rw [hgroup, map_some, parseCapGroup_eq_ok hid]

/-- An action that has been executed has been enacted. -/
theorem executeAction_enacts (h : executeAction link timestamp s action = .ok s') :
    Enacts s.ledger.contract.settings s'.ledger.contract.settings action := by
  cases action
  case setAdmin newAdmin =>
    cases h
    rfl
  case setTimelock kind newTimelockNs =>
    simp only [executeAction, do_ok] at h
    obtain ⟨-, rfl⟩ := h
    rfl
  case other key payloadHash =>
    simp only [executeAction, do_ok] at h
    obtain ⟨now, -, rfl⟩ := h
    rfl
  case upgrade newWasmHash =>
    simp only [executeAction, SorobanVault.upgrade, do_ok, orStop_eq_ok] at h
    obtain ⟨ledger, ⟨-, rfl⟩, rfl⟩ := h
    rfl
  case migrate =>
    simp only [executeAction, do_ok, orStop_eq_ok] at h
    obtain ⟨ledger, hledger, rfl⟩ := h
    exact migrate_settings hledger
  case cancelMigration =>
    simp only [executeAction, cancelMigrationImpl, do_ok, orStop_eq_ok] at h
    obtain ⟨ledger, ⟨-, -, rfl⟩, rfl⟩ := h
    rfl
  all_goals
    simp only [executeAction, do_ok] at h
    obtain ⟨t, ht, rfl⟩ := h
    obtain ⟨command, hcommand, hledger, -⟩ := executeVaultGovernanceAction_eq_ok ht
    exact command_enacts hcommand hledger

/-- A command of somebody else than governance only pauses the vault or restricts it further. -/
theorem executeGovernance_sentinel (hcaller : caller ≠ l.contract.governance)
    (h : executeGovernance host timestamp l caller command = .ok l') :
    l.contract.sentinel = some caller ∧
      (l'.contract.settings = { l.contract.settings with paused := true } ∨
        ∃ next, GovernanceRestrictions.determineRelaxed (governanceRestrictions l.contract.restrictions)
            (governanceRestrictions next) = false ∧
          l'.contract.settings = { l.contract.settings with restrictions := next }) := by
  obtain ⟨hwho, hcommand⟩ := executeGovernance_eq_ok h
  obtain ⟨hsentinel, hallows⟩ := hwho.resolve_left hcaller
  refine ⟨hsentinel, ?_⟩
  cases command with
  | setGovernanceConfig args => cases hallows
  | skim token => cases hallows
  | setGovernancePolicy args =>
    have hpolicy := setGovernancePolicyImpl_of_command hcommand
    simp only [governanceCommandAllowsSentinel, Bool.or_eq_true, beq_iff_eq] at hallows
    rcases hallows with hkind | hkind
    · simp only [setGovernancePolicyImpl, hkind, do_ok] at hpolicy
      obtain ⟨-, -, -, -, -, -, mode, -, accounts, -, hpolicy⟩ := hpolicy
      obtain ⟨next, -, hwho, hbecame⟩ := applyRestrictionsPolicy_became hpolicy
      split at hwho
      · exact absurd hwho hcaller
      · next hrelaxed =>
        exact .inr ⟨next, Bool.eq_false_of_not_eq_true hrelaxed, hbecame.settings⟩
    · simp only [setGovernancePolicyImpl, hkind, do_ok] at hpolicy
      obtain ⟨-, -, -, -, -, -, -, mode, -, hpolicy⟩ := hpolicy
      split at hpolicy
      · exact absurd (applyPausedPolicy_became hpolicy).1 hcaller
      · exact .inl (applyPausedPolicy_became hpolicy).2.settings
      · cases hpolicy

end Templar.VaultGovernance
