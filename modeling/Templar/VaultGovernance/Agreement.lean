import Templar.VaultGovernance.Mirror

/-!
# Agreement of the two contracts

From their creation on, what governance has recorded of the vault is what the vault has, as long
as nobody but governance gives the vault commands. The sentinel may, and then the record of the
pause and of the restrictions is out of date: governance refuses to resume a vault that it does
not know to be paused.
-/

namespace Templar.VaultGovernance

open Checked Curator SorobanVault Vault GovernanceError

variable {A σ ε : Type} [DecidableEq A] {action : GovernanceAction A} {e e' : ε}

/-- The recorded pause and restrictions are the vault's. A list that is recorded with no
restriction is not looked at. -/
structure BrakesMirrored (g : Governance A) (v : Settings A) : Prop where
  paused : v.paused = g.currentPaused
  restrictions : v.restrictions =
    Brake.proposedRestrictions g.currentRestrictionMode g.currentRestrictionAccounts

/-- From the first executed `SetFees` on, the recorded fees are the vault's. Before it neither
contract has changed its own. -/
structure FeesMirrored (s₀ : System A σ) (history : List (GovernanceAction A)) (g : Governance A)
    (v : Settings A) : Prop where
  set : ∀ params, .setFees params ∈ history → g.currentFees.NonNegative ∧ v.fees = g.currentFees.spec
  unset : (∀ params, .setFees params ∉ history) →
    g.currentFees = s₀.governance.currentFees ∧ v.fees = s₀.settings.fees

variable {g g' : Governance A} {v v' : Settings A} {link : Link A σ} {s₀ s : System A σ}
  {timestamp : Nat} {history : List (GovernanceAction A)}

/-- Every action is recorded as it is enacted. -/
theorem BrakesMirrored.enact (h : BrakesMirrored g v) (henacts : Enacts v v' action) :
    BrakesMirrored (g.recordAction action) v' := by
  have hframe := henacts.frame
  cases action
  case setPaused paused =>
    cases henacts
    exact ⟨rfl, h.restrictions⟩
  case setRestrictions mode accounts =>
    cases henacts
    exact ⟨h.paused, rfl⟩
  all_goals
    exact ⟨(hframe.paused nofun).trans h.paused, (hframe.restrictions nofun).trans h.restrictions⟩

theorem FeesMirrored.enact (h : FeesMirrored s₀ history g v) (henacts : Enacts v v' action) :
    FeesMirrored s₀ (history ++ [action]) (g.recordAction action) v' := by
  have hframe := henacts.frame
  cases action
  case setFees params =>
    obtain ⟨hnonneg, rfl⟩ := henacts
    exact ⟨fun _ _ => ⟨hnonneg, rfl⟩, fun hnone => absurd (by simp) (hnone params)⟩
  all_goals
    have hfees := hframe.fees nofun
    constructor
    · intro params hset
      rw [hfees]
      exact h.set params (by simpa using hset)
    · intro hnone
      rw [hfees]
      exact h.unset fun params => by simpa using hnone params

/-- Runs whose steps satisfy a condition in the state they are taken in, with the actions that
governance has executed. -/
inductive Runs (link : Link A σ) (P : System A σ → Step A σ → Prop)
    (s₀ : System A σ) : List (GovernanceAction A) → System A σ → Prop
  | refl : Runs link P s₀ [] s₀
  | tail {history s step} (run : Runs link P s₀ history s) (ok : P s step) :
      Runs link P s₀ (history ++ (s.executes link step).toList) (s.step link step)

/-- What the two contracts agree on. -/
structure Agree (s₀ : System A σ) (history : List (GovernanceAction A)) (g : Governance A)
    (v : Settings A) : Prop where
  mirrors : Mirrors g v
  brakes : BrakesMirrored g v
  fees : FeesMirrored s₀ history g v

/-- The recorded rates are the vault's, whoever is paid. -/
structure SameRates (params : FeeParams A) (fees : FeesSpec A) : Prop where
  performance : (fees.performance.feeWad : Int) = params.performanceFeeWad
  management : (fees.management.feeWad : Int) = params.managementFeeWad
  growth : SameAmount params.maxGrowthRateWad fees.maxTotalAssetsGrowthRate

/-- At the start nothing is charged. -/
theorem Created.agree (h : Created link s₀) : Agree s₀ [] s₀.governance s₀.settings ∧
    SameRates s₀.governance.currentFees s₀.settings.fees := by
  obtain ⟨world, admin, timelockNs, hnew⟩ := h.governance
  obtain ⟨vaultWorld, curator, assetToken, shareToken, virtualShares, virtualAssets,
    withdrawalCooldownNs, idleResyncCooldownNs, hvault⟩ := h.vault
  obtain ⟨g, l⟩ := s₀
  simp only [construct, do_ok] at hnew
  obtain ⟨-, -, -, rfl⟩ := hnew
  simp only [initializeImpl, do_ok] at hvault
  obtain ⟨-, _, -, _, -, -, -, rfl⟩ := hvault
  refine ⟨⟨⟨rfl, ?_, ?_, ?_, ?_⟩, ⟨rfl, rfl⟩, nofun, fun _ => ⟨rfl, rfl⟩⟩, rfl, rfl, nofun, rfl⟩
  · intro marketId
    exact ⟨nofun, rfl⟩
  · intro id hknown
    cases hknown
  · intro id hknown
    cases hknown
  · intro marketId hknown
    cases hknown

theorem Agree.congr (h : Agree s₀ history g v) (hsame : SameRecord g g') : Agree s₀ history g' v := by
  have hmirrors := h.mirrors.congr hsame
  obtain ⟨_, _, _, _, _, rfl⟩ := hsame
  exact ⟨hmirrors, ⟨h.brakes.paused, h.brakes.restrictions⟩, ⟨h.fees.set, h.fees.unset⟩⟩

theorem Runs.agree (hcreated : Created link s₀) (h : Runs link (Calm link) s₀ history s) :
    Agree s₀ history s.governance s.settings := by
  induction h with
  | refl => exact hcreated.agree.1
  | tail _ hcalm ih =>
    rcases hcalm.recorded with ⟨hrecord, hsettings, hnone⟩ | ⟨action, haction, hrecord, henacts⟩
    · rw [hsettings, hnone]
      simpa using ih.congr hrecord
    · rw [haction]
      exact .congr ⟨ih.mirrors.enact henacts, ih.brakes.enact henacts, ih.fees.enact henacts⟩ hrecord

section

omit [DecidableEq A]

theorem eq_of_ensure_eq_error {c : Prop} [Decidable c] (h : ensure c e = .error e') : e' = e := by
  by_cases hc : c
  · rw [ensure_of hc] at h
    cases h
  · rw [ensure_of_not hc] at h
    cases h
    rfl

theorem eq_of_okOr_eq_error {α : Type} {o : Option α} (h : okOr o e = .error e') : e' = e := by
  cases o with
  | none =>
    cases h
    rfl
  | some a => cases h

theorem ledgerTimestamp_error {e : GovernanceFault} (h : ledgerTimestamp timestamp = .error e) :
    e = arithmeticOverflow.fault := by
  unfold ledgerTimestamp at h
  exact eq_of_okOr_eq_error h

theorem nextProposalId_error {e : GovernanceFault} (h : nextProposalId g = .error e) :
    e = arithmeticOverflow.fault := by
  unfold nextProposalId at h
  rcases bind_eq_error.mp h with h | ⟨_, -, h⟩
  · exact eq_of_okOr_eq_error h
  · cases h

end

/-- A submission of a brake is refused as no change only if it is one. -/
theorem submit_brake_ne_noChange {b : Brake A} {caller : A}
    (hdecide : decideSubmission s.governance timestamp b.action = .ok .timelocked) :
    submit link timestamp s caller b.action ≠ .error noChange.fault := by
  intro h
  have hvalid : validateAction link s.ledger.world b.action = .ok () := by
    cases b <;> rfl
  unfold submit at h
  rcases bind_eq_error.mp h with h | ⟨_, -, h⟩
  · cases eq_of_ensure_eq_error h
  rcases bind_eq_error.mp h with h | ⟨_, -, h⟩
  · cases eq_of_ensure_eq_error h
  rcases bind_eq_error.mp h with h | ⟨_, -, h⟩
  · rw [hvalid] at h
    cases h
  rcases bind_eq_error.mp h with h | ⟨decision, hdecision, h⟩
  · rw [hdecide] at h
    cases h
  rcases bind_eq_error.mp h with h | ⟨nowNs, -, h⟩
  · cases ledgerTimestamp_error h
  rcases bind_eq_error.mp h with h | ⟨_, -, h⟩
  · cases eq_of_ensure_eq_error h
  rcases bind_eq_error.mp h with h | ⟨_, -, h⟩
  · cases nextProposalId_error h
  rw [hdecide] at hdecision
  cases hdecision
  cases h

omit [DecidableEq A] in
theorem FeeParams.NonNegative.sameRates {params : FeeParams A} (h : params.NonNegative) :
    SameRates params params.spec :=
  ⟨Int.toNat_of_nonneg h.performance, Int.toNat_of_nonneg h.management, h.growth, rfl⟩

theorem FeesMirrored.sameRates (h : FeesMirrored s₀ history g v) (hcreated : Created link s₀) :
    SameRates g.currentFees v.fees := by
  by_cases hset : ∃ params, .setFees params ∈ history
  · obtain ⟨params, hparams⟩ := hset
    obtain ⟨hnonneg, hfees⟩ := h.set params hparams
    rw [hfees]
    exact hnonneg.sameRates
  · obtain ⟨hrecord, hfees⟩ := h.unset (not_exists.mp hset)
    rw [hrecord, hfees]
    exact hcreated.agree.2

/-- After any run in which governance keeps the vault and nobody commands the vault directly,
the recorded settings are the vault's. In particular a paused vault can be proposed to resume,
and restrictions can be proposed to be lifted. -/
theorem record_agrees_with_vault (hcreated : Created link s₀)
    (hrun : Runs link (Calm link) s₀ history s) :
    BrakesMirrored s.governance s.settings ∧ SameRates s.governance.currentFees s.settings.fees ∧
    FeesMirrored s₀ history s.governance s.settings ∧
    Mirrors s.governance s.settings ∧
    (s.ledger.contract.paused = true → ∀ timestamp caller,
      submit link timestamp s caller (.setPaused false) ≠ .error noChange.fault) ∧
    (s.ledger.contract.restrictions ≠ none → ∀ timestamp caller accounts,
      submit link timestamp s caller (.setRestrictions .none accounts) ≠
        .error noChange.fault) := by
  have hagree := Runs.agree hcreated hrun
  refine ⟨hagree.brakes, hagree.fees.sameRates hcreated, hagree.fees, hagree.mirrors, ?_, ?_⟩
  · intro hpaused timestamp caller
    have hrecorded : s.governance.currentPaused = true := hagree.brakes.paused ▸ hpaused
    have hdecide : decideSubmission s.governance timestamp (Brake.pause false).action =
        .ok .timelocked := by
      simp only [decideSubmission, Brake.action, timelockedChange]
      rw [ensure_of trivial, hrecorded]
      rfl
    exact submit_brake_ne_noChange hdecide
  · intro hrestricted timestamp caller accounts
    have hmode : s.governance.currentRestrictionMode ≠ .none := by
      intro hmode
      apply hrestricted
      have hsame := hagree.brakes.restrictions
      rw [hmode] at hsame
      exact hsame
    have hdecide : decideSubmission s.governance timestamp (Brake.restrict .none accounts).action =
        .ok .timelocked := by
      have hchange : (s.governance.currentRestrictionMode, s.governance.currentRestrictionAccounts) ≠
          (.none, accounts) := fun heq => hmode (congrArg Prod.fst heq)
      simp only [decideSubmission, Brake.action, timelockedChange]
      rw [ensure_of hchange]
      rfl
    exact submit_brake_ne_noChange hdecide

/-- A sentinel is named and pauses the vault. -/
def pausing : List (Step Nat Int) :=
  [.governance 0 (.submit 5 (.setSentinel 7)), .governance 0 (.setPaused 7 true)]

theorem record_agrees_with_vault_paused : ∃ s₀, Fresh 0 s₀ ∧
    (s₀.run sampleLink pausing).ledger.contract.paused = true ∧
    submit sampleLink 0 (s₀.run sampleLink pausing) 5 (.setPaused false) ≠ .error noChange.fault := by
  obtain ⟨s₀, hs₀⟩ : ∃ s₀, Fresh 0 s₀ := ⟨⟨_, _⟩, rfl, rfl⟩
  have hpaused : (s₀.run sampleLink pausing).ledger.contract.paused = true := by
    obtain ⟨g, l⟩ := s₀
    cases hs₀.1
    cases hs₀.2
    decide +kernel
  have hcalm : ∀ s call, Calm sampleLink s (.governance 0 call) := by
    intro s call timestamp caller command h
    cases h
  have hrun : ∃ history, Runs sampleLink (Calm sampleLink) s₀ history (s₀.run sampleLink pausing) :=
    ⟨_, .tail (.tail .refl (hcalm _ _)) (hcalm _ _)⟩
  obtain ⟨history, hrun⟩ := hrun
  exact ⟨s₀, hs₀, hpaused, (record_agrees_with_vault hs₀.created hrun).2.2.2.2.1 hpaused 0 5⟩

/-- The sentinel pauses the vault by a command of its own. -/
def pausingDirectly : List (Step Nat Int) :=
  [.governance 0 (.submit 5 (.setSentinel 7)), .command 0 7 (.setGovernancePolicy
    { kind := .paused, targetIds := none, mode := some 1, accounts := none, marketId := none
      capGroupId := none, value := none, valueB := none, valueC := none })]

/-- The vault is paused, governance has it as running and refuses a proposal to resume. -/
theorem record_differs_from_vault : ∃ s₀, Fresh 0 s₀ ∧
    (s₀.run sampleLink pausingDirectly).ledger.contract.paused = true ∧
    (s₀.run sampleLink pausingDirectly).governance.currentPaused = false ∧
    submit sampleLink 0 (s₀.run sampleLink pausingDirectly) 5 (.setPaused false) =
      .error noChange.fault := by
  refine ⟨⟨_, _⟩, ⟨rfl, rfl⟩, ?_, ?_, ?_⟩
  all_goals decide +kernel

end Templar.VaultGovernance
