import Templar.VaultGovernance.Effects

/-!
# Governance's record of the vault

Submissions are judged by the settings that governance has recorded. A step either leaves the
record and the vault's settings alone or records the action it enacts (`Calm.recorded`), unless
somebody goes to the vault directly. `Mirrors` says which caps and
groups then agree.
-/

namespace Templar.VaultGovernance

open Checked Curator SorobanVault Vault Governance Rules Function Option

variable {A σ : Type} {marketId : Nat} {cap : Int} {id : CapGroupId}
  {bound : CapGroup → Option Nat} {r : Rules} {f : CapGroup → CapGroup}

/-- What the vault is set to. -/
def System.settings (s : System A σ) : Settings A := s.ledger.contract.settings

section

variable [DecidableEq A] {g g' : Governance A}

variable {link : Link A σ} {timestamp : Nat} {s s' : System A σ}
  {a : Option (GovernanceAction A)} {events : List (Event A)}

section

omit [DecidableEq A]

/-- Nothing but the queue, the approvals and the abdicated powers is different. -/
def SameRecord (g g' : Governance A) : Prop :=
  ∃ nextProposalId pendingPageIndex pendingPages approvedOtherUntil abdicated,
    g' = { g with nextProposalId, pendingPageIndex, pendingPages, approvedOtherUntil, abdicated }

theorem SameRecord.refl (g : Governance A) : SameRecord g g := ⟨_, _, _, _, _, rfl⟩

theorem SameRecord.trans {g'' : Governance A} (h : SameRecord g g') (h' : SameRecord g' g'') :
    SameRecord g g'' := by
  obtain ⟨_, _, _, _, _, rfl⟩ := h
  obtain ⟨_, _, _, _, _, rfl⟩ := h'
  exact ⟨_, _, _, _, _, rfl⟩

theorem SameRecord.recordAction (h : SameRecord g g') (action : GovernanceAction A) :
    SameRecord (g.recordAction action) (g'.recordAction action) := by
  obtain ⟨_, _, _, _, _, rfl⟩ := h
  cases action <;> exact ⟨_, _, _, _, _, rfl⟩

end

theorem executeAction_record {action : GovernanceAction A}
    (h : executeAction link timestamp s action = .ok s') :
    SameRecord (s.governance.recordAction action) s'.governance := by
  obtain ⟨approvals, hg⟩ := executeAction_governance h
  exact ⟨_, _, _, approvals, _, hg⟩

/-- A call leaves the record and the vault's settings alone, or records the action that it
enacts. -/
theorem Did.recorded (h : Did link timestamp s a events s') :
    (SameRecord s.governance s'.governance ∧ s'.settings = s.settings ∧ a = none) ∨
      ∃ action, a = some action ∧ SameRecord (s.governance.recordAction action) s'.governance ∧
        Enacts s.settings s'.settings action := by
  cases h with
  | @immediate action nowNs g s₁ submitted replaced done =>
    have henacts := executeAction_enacts done
    refine .inr ⟨_, rfl, .trans (.recordAction ?_ action) (executeAction_record done), henacts⟩
    rcases replaced with ⟨rfl, -⟩ | rfl <;> exact ⟨_, _, _, _, _, rfl⟩
  | accepted split now mature inTime done =>
    have henacts := executeAction_enacts done
    exact .inr ⟨_, rfl, (executeAction_record done).trans ⟨_, _, _, _, _, rfl⟩, henacts⟩
  | byHand sentinel allowed hand done =>
    obtain ⟨command, hcommand, hledger, hgovernance⟩ := executeVaultGovernanceAction_eq_ok done
    refine .inr ⟨_, rfl, ?_, command_enacts hcommand hledger⟩
    rw [← hgovernance]
    exact .refl _
  | queued submitted room | revoked removed | approval | abdicated =>
    exact .inl ⟨⟨_, _, _, _, _, rfl⟩, rfl, rfl⟩
  | nothing => exact .inl ⟨.refl _, rfl, rfl⟩

/-- A command given to the vault directly does not go through. -/
def Calm (link : Link A σ) (s : System A σ) (step : Step A σ) : Prop :=
  ∀ timestamp caller command, step = .command timestamp caller command →
    (s.step link step).ledger = s.ledger

omit [DecidableEq A] in
theorem withLedger_settings {result : CallM (Ledger A σ)}
    (h : ∀ l, result = .ok l → l.contract.settings = s.settings) :
    (s.withLedger result).settings = s.settings := by
  cases result with
  | ok l => exact h l rfl
  | error e => rfl

theorem Calm.recorded {step : Step A σ} (h : Calm link s step) :
    (SameRecord s.governance (s.step link step).governance ∧
        (s.step link step).settings = s.settings ∧ s.executes link step = none) ∨
      ∃ action, s.executes link step = some action ∧
        SameRecord (s.governance.recordAction action) (s.step link step).governance ∧
        Enacts s.settings (s.step link step).settings action := by
  cases step with
  | governance timestamp call =>
    simp only [System.executes, System.step]
    cases h : execute link timestamp s call with
    | ok done => exact (execute_did h).recorded
    | error e => exact .inl ⟨.refl _, rfl, rfl⟩
  | vault timestamp command =>
    refine .inl ⟨governance_withLedger s _ ▸ .refl _, withLedger_settings ?_, rfl⟩
    intro l hl
    obtain ⟨⟨receipt, m⟩, hm, rfl⟩ := map_eq_ok.mp hl
    exact (executePublicCommand_kept hm).settings
  | command timestamp caller command =>
    have hledger := h timestamp caller command rfl
    exact .inl ⟨governance_withLedger s _ ▸ .refl _,
      congrArg (fun l : Ledger A σ => l.contract.settings) hledger, rfl⟩
  | upgrade caller =>
    refine .inl ⟨governance_withLedger s _ ▸ .refl _, withLedger_settings ?_, rfl⟩
    intro l hl
    simp only [SorobanVault.upgrade, do_ok] at hl
    obtain ⟨-, rfl⟩ := hl
    rfl
  | migrate timestamp caller =>
    exact .inl ⟨governance_withLedger s _ ▸ .refl _,
      withLedger_settings fun l hl => migrate_settings hl, rfl⟩
  | world world => exact .inl ⟨.refl _, rfl, rfl⟩

end

/-- A recorded amount and the vault's. -/
def SameAmount (recorded : Option Int) (stored : Option Nat) : Prop :=
  (∀ c ∈ recorded, 0 ≤ c) ∧ stored = recorded.map Int.toNat

/-- The settings by which submissions are judged agree with the vault's. -/
structure Mirrors (g : Governance A) (v : Settings A) : Prop where
  sentinel : v.sentinel = g.sentinel
  cap : ∀ marketId, SameAmount (g.currentCap marketId) ((v.rules.market marketId).map MarketConfig.cap)
  groupCap : ∀ id, g.knownCapGroupCap id = true → ∃ group : CapGroupId, group.value = id ∧
    SameAmount (g.currentCapGroupCap id) ((v.rules.cap group).bind CapGroup.absoluteCap)
  groupRelCap : ∀ id, g.knownCapGroupRelCap id = true → ∃ group : CapGroupId, group.value = id ∧
    SameAmount (g.currentCapGroupRelCap id) ((v.rules.cap group).bind CapGroup.relativeCap)
  member : ∀ marketId, g.knownCapGroupMembership marketId = true →
    ((v.rules.market marketId).bind MarketConfig.capGroupId).map CapGroupId.value =
      g.currentCapGroupMembership marketId

theorem sameAmount_some {c : Int} (hc : 0 ≤ c) : SameAmount (some c) (some c.toNat) := by
  refine ⟨?_, rfl⟩
  rintro _ ⟨⟩
  exact hc

variable {g : Governance A} {v v' : Settings A}

/-- A cap that is set is recorded; the groups are not touched. -/
theorem Mirrors.setCap (h : Mirrors g v) (hcap : 0 ≤ cap) :
    Mirrors (g.recordAction (.setCap marketId cap))
      { v with rules := v.rules.withMarketCap marketId cap.toNat } := by
  refine ⟨h.sentinel, ?_, h.groupCap, h.groupRelCap, ?_⟩
  · intro m
    by_cases hm : m = marketId
    · subst hm
      simpa [recordAction, withMarketCap] using sameAmount_some hcap
    · simpa [recordAction, withMarketCap, hm] using h.cap m
  · intro m hknown
    have hold := h.member m hknown
    by_cases hm : m = marketId
    · subst hm
      refine Eq.trans ?_ hold
      simp only [withMarketCap, update_self]
      cases v.rules.market m <;> rfl
    · simpa [recordAction, withMarketCap, hm] using hold

theorem Mirrors.removeMarket (h : Mirrors g v) (marketId : Nat) :
    Mirrors (g.recordAction (.removeMarket marketId))
      { v with rules := v.rules.withoutMarket marketId } := by
  refine ⟨h.sentinel, ?_, h.groupCap, h.groupRelCap, ?_⟩
  · intro m
    by_cases hm : m = marketId
    · subst hm
      simp [recordAction, withoutMarket, SameAmount]
    · simpa [recordAction, withoutMarket, hm] using h.cap m
  · intro m hknown
    by_cases hm : m = marketId
    · subst hm
      simp [recordAction, withoutMarket]
    · simpa [recordAction, withoutMarket, hm] using h.member m hknown

theorem withGroup_self (r : Rules) (id : CapGroupId) (f : CapGroup → CapGroup) :
    (r.withGroup id f).cap id = some (f ((r.cap id).getD ⟨none, none⟩)) := update_self ..

theorem withGroup_of_ne (r : Rules) {k : CapGroupId} (f : CapGroup → CapGroup) (h : k ≠ id) :
    (r.withGroup id f).cap k = r.cap k := update_of_ne h ..

/-- A bound of a group that is set is recorded, and the others stay. -/
theorem mirrored_withGroup {recorded : String → Option Int} {known : String → Bool}
    (h : ∀ k, known k = true → ∃ group : CapGroupId, group.value = k ∧
      SameAmount (recorded k) ((r.cap group).bind bound)) (hcap : 0 ≤ cap)
    (hbound : ∀ c, bound (f c) = some cap.toNat) (k : String)
    (hk : update known id.value true k = true) : ∃ group : CapGroupId, group.value = k ∧
      SameAmount (update recorded id.value (some cap) k)
        (((r.withGroup id f).cap group).bind bound) := by
  by_cases hid : k = id.value
  · subst hid
    refine ⟨id, rfl, ?_⟩
    rw [update_self, withGroup_self, bind_some, hbound]
    exact sameAmount_some hcap
  · rw [update_of_ne hid] at hk ⊢
    obtain ⟨group, rfl, hgroup⟩ := h k hk
    refine ⟨group, rfl, ?_⟩
    rw [withGroup_of_ne]
    · exact hgroup
    · rintro rfl
      exact hid rfl

/-- Setting one bound of a group leaves the other. -/
theorem bound_withGroup (hbound : ∀ c, bound (f c) = bound c) (hnone : bound ⟨none, none⟩ = none)
    (group : CapGroupId) :
    ((r.withGroup id f).cap group).bind bound = (r.cap group).bind bound := by
  by_cases hid : group = id
  · subst hid
    rw [withGroup_self, bind_some, hbound]
    cases r.cap group with
    | none => exact hnone
    | some c => rfl
  · rw [withGroup_of_ne _ _ hid]

theorem Mirrors.setGroupCap (h : Mirrors g v) (hcap : 0 ≤ cap) :
    Mirrors (g.recordAction (.setGroupCap id.value cap))
      { v with rules := v.rules.withGroup id fun c => { c with absoluteCap := some cap.toNat } } := by
  refine ⟨h.sentinel, h.cap, mirrored_withGroup (f := fun c => { c with absoluteCap := some cap.toNat })
    h.groupCap hcap fun _ => rfl, ?_, h.member⟩
  intro k hk
  obtain ⟨group, hvalue, hgroup⟩ := h.groupRelCap k hk
  refine ⟨group, hvalue, ?_⟩
  have hsame : ((v.rules.withGroup id fun c => { c with absoluteCap := some cap.toNat }).cap group).bind
      CapGroup.relativeCap = (v.rules.cap group).bind CapGroup.relativeCap  := by
    apply bound_withGroup
    · intro c
      rfl
    · rfl
  simp only [hsame]
  exact hgroup

theorem Mirrors.setGroupRelCap (h : Mirrors g v) (hcap : 0 ≤ cap) :
    Mirrors (g.recordAction (.setGroupRelCap id.value cap))
      { v with rules := v.rules.withGroup id fun c => { c with relativeCap := some cap.toNat } } := by
  refine ⟨h.sentinel, h.cap, ?_,
    mirrored_withGroup (f := fun c => { c with relativeCap := some cap.toNat }) h.groupRelCap hcap
      fun _ => rfl, h.member⟩
  intro k hk
  obtain ⟨group, hvalue, hgroup⟩ := h.groupCap k hk
  refine ⟨group, hvalue, ?_⟩
  have hsame : ((v.rules.withGroup id fun c => { c with relativeCap := some cap.toNat }).cap group).bind
      CapGroup.absoluteCap = (v.rules.cap group).bind CapGroup.absoluteCap  := by
    apply bound_withGroup
    · intro c
      rfl
    · rfl
  simp only [hsame]
  exact hgroup

theorem Mirrors.setGroupMember (h : Mirrors g v) {capGroupId : String} {id : Option CapGroupId}
    (hid : id.map CapGroupId.value = proposedGroup capGroupId)
    (hmarket : (v.rules.market marketId).isSome = true) :
    Mirrors (g.recordAction (.setGroupMember marketId capGroupId))
      { v with rules := v.rules.withMember marketId id } := by
  refine ⟨h.sentinel, ?_, h.groupCap, h.groupRelCap, ?_⟩
  · intro m
    have hold := h.cap m
    by_cases hm : m = marketId
    · subst hm
      simp only [withMember, update_self, map_map]
      exact hold
    · simp only [withMember, update_of_ne hm]
      exact hold
  · intro m hknown
    by_cases hm : m = marketId
    · subst hm
      obtain ⟨config, hconfig⟩ := isSome_iff_exists.mp hmarket
      simp only [recordAction, withMember, update_self, hconfig, map_some, bind_some]
      exact hid
    · simp only [recordAction, withMember, update_of_ne hm] at hknown ⊢
      exact h.member m hknown

variable [DecidableEq A]

/-- Every action is recorded as it is enacted. -/
theorem Mirrors.enact (h : Mirrors g v) {action : GovernanceAction A} (henacts : Enacts v v' action) :
    Mirrors (g.recordAction action) v' := by
  cases action
  case setSentinel sentinel =>
    cases henacts
    exact ⟨rfl, h.cap, h.groupCap, h.groupRelCap, h.member⟩
  case setCap marketId cap =>
    obtain ⟨hcap, rfl⟩ := henacts
    exact h.setCap hcap
  case removeMarket marketId =>
    obtain ⟨-, rfl⟩ := henacts
    exact h.removeMarket marketId
  case setGroupCap capGroupId cap =>
    obtain ⟨hcap, id, rfl, rfl⟩ := henacts
    exact h.setGroupCap hcap
  case setGroupRelCap capGroupId cap =>
    obtain ⟨hcap, id, rfl, rfl⟩ := henacts
    exact h.setGroupRelCap hcap
  case setGroupMember marketId capGroupId =>
    obtain ⟨hmarket, id, hid, rfl⟩ := henacts
    exact h.setGroupMember hid hmarket
  case setSupplyQueue entries =>
    obtain ⟨queue, rfl⟩ := henacts
    exact ⟨h.sentinel, h.cap, h.groupCap, h.groupRelCap, h.member⟩
  case setFees params =>
    obtain ⟨-, rfl⟩ := henacts
    exact ⟨h.sentinel, h.cap, h.groupCap, h.groupRelCap, h.member⟩
  all_goals
    cases henacts
    exact ⟨h.sentinel, h.cap, h.groupCap, h.groupRelCap, h.member⟩

omit [DecidableEq A] in
theorem Mirrors.congr {g' : Governance A} (h : Mirrors g v) (hsame : SameRecord g g') :
    Mirrors g' v := by
  obtain ⟨_, _, _, _, _, rfl⟩ := hsame
  exact ⟨h.sentinel, h.cap, h.groupCap, h.groupRelCap, h.member⟩

end Templar.VaultGovernance
