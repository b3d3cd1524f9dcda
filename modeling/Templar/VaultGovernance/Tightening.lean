import Templar.VaultGovernance.Effects

/-!
# What the sentinel can do for those who are refused

The sentinel pauses and restricts. Whom the restrictions or the pause keep out stay out over any
run of its commands. The vault itself is an exception at the head of the withdrawal queue: a
whitelist lets it through unlisted, where a blacklist that names it does not.
-/

namespace Templar.VaultGovernance

open Checked Curator SorobanVault Vault GovernanceRestrictions

variable {A σ : Type} [DecidableEq A] {host : Host A σ} {c : Contract A} {l l' : Ledger A σ}
  {account owner receiver self : A} {config : VaultConfig A}

/-- The check a deposit or a withdrawal makes of those who pay and are paid. -/
def Accepts (config : VaultConfig A) (c : Contract A) (account : A) : Prop :=
  enforceRestrictions { config with paused := c.paused } c.restrictions account = .ok ()

/-- The check of a queued withdrawal when its turn has come. -/
def AcceptsQueued (c : Contract A) (self owner receiver : A) : Prop :=
  c.paused = false ∧ restrictedWithdrawActor c.restrictions self owner receiver = none

/-- A command of a caller who is authorised as the sentinel. -/
def SentinelStep (host : Host A σ) (l l' : Ledger A σ) : Prop :=
  ∃ timestamp caller command, governanceCommandCallerKind l.contract caller = .ok .sentinel ∧
    executeGovernance host timestamp l caller command = .ok l'

theorem unrestricted_iff {r : Option (Restrictions A)} :
    r.bind (fun r => r.isRestricted account) = none ↔ Allows account (governanceRestrictions r) := by
  rcases r with _ | (members | members)
  · exact iff_of_true rfl trivial
  · simp [Restrictions.isRestricted, governanceRestrictions, ofBlacklist, Allows, mem_normalizeMembers]
  · simp [Restrictions.isRestricted, governanceRestrictions, ofWhitelist, Allows, mem_normalizeMembers]

theorem accepts_iff : Accepts config c account ↔
    c.paused = false ∧ Allows account (governanceRestrictions c.restrictions) := by
  rw [← unrestricted_iff]
  simp only [Accepts, enforceRestrictions, do_ok]
  split <;> simp_all

theorem acceptsQueued_iff (hself : receiver ≠ self) : AcceptsQueued c self owner receiver ↔
    c.paused = false ∧ Allows owner (governanceRestrictions c.restrictions) ∧
      Allows receiver (governanceRestrictions c.restrictions) := by
  have hreceiver : (c.restrictions.bind fun r => r.isRestrictedAllowingSelf receiver self) =
      c.restrictions.bind fun r => r.isRestricted receiver := by
    rcases c.restrictions with _ | (members | members) <;>
      simp [Restrictions.isRestrictedAllowingSelf, hself]
  rw [AcceptsQueued, restrictedWithdrawActor, hreceiver, Option.or_eq_none_iff, unrestricted_iff,
    unrestricted_iff]

/-- One command of the sentinel opens nothing. -/
theorem SentinelStep.tightens (h : SentinelStep host l l') :
    (l'.contract.paused = false → l.contract.paused = false) ∧
      ∀ account, l'.contract.paused = false →
        Allows account (governanceRestrictions l'.contract.restrictions) →
        Allows account (governanceRestrictions l.contract.restrictions) := by
  obtain ⟨timestamp, caller, command, hkind, h⟩ := h
  have hcaller : caller ≠ l.contract.governance := by
    rintro rfl
    simp [governanceCommandCallerKind] at hkind
  obtain ⟨-, hpaused | ⟨next, hrelaxed, hnext⟩⟩ := executeGovernance_sentinel hcaller h
  · have hpaused : l'.contract.paused = true := congrArg Settings.paused hpaused
    simp [hpaused]
  · have hpaused : l'.contract.paused = l.contract.paused := congrArg Settings.paused hnext
    have hnext : l'.contract.restrictions = next := congrArg Settings.restrictions hnext
    rw [hpaused, hnext]
    exact ⟨id, fun _ _ => allows_of_not_relaxed hrelaxed⟩

theorem tightens_of_run (h : Relation.ReflTransGen (SentinelStep host) l l') :
    (l'.contract.paused = false → l.contract.paused = false) ∧
      ∀ account, l'.contract.paused = false →
        Allows account (governanceRestrictions l'.contract.restrictions) →
        Allows account (governanceRestrictions l.contract.restrictions) := by
  induction h with
  | refl => exact ⟨id, fun _ _ => id⟩
  | tail _ hstep ih =>
    obtain ⟨hpaused, hallows⟩ := hstep.tightens
    exact ⟨fun h => ih.1 (hpaused h), fun a h ha => ih.2 a (hpaused h) (hallows a h ha)⟩

/-- What is not a relaxation allows nobody new, and no run of the sentinel's commands lets anybody
in who was refused; a queued withdrawal to the vault itself apart. -/
theorem sentinel_only_tightens (host : Host A σ) :
    (∀ (current next : Option (GovernanceRestrictions A)) (account : A),
      determineRelaxed current next = false → Allows account next → Allows account current) ∧
    ∀ l l' : Ledger A σ, Relation.ReflTransGen (SentinelStep host) l l' →
      (∀ config account, ¬Accepts config l.contract account → ¬Accepts config l'.contract account) ∧
      ∀ owner receiver, receiver ≠ host.self → ¬AcceptsQueued l.contract host.self owner receiver →
        ¬AcceptsQueued l'.contract host.self owner receiver := by
  refine ⟨fun _ _ _ => allows_of_not_relaxed, fun l l' h => ?_⟩
  obtain ⟨hpaused, hallows⟩ := tightens_of_run h
  constructor
  · intro config account hbefore hafter
    rw [accepts_iff] at hbefore hafter
    exact hbefore ⟨hpaused hafter.1, hallows account hafter.1 hafter.2⟩
  · intro owner receiver hself hbefore hafter
    rw [acceptsQueued_iff hself] at hbefore hafter
    exact hbefore ⟨hpaused hafter.1, hallows owner hafter.1 hafter.2.1,
      hallows receiver hafter.1 hafter.2.2⟩

def restrict (mode : Nat) (accounts : List Nat) : GovernanceCommand Nat :=
  .setGovernancePolicy
    { kind := .restrictions, targetIds := none, mode := some mode, accounts := some accounts
      marketId := none, capGroupId := none, value := none, valueB := none, valueC := none }

/-- A new vault at 1 whose sentinel 7 has made a blacklist, and the vault after the sentinel has
made a whitelist of 5 instead. -/
def watched (blacklist : List Nat) : CallM (Ledger Nat Int × Ledger Nat Int) := do
  let l ← initializeImpl sampleHost none 0 3 2 10 11 0 0 0 0
  let l ← executeGovernance sampleHost 0 l 2 (configCommand .sentinel (some 7) none none)
  let l ← executeGovernance sampleHost 0 l 7 (restrict 1 blacklist)
  return (l, ← executeGovernance sampleHost 0 l 7 (restrict 2 [5]))

/-- What the two vaults are set to. -/
def Whitelisted (blacklist : List Nat) (p : Ledger Nat Int × Ledger Nat Int) : Prop :=
  (p.1.contract.governance = 2 ∧ p.1.contract.sentinel = some 7 ∧
    p.1.contract.restrictions = some (.blacklist blacklist)) ∧
  p.2.contract.paused = false ∧ p.2.contract.restrictions = some (.whitelist [5])

instance (blacklist : List Nat) : DecidablePred (Whitelisted blacklist) :=
  fun _ => inferInstanceAs (Decidable (_ ∧ _))

theorem sentinelStep_watched {blacklist : List Nat} {l l' : Ledger Nat Int}
    (h : watched blacklist = .ok (l, l')) (hset : Whitelisted blacklist (l, l')) :
    SentinelStep sampleHost l l' := by
  simp only [watched, do_ok] at h
  obtain ⟨_, -, _, -, _, -, _, hl', rfl, rfl⟩ := h
  have hgovernance : l.contract.governance = 2 := hset.1.1
  have hsentinel : l.contract.sentinel = some 7 := hset.1.2.1
  refine ⟨0, 7, restrict 2 [5], ?_, hl'⟩
  simp [governanceCommandCallerKind, hgovernance, hsentinel]

theorem sentinel_only_tightens_blacklisted : ∃ l l', watched [4] = .ok (l, l') ∧
    (∀ config, ¬Accepts config l.contract 4 ∧ ¬Accepts config l'.contract 4) ∧
    ¬AcceptsQueued l.contract 1 5 4 ∧ ¬AcceptsQueued l'.contract 1 5 4 := by
  obtain ⟨⟨l, l'⟩, h, hset⟩ := (by decide +kernel : ∃ r, watched [4] = .ok r ∧ Whitelisted [4] r)
  obtain ⟨hcheck, hqueue⟩ := (sentinel_only_tightens sampleHost).2 l l'
    (.single (sentinelStep_watched h hset))
  have hbefore : ∀ config, ¬Accepts config l.contract 4 := by
    intro config
    rw [accepts_iff, hset.1.2.2]
    exact fun h => h.2 (by decide)
  have hqueued : ¬AcceptsQueued l.contract 1 5 4 := by
    rw [acceptsQueued_iff (by decide), hset.1.2.2]
    exact fun h => h.2.2 (by decide)
  exact ⟨l, l', h, fun config => ⟨hbefore config, hcheck config 4 (hbefore config)⟩, hqueued,
    hqueue 5 4 (by decide) hqueued⟩

/-- With the vault on the blacklist, the sentinel's whitelist of the owner lets the owner's queued
withdrawal to the vault through. -/
theorem sentinel_lets_vault_through : ∃ l l', watched [1] = .ok (l, l') ∧
    SentinelStep sampleHost l l' ∧
    ¬AcceptsQueued l.contract sampleHost.self 5 1 ∧ AcceptsQueued l'.contract sampleHost.self 5 1 := by
  obtain ⟨⟨l, l'⟩, h, hset⟩ := (by decide +kernel : ∃ r, watched [1] = .ok r ∧ Whitelisted [1] r)
  refine ⟨l, l', h, sentinelStep_watched h hset, ?_, hset.2.1, ?_⟩
  · rintro ⟨-, hqueued⟩
    rw [hset.1.2.2] at hqueued
    exact absurd hqueued (by decide)
  · rw [hset.2.2]
    decide

end Templar.VaultGovernance
