import Mathlib.Logic.Relation
import Templar.Curator.PolicySound
import Templar.SorobanVault.SessionSpec
import Templar.Vault.Invariant

/-!
# What a whole session keeps

Between loading and storing, a session takes steps that leave the external assets and the
settings alone (`Work`), and it may stage new principals, which the kernel is told of before
they are stored. `Contract.Kept` is what the two together come to: the settings are those from
before, and books that were right are right.
-/

namespace Templar.SorobanVault

open Checked Curator Vault

variable {A σ : Type}

/-- What governance decides, as the vault stores it. -/
structure Settings (A : Type) where
  rules : Rules
  restrictions : Option (Restrictions A)
  paused : Bool
  fees : FeesSpec A
  withdrawalCooldownNs : Nat
  idleResyncCooldownNs : Nat
  maxNavAgeNs : Nat
  curator : A
  governance : A
  skimRecipient : A
  sentinel : Option A
  allocators : List A
  allowedAdapters : Option (List A)

def Contract.settings (c : Contract A) : Settings A where
  rules := c.policyState.rules
  restrictions := c.restrictions
  paused := c.paused
  fees := c.fees
  withdrawalCooldownNs := c.withdrawalCooldownNs
  idleResyncCooldownNs := c.idleResyncCooldownNs
  maxNavAgeNs := c.maxNavAgeNs
  curator := c.curator
  governance := c.governance
  skimRecipient := c.skimRecipient
  sentinel := c.sentinel
  allocators := c.allocators
  allowedAdapters := c.allowedAdapters

/-- The kernel's state and the policy state are sound and tell the same about the money that is
outside, and no operation is under way. -/
structure Booked (s : VaultState A) (p : PolicyState) : Prop where
  kernel : Sound maxPending s
  policy : p.Sound
  external : s.externalAssets = p.principalTotal
  idle : s.opState = .idle

structure Contract.Kept (c c' : Contract A) : Prop where
  settings : c'.settings = c.settings
  booked : Booked c.state c.policyState → Booked c'.state c'.policyState

theorem Contract.Kept.refl (c : Contract A) : c.Kept c := ⟨rfl, id⟩

namespace CuratorVault

section

variable [DecidableEq A]

/-- One step of a session that leaves the external assets alone. -/
inductive Work : CuratorVault A σ → CuratorVault A σ → Prop
  | still {v w} (h : Still v w) : Work v w
  | acted {v w} {action : KernelAction A} (outside : action.isLocal = true) (h : Acted v action w) :
      Work v w
  | payout {v : CuratorVault A σ} {minAssets r} (h : startIdlePayout v.state minAssets = .ok r) :
      Work v (v.startPayout r)
  | renumber {v : CuratorVault A σ} {anchor next} :
      Work v { v with state := { v.state with feeAnchor := anchor, nextOpId := next } }
  | reconcile {v : CuratorVault A σ} {actual changed state}
      (h : reconcileActualIdleAssets v.state actual = .ok (changed, state)) : Work v { v with state }
  | save {v w : CuratorVault A σ} (h : v.saveState = .ok w) : Work v w

abbrev Worked : CuratorVault A σ → CuratorVault A σ → Prop := Relation.ReflTransGen Work

end

end CuratorVault

theorem reconcileActualIdleAssets_eq_ok {s t : VaultState A} {actual : Nat} {changed : Bool}
    (h : reconcileActualIdleAssets s actual = .ok (changed, t)) :
    t = s ∧ changed = false ∨ s.opState = .idle ∧ changed = true ∧
      ∃ anchor, t = { s with
        idleAssets := actual, totalAssets := actual + s.externalAssets, feeAnchor := anchor } := by
  unfold reconcileActualIdleAssets at h
  split at h
  · cases h
    exact .inl ⟨rfl, rfl⟩
  · next hc =>
    simp only [not_or, Bool.not_eq_false, isIdle_eq_true] at hc
    simp only [do_ok, transitionToRuntime_eq_ok, VaultState.syncTotalAssets_eq_ok] at h
    obtain ⟨_, ⟨-, rfl⟩, rfl, rfl⟩ := h
    refine .inr ⟨hc.1, rfl, ?_⟩
    split
    · exact ⟨_, rfl⟩
    · exact ⟨_, rfl⟩

/-- Neither the anchor nor the count of operations matters to the books. -/
theorem sound_renumber {limit : Nat} {s : VaultState A} (h : Sound limit s)
    (anchor : FeeAccrualAnchor) (next : Nat) :
    Sound limit { s with feeAnchor := anchor, nextOpId := next } := by
  refine ⟨h.balanced, h.shares, h.queue, h.room, ?_⟩
  rcases h.op with hnone | ⟨id, q, rest, hserved⟩
  · exact .inl hnone
  · exact .inr ⟨id, q, rest, hserved.entries, hserved.serving, hserved.expected, hserved.escrow,
      hserved.covered⟩

namespace CuratorVault

variable [DecidableEq A] {u v w v' : CuratorVault A σ} {host : Host A σ} {action : KernelAction A}

section

variable (h : Acted v action w) (hs : Sound maxPending v.state)
include h hs

theorem Acted.sound : Sound maxPending w.state := by
  obtain ⟨effects, heffects⟩ := h.computed
  exact Call.sound (Call.within_maxPending
    (.act v.kernelConfig v.restrictions v.config.vaultAddress action)) hs heffects

theorem Acted.external
    (houtside : action.isLocal = true) : w.state.externalAssets = v.state.externalAssets := by
  obtain ⟨effects, heffects⟩ := h.computed
  exact (applyAction_untouched hs.shares heffects).1 houtside

theorem Acted.idle (hends : action.endsIdle = true) : w.state.opState = .idle := by
  obtain ⟨effects, heffects⟩ := h.computed
  exact (applyAction_untouched hs.shares heffects).2 hends

end

theorem Work.framed (h : Work v w) : Framed v w := by
  cases h with
  | still h => exact h.framed
  | acted _ h => exact h.framed
  | payout h | renumber | reconcile h => exact ⟨rfl, rfl, rfl, rfl, rfl, rfl⟩
  | save h => exact saveState_framed h

theorem Work.sound (h : Work v w) (hs : Sound maxPending v.state) :
    Sound maxPending w.state ∧ w.state.externalAssets = v.state.externalAssets := by
  cases h with
  | still h =>
    rw [h.state]
    exact ⟨hs, rfl⟩
  | acted houtside h => exact ⟨h.sound hs, h.external hs houtside⟩
  | @payout minAssets r h =>
    have hsound : Sound maxPending r.state :=
      Call.sound (Call.within_maxPending (.payout minAssets)) hs h
    obtain ⟨_, _, _, -, -, -, -, -, -, rfl⟩ := startIdlePayout_eq_ok h
    exact ⟨hsound, rfl⟩
  | renumber => exact ⟨sound_renumber hs _ _, rfl⟩
  | reconcile h =>
    rcases reconcileActualIdleAssets_eq_ok h with ⟨rfl, -⟩ | ⟨hidle, -, anchor, rfl⟩
    · exact ⟨hs, rfl⟩
    · refine ⟨hs.of_idle rfl hs.shares rfl ?_, rfl⟩
      change v.state.opState.claimed = none
      rw [hidle]
      rfl
  | save h =>
    obtain ⟨rfl, -⟩ := saveState_eq_ok h
    exact ⟨hs, rfl⟩

theorem Worked.framed (h : Worked v w) : Framed v w := by
  induction h with
  | refl => exact .refl v
  | tail _ hstep ih => exact ih.trans hstep.framed

theorem Worked.sound (h : Worked v w) (hs : Sound maxPending v.state) :
    Sound maxPending w.state ∧ w.state.externalAssets = v.state.externalAssets := by
  induction h with
  | refl => exact ⟨hs, rfl⟩
  | tail _ hstep ih =>
    obtain ⟨hsound, hexternal⟩ := hstep.sound ih.1
    exact ⟨hsound, hexternal.trans ih.2⟩

/-- A session that has just been loaded. -/
structure Loaded (v : CuratorVault A σ) : Prop where
  state : v.state = v.storage.state
  rules : v.policyState.rules = v.storage.policyState.rules
  policyState : v.storage.policyState.Sound → v.policyState = v.storage.policyState

omit [DecidableEq A] in
theorem Framed.settings (h : Framed v w) : w.storage.settings = v.storage.settings := by
  rw [h.storage]
  rfl

omit [DecidableEq A] in
theorem Framed.stored_policy (h : Framed v w) : w.storage.policyState = v.storage.policyState := by
  rw [h.storage]

/-- A session that has worked, stored its state and come to rest. -/
theorem kept_of_worked (hv : Loaded v) (h : Worked v w) (hstored : w.storage.state = w.state)
    (hidle : Sound maxPending v.state → v.state.opState = .idle → w.state.opState = .idle) :
    v.storage.Kept w.storage := by
  refine ⟨h.framed.settings, ?_⟩
  intro hbooked
  rw [← hv.state] at hbooked
  obtain ⟨hsound, hexternal⟩ := h.sound hbooked.kernel
  rw [hstored, h.framed.stored_policy]
  exact ⟨hsound, hbooked.policy, hexternal.trans hbooked.external,
    hidle hbooked.kernel hbooked.idle⟩

theorem kept_of_acted (hv : Loaded v) (h : Worked v u) (hacted : Acted u action w)
    (houtside : action.isLocal = true) (hends : action.endsIdle = true) :
    v.storage.Kept w.storage := by
  refine kept_of_worked hv (h.tail (.acted houtside hacted)) hacted.stored ?_
  intro hs _
  exact hacted.idle (h.sound hs).1 hends

omit [DecidableEq A] in
/-- A session that has told the kernel of new principals, has come to rest and stores them. -/
theorem kept_of_staged {staged : PolicyState} (hv : Loaded v) (hframed : Framed v w)
    (hrules : staged.rules = v.policyState.rules) (hstored : w.storage.state = w.state)
    (hbooked : Booked v.state v.policyState → Booked w.state staged) :
    v.storage.Kept (w.savePolicyState staged).storage := by
  constructor
  · have hsettings := hframed.settings
    rw [hv.rules] at hrules
    unfold Contract.settings at hsettings ⊢
    simp only [savePolicyState, Settings.mk.injEq] at hsettings ⊢
    exact ⟨hrules, hsettings.2⟩
  · intro h
    rw [← hv.state, ← hv.policyState h.policy] at h
    change Booked w.storage.state staged
    rw [hstored]
    exact hbooked h

end CuratorVault

end Templar.SorobanVault
