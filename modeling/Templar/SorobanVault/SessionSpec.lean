import Templar.Lib.Folds
import Templar.SorobanVault.Entrypoints
import Templar.Vault.ActionSpec

/-!
# What the operations of a session have done

Whatever a session does with the kernel, it leaves its configuration, its policy and every
entry of the storage but the state and the address book as they were (`Framed`). Between two
actions of the kernel it does not touch the state either (`Still`). `Acted` says that a session
has carried out one action: the kernel computed the new state and it has been stored.
-/

namespace Templar.SorobanVault

open Checked Curator Vault

variable {A σ : Type}

namespace CuratorVault

/-- Nothing but the state, its stored copy, the addresses and the ledger has changed. -/
structure Framed (v v' : CuratorVault A σ) : Prop where
  config : v'.config = v.config
  auth : v'.auth = v.auth
  policyState : v'.policyState = v.policyState
  restrictions : v'.restrictions = v.restrictions
  paused : v'.paused = v.paused
  storage : v'.storage =
    { v.storage with state := v'.storage.state, addressBook := v'.storage.addressBook }

theorem Framed.refl (v : CuratorVault A σ) : Framed v v := ⟨rfl, rfl, rfl, rfl, rfl, rfl⟩

variable {u v v' w : CuratorVault A σ} {action : KernelAction A}
  {caller receiver : A} {effects : List (KernelEffect A)} {summary : EffectSummary}
  {timestamp amount external market : Nat} {result : RefreshResult}

theorem Framed.trans (h : Framed u v) (h' : Framed v w) : Framed u w where
  config := h'.config.trans h.config
  auth := h'.auth.trans h.auth
  policyState := h'.policyState.trans h.policyState
  restrictions := h'.restrictions.trans h.restrictions
  paused := h'.paused.trans h.paused
  storage := h'.storage.trans (by rw [h.storage])

/-- The kernel is called with the same configuration. -/
theorem Framed.kernelConfig (h : Framed v v') : v'.kernelConfig = v.kernelConfig := by
  unfold CuratorVault.kernelConfig
  rw [h.config, h.paused]

/-- Framed, and the state untouched both in the session and in storage. -/
structure Still (v v' : CuratorVault A σ) : Prop where
  framed : Framed v v'
  state : v'.state = v.state
  stored : v'.storage.state = v.storage.state

theorem Still.refl (v : CuratorVault A σ) : Still v v := ⟨.refl v, rfl, rfl⟩

theorem Still.trans (h : Still u v) (h' : Still v w) : Still u w :=
  ⟨h.framed.trans h'.framed, h'.state.trans h.state, h'.stored.trans h.stored⟩

/-- Saving makes the stored state the session's. -/
theorem saveState_eq_ok (h : v.saveState = .ok v') :
    v' = { v with storage := { v.storage with state := v.state } } ∧
      v.state.withdrawQueue.checkInvariantsWithMax sorobanMaxPendingWithdrawals = true := by
  simp only [saveState, do_ok] at h
  obtain ⟨hqueue, rfl⟩ := h
  exact ⟨rfl, hqueue⟩

/-- Saving touches the storage only. -/
theorem saveState_framed (h : v.saveState = .ok v') : Framed v v' := by
  obtain ⟨rfl, -⟩ := saveState_eq_ok h
  exact ⟨rfl, rfl, rfl, rfl, rfl, rfl⟩

variable [DecidableEq A] {host : Host A σ}

/-- One action of the kernel, computed on the session's state and stored. -/
structure Acted (v : CuratorVault A σ) (action : KernelAction A)
    (v' : CuratorVault A σ) : Prop where
  framed : Framed v v'
  stored : v'.storage.state = v'.state
  computed : ∃ effects, applyAction v.state v.kernelConfig v.restrictions v.config.vaultAddress action =
    .ok ⟨v'.state, effects⟩

/-- What is prepared before an action does not change it. -/
theorem Acted.of_still (hstill : Still u v) (h : Acted v action v') : Acted u action v' := by
  refine ⟨hstill.framed.trans h.framed, h.stored, ?_⟩
  obtain ⟨effects, heffects⟩ := h.computed
  refine ⟨effects, ?_⟩
  rw [← hstill.state, ← hstill.framed.kernelConfig, ← hstill.framed.restrictions,
    ← hstill.framed.config]
  exact heffects

theorem still_registerAddress (v : CuratorVault A σ) (a : A) :
    Still v (v.registerAddress a) := ⟨⟨rfl, rfl, rfl, rfl, rfl, rfl⟩, rfl, rfl⟩

theorem ensureVaultMapped_still (h : v.ensureVaultMapped host = .ok v') : Still v v' := by
  simp only [ensureVaultMapped, do_ok] at h
  obtain ⟨-, rfl⟩ := h
  exact still_registerAddress v _

theorem mapCaller_still (h : v.mapCaller host caller = .ok v') : Still v v' := by
  simp only [mapCaller, do_ok] at h
  obtain ⟨u, hu, rfl⟩ := h
  exact (ensureVaultMapped_still hu).trans (still_registerAddress u _)

theorem mapPair_still (h : v.mapPair host caller receiver = .ok v') : Still v v' := by
  simp only [mapPair, do_ok] at h
  obtain ⟨u, hu, rfl⟩ := h
  exact ((ensureVaultMapped_still hu).trans (still_registerAddress u _)).trans
    (still_registerAddress _ _)

theorem prepareAtomicCall_still {owner operator : A}
    (h : v.prepareAtomicCall host receiver owner operator = .ok v') : Still v v' := by
  simp only [prepareAtomicCall, do_ok] at h
  obtain ⟨u, hu, rfl⟩ := h
  exact (((ensureVaultMapped_still hu).trans (still_registerAddress u _)).trans
    (still_registerAddress _ _)).trans (still_registerAddress _ _)

theorem ensureMapped_still {a : A} (h : v.ensureMapped a = .ok v') : Still v v' := by
  unfold ensureMapped at h
  split at h
  · cases h
    exact .refl v
  · split at h
    · cases h
      exact ⟨⟨rfl, rfl, rfl, rfl, rfl, rfl⟩, rfl, rfl⟩
    · cases h

theorem ensureEffectAddressesMapped_still (h : v.ensureEffectAddressesMapped effects = .ok v') :
    Still v v' :=
  foldlM_rel Still.refl (fun _ _ _ => Still.trans) (fun _ _ _ _ => ensureMapped_still) h

/-- The effects go to the tokens, and leave the session as it is. -/
theorem executeEffects_still (h : v.executeEffects host effects = .ok (summary, v')) :
    Still v v' := by
  simp only [executeEffects, do_ok] at h
  obtain ⟨_, -, rfl, rfl⟩ := h
  exact ⟨⟨rfl, rfl, rfl, rfl, rfl, rfl⟩, rfl, rfl⟩

/-- A kernel action is applied, saved and its effects are sent. -/
theorem applyKernelActionResult_acted {result : KernelResult A}
    (h : v.applyKernelActionResult host action = .ok (result, summary, v')) : Acted v action v' := by
  simp only [applyKernelActionResult, do_ok, transitionToRuntime_eq_ok] at h
  obtain ⟨result, hresult, u, hu, ⟨summary, w⟩, hw, x, hx, rfl, rfl, rfl⟩ := h
  have hstill := (ensureEffectAddressesMapped_still hu).trans (executeEffects_still hw)
  obtain ⟨rfl, -⟩ := saveState_eq_ok hx
  exact ⟨hstill.framed.trans ⟨rfl, rfl, rfl, rfl, rfl, rfl⟩, rfl, result.effects, hresult⟩

theorem applyKernelAction_acted (h : v.applyKernelAction host action = .ok (summary, v')) :
    Acted v action v' := by
  simp only [applyKernelAction, do_ok] at h
  obtain ⟨⟨result, summary, u⟩, hu, rfl, rfl⟩ := h
  exact applyKernelActionResult_acted hu

variable {owner operator : A} {nowNs opId : Nat}

theorem refreshFees_acted (h : v.refreshFees host nowNs = .ok v') :
    Acted v (.refreshFees nowNs) v' := by
  simp only [refreshFees, do_ok] at h
  obtain ⟨⟨summary, u⟩, hu, rfl⟩ := h
  exact applyKernelAction_acted hu

theorem transferPayout_still {outcome : PayoutOutcome}
    (h : v.transferPayout host receiver amount = .ok (outcome, summary, v')) : Still v v' := by
  unfold transferPayout at h
  split at h
  · next hok =>
    cases h
    exact executeEffects_still hok
  · cases h
    exact .refl v
  · cases h

/-- A session whose kernel state moves from collecting a withdrawal to paying it out. -/
def startPayout (v : CuratorVault A σ) (r : KernelResult A) : CuratorVault A σ :=
  { v with state := r.state }

/-- A withdrawal that idle assets cover is paid at once. -/
theorem completeWithdrawalFromIdle_acted {completed : CompletedWithdrawal A}
    (h : v.completeWithdrawalFromIdle host = .ok (summary, completed, v')) :
    ∃ (r : KernelResult A) (outcome : PayoutOutcome) (opId : Nat),
      startIdlePayout v.state v.kernelConfig.minWithdrawalAssets = .ok r ∧
      Acted (v.startPayout r) (.settlePayout opId outcome) v' := by
  simp only [completeWithdrawalFromIdle, do_ok, transitionToRuntime_eq_ok,
    mapTransitionResult_eq_ok] at h
  obtain ⟨plan, hplan, collected, hcollected, u₁, hu₁, ⟨s₁, u₂⟩, hu₂, -, u₃, hu₃, ⟨outcome, s₂, u₄⟩,
    hu₄, ⟨s₃, u₅⟩, hu₅, -, -, rfl⟩ := h
  refine ⟨⟨{ v.state with opState := collected.newState }, collected.effects⟩, outcome, plan.opId,
    ?_, ?_⟩
  · simp only [startIdlePayout, do_ok, applyTransitionResult_eq_ok]
    exact ⟨plan, hplan, collected, hcollected, rfl⟩
  · -- resolving addresses, executing effects and the transfer leave the state alone
    have hfirst := (ensureEffectAddressesMapped_still hu₁).trans (executeEffects_still hu₂)
    have hlater := (ensureEffectAddressesMapped_still hu₃).trans (transferPayout_still hu₄)
    refine .of_still (Still.trans ⟨?_, ?_, ?_⟩ hlater) (applyKernelAction_acted hu₅)
    · exact ⟨hfirst.framed.config, hfirst.framed.auth, hfirst.framed.policyState,
        hfirst.framed.restrictions, hfirst.framed.paused, hfirst.framed.storage⟩
    · change { u₂.state with opState := collected.newState } =
        { v.state with opState := collected.newState }
      rw [hfirst.state]
    · exact hfirst.stored

/-- Nothing starts while an operation is under way. -/
theorem startWithdrawalIfIdle_acted (h : v.startWithdrawalIfIdle host nowNs = .ok (summary, v')) :
    v' = v ∨ Acted v (.executeWithdraw nowNs) v' := by
  unfold startWithdrawalIfIdle at h
  split at h
  · exact .inr (applyKernelAction_acted h)
  · cases h
    exact .inl rfl

/-- A session with another count of operations. -/
def renumbered (v : CuratorVault A σ) (next : Nat) : CuratorVault A σ :=
  { v with state := { v.state with nextOpId := next } }

theorem reserveAuthorizedOpId_eq_ok {kind : ActionKind}
    (h : v.reserveAuthorizedOpId caller kind = .ok (opId, v')) :
    v' = v.renumbered (v.state.nextOpId + 1) := by
  simp only [reserveAuthorizedOpId, reserveOpId, do_ok] at h
  obtain ⟨-, _, ⟨-, rfl⟩, -, rfl⟩ := h
  rfl

/-- The number of the operation is taken first. -/
theorem beginAllocationInternal_acted {plan : List AllocationPlanEntry}
    (h : v.beginAllocationInternal host caller plan nowNs = .ok (opId, v')) :
    Acted (v.renumbered (v.state.nextOpId + 1)) (.beginAllocating opId plan nowNs) v' := by
  simp only [beginAllocationInternal, do_ok] at h
  obtain ⟨⟨id, u⟩, hu, ⟨summary, w⟩, hw, rfl, rfl⟩ := h
  cases reserveAuthorizedOpId_eq_ok hu
  exact applyKernelAction_acted hw

theorem syncExternalAssets_acted {newExternalAssets : Nat}
    (h : v.syncExternalAssets host caller opId newExternalAssets nowNs = .ok (external, v')) :
    Acted v (.syncExternalAssets newExternalAssets opId nowNs) v' := by
  simp only [syncExternalAssets, do_ok] at h
  obtain ⟨-, ⟨summary, u⟩, hu, -, rfl⟩ := h
  exact applyKernelAction_acted hu

theorem finishAllocationInternal_acted
    (h : v.finishAllocationInternal host caller opId nowNs = .ok v') :
    Acted v (.finishAllocating opId nowNs) v' := by
  simp only [finishAllocationInternal, do_ok] at h
  obtain ⟨-, ⟨summary, u⟩, hu, rfl⟩ := h
  exact applyKernelAction_acted hu

end CuratorVault

end Templar.SorobanVault
