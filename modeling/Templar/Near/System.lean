import Templar.Near.CallbackSpec
import Templar.Near.CallSpec

/-!
# Runs of the NEAR vault

The contract together with the callbacks it has scheduled and that have not run yet. They run in
any order, with any answer, and with calls in between. A call or a callback that panics leaves
the contract as it was; the callback is gone all the same.
-/

namespace Templar.Near

open Checked Vault Curator

variable {A : Type}

structure System (A : Type) where
  contract : Contract A
  pending : List (Callback A)
  time : Nat

/-- A public call, or the callback at a place of the pending list with the answer it gets. -/
inductive Action (A : Type) where
  | call (env : Env A) (call : Call A)
  | callback (env : Env A) (place : Nat) (reply : Reply)

def Action.env : Action A → Env A
  | .call env _ => env
  | .callback env _ _ => env

namespace System

variable [DecidableEq A]

def step (s : System A) : Action A → System A
  | .call env call =>
    match call.run env s.contract with
    | .ok (c, promise) => ⟨c, s.pending ++ promise.toList, env.blockTimestamp⟩
    | .error _ => { s with time := env.blockTimestamp }
  | .callback env place reply =>
    match s.pending[place]? with
    | none => { s with time := env.blockTimestamp }
    | some callback =>
      match callback.run env s.contract reply with
      | .ok (c, promise) => ⟨c, s.pending.eraseIdx place ++ promise.toList, env.blockTimestamp⟩
      | .error _ => ⟨s.contract, s.pending.eraseIdx place, env.blockTimestamp⟩

def run (s : System A) (actions : List (Action A)) : System A := actions.foldl step s

/-- The states reached from a new contract by calls and callbacks at nondecreasing times. -/
inductive Reachable : System A → Prop where
  | new {env : Env A} {configuration c} (h : Contract.new env configuration = .ok c) :
      Reachable ⟨c, [], env.blockTimestamp⟩
  | step {s : System A} (h : Reachable s) {action : Action A}
      (ht : s.time ≤ action.env.blockTimestamp) : Reachable (s.step action)

/-- What holds of a new contract, and is kept by every call and by every callback that is
pending, holds in every state that is reached. The promise a call makes comes with its own
property. -/
theorem Reachable.induct {P : Contract A → Prop} {Q : Contract A → Callback A → Prop}
    (hnew : ∀ env configuration c, Contract.new env configuration = .ok c → P c)
    (hcall : ∀ env (call : Call A) c c' p, P c → call.run env c = .ok (c', p) →
      P c' ∧ (∀ cb ∈ p, Q c' cb) ∧ ∀ cb, Q c cb → Q c' cb)
    (hcallback : ∀ env (callback : Callback A) reply c c' p, P c → Q c callback →
      callback.run env c reply = .ok (c', p) → P c' ∧ (∀ cb ∈ p, Q c' cb) ∧ ∀ cb, Q c cb → Q c' cb)
    {s : System A} (h : s.Reachable) : P s.contract ∧ ∀ cb ∈ s.pending, Q s.contract cb := by
  induction h with
  | @new env configuration c h => exact ⟨hnew env configuration c h, by simp⟩
  | @step s _ action _ ih =>
    obtain ⟨hP, hQ⟩ := ih
    cases action with
    | call env call =>
      simp only [System.step]
      split
      · rename_i c' p hrun
        obtain ⟨hP', hp, hkeep⟩ := hcall env call s.contract c' p hP hrun
        refine ⟨hP', ?_⟩
        intro cb hcb
        rcases List.mem_append.mp hcb with hold | hnew
        · exact hkeep cb (hQ cb hold)
        · exact hp cb (Option.mem_toList.mp hnew)
      · exact ⟨hP, hQ⟩
    | callback env place reply =>
      simp only [System.step]
      split
      · exact ⟨hP, hQ⟩
      rename_i callback hplace
      have hmem : callback ∈ s.pending := List.mem_of_getElem? hplace
      split
      · rename_i c' p hrun
        obtain ⟨hP', hp, hkeep⟩ := hcallback env callback reply s.contract c' p hP (hQ callback hmem) hrun
        refine ⟨hP', ?_⟩
        intro cb hcb
        rcases List.mem_append.mp hcb with hold | hnew
        · exact hkeep cb (hQ cb (List.mem_of_mem_eraseIdx hold))
        · exact hp cb (Option.mem_toList.mp hnew)
      · exact ⟨hP, fun cb hcb => hQ cb (List.mem_of_mem_eraseIdx hcb)⟩

/-- Actions at nondecreasing times from a given time on. -/
def InOrder : Nat → List (Action A) → Prop
  | _, [] => True
  | time, action :: rest => time ≤ action.env.blockTimestamp ∧ InOrder action.env.blockTimestamp rest

omit [DecidableEq A] in
instance decidableInOrder (time : Nat) (actions : List (Action A)) :
    Decidable (InOrder time actions) :=
  match actions with
  | [] => .isTrue trivial
  | action :: rest =>
    have := decidableInOrder action.env.blockTimestamp rest
    inferInstanceAs (Decidable (_ ∧ _))

@[simp] theorem step_time (s : System A) (action : Action A) :
    (s.step action).time = action.env.blockTimestamp := by
  cases action with
  | call env call =>
    simp only [step]
    split <;> rfl
  | callback env place reply =>
    simp only [step]
    split
    · rfl
    · split <;> rfl

theorem Reachable.run {s : System A} (h : s.Reachable) {actions : List (Action A)}
    (ho : InOrder s.time actions) : (s.run actions).Reachable := by
  induction actions generalizing s with
  | nil => exact h
  | cons action rest ih =>
    obtain ⟨ht, ho⟩ := ho
    exact ih (h.step ht) (by rwa [step_time])

/-- Time may pass without anything happening. -/
theorem Reachable.wait {s : System A} (h : s.Reachable) (env : Env A)
    (ht : s.time ≤ env.blockTimestamp) : { s with time := env.blockTimestamp }.Reachable := by
  have hnone : s.pending[s.pending.length]? = none := List.getElem?_eq_none (Nat.le_refl _)
  have hstep : (s.step (.callback env s.pending.length .failed)).Reachable := h.step ht
  simp only [System.step, hnone] at hstep
  exact hstep

/-- The system with a new contract, if its configuration is accepted. -/
def start (env : Env A) (configuration : VaultConfiguration A) : Option (System A) :=
  match Contract.new env configuration with
  | .ok c => some ⟨c, [], env.blockTimestamp⟩
  | .error _ => none

/-- What holds after a run holds of a state that is reached. -/
theorem exists_reachable {P : System A → Prop} (env : Env A) (configuration : VaultConfiguration A)
    (actions : List (Action A)) (h : ∃ s, start env configuration = some s ∧ P (s.run actions))
    (ho : InOrder env.blockTimestamp actions) : ∃ s : System A, s.Reachable ∧ P s := by
  obtain ⟨s, hs, hP⟩ := h
  unfold start at hs
  split at hs
  · rename_i c hc
    cases hs
    exact ⟨_, (Reachable.new hc).run ho, hP⟩
  · cases hs

end System

section Sample

/-- The vault is account 0 and its one market is account 10. -/
def sampleEnv (caller time : Nat) : Env Nat := ⟨0, caller, time⟩

def sampleConfiguration : VaultConfiguration Nat where
  restrictions := none
  fees := ⟨⟨0, 9⟩, ⟨0, 9⟩, none⟩
  refreshCooldownNs := none
  idleResyncCooldownNs := none
  withdrawalCooldownNs := some 0

/-- The market is set up, and account 1 deposits a hundred. -/
def sampleDeposit : List (Action Nat) :=
  [.call (sampleEnv 8 1) (.submitCap 10),
    .call (sampleEnv 8 1) (.applyChange (.capChange 10 1000)),
    .call (sampleEnv 8 1) (.setSupplyQueue [0]),
    .call (sampleEnv 7 2) (.ftOnTransfer 1 100)]

/-- The market takes the whole deposit. -/
def sampleSupplied : List (Action Nat) :=
  sampleDeposit ++
    [.call (sampleEnv 8 3) (.allocate (.supply 0 100)),
      .callback (sampleEnv 0 3) 0 (.amount 100),
      .callback (sampleEnv 0 3) 0 (.position (some 100))]

end Sample

end Templar.Near
