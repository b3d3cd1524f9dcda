import Templar.VaultGovernance.Steps

/-!
# Powers that have been given up

Abdication is looked at when an action is submitted and when the sentinel acts by hand, not
when a proposal is accepted. So a power that has been given up is gone if no proposal that uses
it was waiting; one that was is still executed.
-/

namespace Templar.VaultGovernance

open Checked Curator SorobanVault

variable {A σ : Type} [DecidableEq A]

/-- A power has been given up and no proposal that uses it waits. -/
structure Gone (kind : GovernanceActionKind) (s : System A σ) : Prop where
  abdicated : s.governance.abdicated kind = true
  none_waits : ∀ e ∈ s.governance.loadQueue, e.value.kind ≠ kind

variable {link : Link A σ} {timestamp : Nat} {s s' : System A σ}
  {kind : GovernanceActionKind} {a : Option (GovernanceAction A)}
  {events : List (Event A)}

omit [DecidableEq A] in
/-- What passes a check of abdication is not of a kind that has been given up. -/
theorem Gone.ne_of_allowed (h : Gone kind s) {action : GovernanceAction A}
    (hallowed : s.governance.abdicated action.actionKind = false) : action.actionKind ≠ kind := by
  rintro rfl
  rw [h.abdicated] at hallowed
  cases hallowed

theorem Gone.did (h : Gone kind s) (hdid : Did link timestamp s a events s') : Gone kind s' := by
  refine ⟨hdid.abdicated_mono h.abdicated, ?_⟩
  intro e he
  rcases hdid.mem_loadQueue he with hold | ⟨nowNs, hsubmitted, -, -⟩
  · exact h.none_waits e hold
  · exact h.ne_of_allowed hsubmitted.allowed

/-- No way to execute an action is open to a power that is gone. -/
theorem Gone.executed_ne (h : Gone kind s) (hdid : Did link timestamp s a events s') :
    ∀ action ∈ a, action.actionKind ≠ kind := by
  intro action haction
  cases hdid with
  | immediate submitted =>
    cases haction
    exact h.ne_of_allowed submitted.allowed
  | @accepted before after entry nowNs s₁ split =>
    cases haction
    exact h.none_waits entry (split ▸ List.mem_append_right _ List.mem_cons_self)
  | byHand sentinel allowed =>
    cases haction
    exact h.ne_of_allowed allowed
  | _ => cases haction

theorem Gone.step (h : Gone kind s) (step : Step A σ) : Gone kind (s.step link step) := by
  rcases System.step_cases link s step with ⟨-, hsame⟩ | ⟨timestamp, events, hdid⟩
  · exact ⟨hsame ▸ h.abdicated, hsame ▸ h.none_waits⟩
  · exact h.did hdid

/-- Once a power has been given up with no proposal that uses it waiting, no later call executes
an action of its kind, whatever happens on either contract and around them. -/
theorem abdicated_power_is_gone (s : System A σ) (caller : A)
    (kind : GovernanceActionKind) (done : Done A σ) (h : abdicate s caller kind = .ok done)
    (hnone : ∀ e ∈ s.governance.loadQueue, e.value.kind ≠ kind) (steps : List (Step A σ))
    (step : Step A σ) :
    ∀ action ∈ (done.system.run link steps).executes link step, action.actionKind ≠ kind := by
  have hstart : Gone kind done.system := by
    simp only [abdicate, do_ok] at h
    obtain ⟨-, rfl⟩ := h
    exact ⟨Function.update_self .., hnone⟩
  have hgone : Gone kind (done.system.run link steps) :=
    System.run_induct hstart fun x step _ hx => hx.step step
  intro action haction
  rcases System.step_cases link (done.system.run link steps) step with ⟨hidle, -⟩ |
    ⟨timestamp, events, hdid⟩
  · rw [hidle] at haction
    cases haction
  · exact hgone.executed_ne hdid action haction

/-- With a change of the admin waiting, the power over the curator is given up. The change is
still executed, a new curator no longer. -/
theorem abdicated_power_is_gone_pending : ∃ s done, Fresh 0 s ∧
    abdicate (s.run sampleLink [.governance 0 (.submit 5 (.setAdmin 6))]) 5 .curator = .ok done ∧
    done.system.executes sampleLink (.governance 0 (.accept 5 1)) = some (.setAdmin 6) ∧
    ∀ step, ∀ action ∈ (done.system.run sampleLink [.governance 0 (.submit 5 (.setCurator 4))]).executes
      sampleLink step, action.actionKind ≠ .curator := by
  obtain ⟨s, hs⟩ : ∃ s, Fresh 0 s := ⟨⟨_, _⟩, rfl, rfl⟩
  have hrun : ∃ done,
      abdicate (s.run sampleLink [.governance 0 (.submit 5 (.setAdmin 6))]) 5 .curator = .ok done ∧
      done.system.executes sampleLink (.governance 0 (.accept 5 1)) = some (.setAdmin 6) ∧
      ∀ e ∈ (s.run sampleLink [.governance 0 (.submit 5 (.setAdmin 6))]).governance.loadQueue,
        e.value.kind ≠ .curator := by
    obtain ⟨g, l⟩ := s
    cases hs.1
    cases hs.2
    exact ⟨_, rfl, rfl, by decide +kernel⟩
  obtain ⟨done, hdone, haccept, hqueue⟩ := hrun
  exact ⟨s, done, hs, hdone, haccept, abdicated_power_is_gone _ 5 .curator done hdone hqueue _⟩

/-- A proposal that was waiting when its power was given up is executed all the same. -/
theorem abdicated_power_is_executed : ∃ s done, Fresh 0 s ∧
    abdicate (s.run sampleLink [.governance 0 (.submit 5 (.setAdmin 6))]) 5 .admin = .ok done ∧
    done.system.executes sampleLink (.governance 0 (.accept 5 1)) = some (.setAdmin 6) ∧
    (GovernanceAction.setAdmin (6 : Nat)).actionKind = .admin :=
  ⟨⟨_, _⟩, _, ⟨rfl, rfl⟩, rfl, rfl, rfl⟩

end Templar.VaultGovernance
