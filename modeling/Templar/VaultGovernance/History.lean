import Templar.VaultGovernance.Steps

/-!
# The queue over a whole run

From the creation of the two contracts on, the queue is in order: no two proposals that wait
have the same id or are about the same thing, and there are never more than the bound.
-/

namespace Templar.VaultGovernance

open Checked Curator SorobanVault List

variable {A σ : Type}

theorem Governance.Waiting.congr {g g' : Governance A} (h : g.Waiting) (hsame : SameQueue g g') :
    g'.Waiting := by
  constructor
  · constructor
    · rw [hsame.index]
      exact h.paged.nodup
    · rw [hsame.index, hsame.pages]
      exact h.paged.listed
    · rw [hsame.pages]
      exact h.paged.filled
  · rw [hsame.next, hsame.loadQueue]
    exact h.order

theorem Governance.Paged.numbered {g : Governance A} (h : g.Paged) : g.numbered.Paged :=
  ⟨h.nodup, h.listed, h.filled⟩

variable [DecidableEq A]

/-- The proposal that takes the place of another leaves room for itself. -/
theorem Governance.Waiting.others_length {g : Governance A} (h : g.Waiting)
    {action : GovernanceAction A}
    (hroom : g.loadQueue.hasPendingKey action.pendingKey QueuedProposal.actionKey = true ∨
      g.loadQueue.length < maxPendingProposals) :
    (g.others action).length < maxPendingProposals := by
  unfold Governance.others
  rcases hroom with hpending | hroom
  · obtain ⟨e, he, hkey⟩ := any_eq_true.mp hpending
    have hlt : (g.loadQueue.filter fun e => !decide (e.value.actionKey = action.pendingKey)).length <
        g.loadQueue.length := by
      apply length_filter_lt_length_iff_exists.mpr
      exact ⟨e, he, by simpa using hkey⟩
    exact Nat.lt_of_lt_of_le hlt h.order.few
  · exact Nat.lt_of_le_of_lt (length_filter_le _ _) hroom

variable {link : Link A σ} {timestamp : Nat} {s s' : System A σ}
  {a : Option (GovernanceAction A)} {events : List (Event A)}

theorem Did.waiting (h : Did link timestamp s a events s') (hs : s.governance.Waiting) :
    s'.governance.Waiting := by
  cases h with
  | @queued action nowNs submitted room =>
    apply Governance.Waiting.saveQueue hs.paged.numbered
    refine (hs.order.sublist filter_sublist).append ?_ (hs.others_length room)
    intro e he
    simpa using (mem_filter.mp he).2
  | @immediate action nowNs g s₁ submitted replaced done =>
    refine Governance.Waiting.congr ?_ (executeAction_sameQueue done)
    have horder := hs.order.mono (Nat.le_succ s.governance.nextProposalId)
    rcases replaced with ⟨rfl, -⟩ | rfl
    · exact ⟨hs.paged.numbered, horder⟩
    · exact .saveQueue hs.paged.numbered (horder.sublist filter_sublist)
  | @accepted before after entry nowNs s₁ split now mature inTime done =>
    have hafter := hs.congr (executeAction_sameQueue done)
    apply Governance.Waiting.saveQueue hafter.paged
    have horder := hafter.order
    rw [(executeAction_sameQueue done).loadQueue, split] at horder
    exact horder.sublist ((sublist_cons_self entry after).append_left before)
  | revoked removed => exact .saveQueue hs.paged (hs.order.sublist filter_sublist)
  | approval => exact hs.congr ⟨rfl, rfl, rfl, rfl⟩
  | @byHand caller action s₁ sentinel allowed hand done =>
    have hsame := executeVaultGovernanceAction_governance done
    exact (hsame ▸ hs).congr (sameQueue_recordAction _ action)
  | abdicated => exact ⟨⟨hs.paged.nodup, hs.paged.listed, hs.paged.filled⟩, hs.order⟩
  | nothing => exact hs

theorem Governance.Waiting.step (hs : s.governance.Waiting) (step : Step A σ) :
    (s.step link step).governance.Waiting := by
  rcases System.step_cases link s step with ⟨-, hsame⟩ | ⟨timestamp, events, hdid⟩
  · rw [hsame]
    exact hs
  · exact hdid.waiting hs

/-- The two contracts as they are created: governance for the vault, and the vault with this
governance. -/
structure Created (link : Link A σ) (s : System A σ) : Prop where
  governance : ∃ world admin timelockNs, construct link world admin timelockNs = .ok s.governance
  vault : ∃ (world : σ) (curator assetToken shareToken : A) (virtualShares virtualAssets : Int)
    (withdrawalCooldownNs idleResyncCooldownNs : Nat),
    initializeImpl link.host none world curator link.address assetToken shareToken virtualShares
      virtualAssets withdrawalCooldownNs idleResyncCooldownNs = .ok s.ledger

/-- What the two contracts come to by any calls on both and any changes around them. -/
def Reachable (link : Link A σ) (s : System A σ) : Prop :=
  ∃ s₀ steps, Created link s₀ ∧ s = s₀.run link steps

theorem Created.waiting (h : Created link s) : s.governance.Waiting := by
  obtain ⟨world, admin, timelockNs, hnew⟩ := h.governance
  simp only [construct, do_ok] at hnew
  obtain ⟨-, -, -, hnew⟩ := hnew
  rw [hnew]
  refine ⟨⟨nodup_nil, ?_, ?_⟩, ⟨nodup_nil, ?_, nodup_nil, Nat.zero_le _⟩⟩
  · intro page
    simp
  · intro page items hitems
    cases hitems
  · intro e he
    cases he

theorem Reachable.waiting (h : Reachable link s) : s.governance.Waiting := by
  obtain ⟨s₀, steps, hcreated, rfl⟩ := h
  apply @System.run_induct _ _ _ _ _ (fun x => x.governance.Waiting) steps hcreated.waiting
  intro x step _ hx
  exact hx.step step

end Templar.VaultGovernance
