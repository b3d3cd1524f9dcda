import Templar.Near.Leases

/-!
# The answers of a market to a supply of the NEAR vault

A supply waits for two answers: what the market took of the transfer, and the position it holds
afterwards. The second callback takes the growth of the position for what was accepted and hands
it to the kernel, which refuses nothing at all and more than the reserved amount. With any other
answer both callbacks return, and a read of a supply that is no longer in progress always does.
-/

namespace Templar.Near

open Checked Vault Curator

variable {A : Type} [DecidableEq A]

namespace Contract

variable {c : Contract A} {env : Env A} {a : AllocatingState} {opId marketId : Nat}

theorem stopAndExit_of_allocating (hop : c.opState = .allocating a) :
    c.stopAndExit env = .ok (c.stopAndExitAllocating a, none) := by
  simp only [stopAndExit, hop]

/-- A supply past the end of its plan stops. -/
theorem stepAllocation_of_end (hop : c.opState = .allocating a) (hend : a.plan[a.index]? = none) :
    c.stepAllocation env = .ok (c.stopAndExitAllocating a, none) := by
  simp only [stepAllocation, stepAllocationLoop, hop, hend]
  split
  · exact stopAndExit_of_allocating hop
  · exact stopAndExit_of_allocating hop

/-- The one entry of the plan is taken, whatever is left of the reserved amount goes back. Only a
position that the kernel refuses keeps the read of the supply in progress from returning. -/
theorem supply02PositionRead_returns {marketIndex before remaining : Nat} (hs : c.Sound)
    (hop : c.opState = .allocating a) (hsupply : a.plan ≠ []) (position : Option (Option Nat)) :
    (∃ c', c.supply02PositionRead env position marketId opId marketIndex before remaining =
      .ok (c', none) ∧ c'.opState = .idle) ↔
    a.opId ≠ opId ∨ a.index ≠ marketIndex ∨
      ∀ total, position = some (some total) → before < total ∧ total - before ≤ a.remaining := by
  have hstop : ∃ c', c.stopAndExit env = .ok (c', none) ∧ c'.opState = .idle :=
    ⟨_, stopAndExit_of_allocating hop, rfl⟩
  unfold supply02PositionRead
  by_cases hid : a.opId = opId
  · rw [ctxAllocating_eq_some.mpr ⟨hop, hid⟩]
    by_cases hindex : a.index = marketIndex
    · simp only [hid, hindex, ne_eq, not_true_eq_false, if_false, false_or]
      rcases position with _ | _ | total
      · exact iff_of_true hstop nofun
      · exact iff_of_true hstop nofun
      obtain ⟨hzero, e, hplan⟩ := (hs.plan a hop).resolve_left hsupply
      obtain ⟨markets, capGroups, hset, -⟩ := c.setMarketPrincipal_eq marketId total
      simp only [reconcileSupplyOutcome, hset, do_ok, orPanic_eq_ok]
      constructor
      · rintro ⟨c', ⟨_, hkernel, -⟩, -⟩ _ ⟨⟩
        obtain ⟨_, hop', -, -, hne, hle, -⟩ := allocationStepCallback_eq_ok.mp hkernel
        cases hop.symm.trans hop'
        omega
      · intro hgrowth
        obtain ⟨hlt, hle⟩ := hgrowth total rfl
        have hkernel : allocationStepCallback c.opState true (total - before) opId =
            .ok ⟨.allocating (a.advance (total - before)), []⟩ := by
          refine allocationStepCallback_eq_ok.mpr ⟨a, hop, hid, ?_, by omega, hle, rfl⟩
          simp [hzero, hplan]
        have hend : (a.advance (total - before)).plan[(a.advance (total - before)).index]? = none := by
          simp [AllocatingState.advance, hzero, hplan, saturatingAdd]
        refine ⟨({ c with
          markets := markets
          capGroups := capGroups
          opState := .allocating (a.advance (total - before)) } :
            Contract A).stopAndExitAllocating (a.advance (total - before)), ⟨_, hkernel, ?_⟩, rfl⟩
        split
        · exact stopAndExit_of_allocating rfl
        · exact stepAllocation_of_end rfl hend
    · simp only [ne_eq, hindex, not_false_eq_true, if_true, true_or, or_true, iff_true]
      exact hstop
  · have hnone : c.ctxAllocating opId = none := by
      rw [Option.eq_none_iff_forall_ne_some]
      intro b hb
      obtain ⟨hop', hid'⟩ := ctxAllocating_eq_some.mp hb
      cases hop.symm.trans hop'
      exact hid hid'
    rw [hnone]
    exact iff_of_true hstop (.inl hid)

end Contract

/-- In a supply, whatever the market answers to the transfer, the first callback returns and leaves
the vault idle or with one position to be read. The second returns, and leaves the vault idle,
exactly if it is not about the supply in progress or the reported position, if there is one, has
grown by no more than is still reserved. -/
theorem supply_callbacks_return {s : System A} (h : s.Reachable) {a : AllocatingState}
    (hop : s.contract.opState = .allocating a) (hsupply : a.plan ≠ []) (env : Env A) :
    (∀ marketId opId marketIndex attempted remaining,
      .supply01HandleTransfer marketId opId marketIndex attempted remaining ∈ s.pending →
      ∀ accepted, ∃ c' p, s.contract.supply01HandleTransfer env accepted marketId opId marketIndex
          attempted remaining = .ok (c', p) ∧
        (c'.opState = .idle ∧ p = none ∨ c' = s.contract ∧ ∃ before n,
          p = some (.supply02PositionRead marketId opId marketIndex before attempted n remaining))) ∧
    (∀ marketId opId marketIndex before attempted accepted remaining,
      .supply02PositionRead marketId opId marketIndex before attempted accepted remaining ∈
        s.pending →
      ∀ position,
        (∃ c', s.contract.supply02PositionRead env position marketId opId marketIndex before remaining =
          .ok (c', none) ∧ c'.opState = .idle) ↔
        a.opId ≠ opId ∨ a.index ≠ marketIndex ∨
          ∀ total, position = some (some total) → before < total ∧ total - before ≤ a.remaining) := by
  obtain ⟨hs, hsent⟩ := h.sound
  constructor
  · intro marketId opId marketIndex attempted remaining hmem accepted
    have hstop : s.contract.stopAndExit env = .ok (s.contract.stopAndExitAllocating a, none) :=
      Contract.stopAndExit_of_allocating hop
    unfold Contract.supply01HandleTransfer
    split
    · exact ⟨_, _, hstop, .inl ⟨rfl, rfl⟩⟩
    split
    · exact ⟨_, _, hstop, .inl ⟨rfl, rfl⟩⟩
    · rename_i n
      obtain ⟨rec, hrec⟩ := Option.isSome_iff_exists.mp (hsent _ hmem).2
      simp only [Contract.marketAccountByIdOrPanic, hrec, expect]
      exact ⟨_, _, rfl, .inr ⟨rfl, _, n, rfl⟩⟩
  · intro marketId opId marketIndex before attempted accepted remaining _ position
    exact Contract.supply02PositionRead_returns hs hop hsupply position

/-- A supply of forty to a market that already holds sixty. -/
def supplyMore : List (Action Nat) :=
  sampleDeposit ++
    [.call (sampleEnv 8 3) (.allocate (.supply 0 60)),
      .callback (sampleEnv 0 3) 0 (.amount 60),
      .callback (sampleEnv 0 3) 0 (.position (some 60)),
      .call (sampleEnv 8 4) (.allocate (.supply 0 40))]

theorem supply_callbacks_return_partial :
    ∃ s : System Nat, s.Reachable ∧ s.contract.opState = .allocating ⟨2, 0, 40, [⟨0, 40⟩]⟩ ∧
      .supply02PositionRead 0 2 0 60 40 25 40 ∈ s.pending ∧
      ∃ c', s.contract.supply02PositionRead (sampleEnv 0 5) (some (some 85)) 0 2 0 60 40 =
        .ok (c', none) ∧ c'.opState = .idle := by
  obtain ⟨s, hs, hop, hmem⟩ : ∃ s : System Nat, s.Reachable ∧
      s.contract.opState = .allocating ⟨2, 0, 40, [⟨0, 40⟩]⟩ ∧
      .supply02PositionRead 0 2 0 60 40 25 40 ∈ s.pending :=
    System.exists_reachable (sampleEnv 8 0) sampleConfiguration
      (supplyMore ++ [.callback (sampleEnv 0 5) 0 (.amount 25)]) (by decide +kernel) (by decide)
  refine ⟨s, hs, hop, hmem, ((supply_callbacks_return hs hop (by simp) (sampleEnv 0 5)).2 0 2 0 60 40
    25 40 hmem (some (some 85))).mpr (.inr (.inr ?_))⟩
  intro total htotal
  cases htotal
  decide

/-- A transfer that is refunded in full leaves the position as it was, and interest may have made
it grow by more than was sent. Both answers abort the callback, and nothing is left to end the
supply. -/
theorem supply_callback_aborts :
    ∃ s : System Nat, s.Reachable ∧ s.contract.opState = .allocating ⟨2, 0, 40, [⟨0, 40⟩]⟩ ∧
      s.pending = [.supply02PositionRead 0 2 0 60 40 0 40] ∧
      s.contract.supply02PositionRead (sampleEnv 0 5) (some (some 60)) 0 2 0 60 40 =
        .error (.message "Kernel allocation step failed") ∧
      s.contract.supply02PositionRead (sampleEnv 0 5) (some (some 101)) 0 2 0 60 40 =
        .error (.message "Kernel allocation step failed") ∧
      (s.step (.callback (sampleEnv 0 5) 0 (.position (some 60)))).pending = [] ∧
      (s.step (.callback (sampleEnv 0 5) 0 (.position (some 60)))).contract.opState =
        .allocating ⟨2, 0, 40, [⟨0, 40⟩]⟩ := by
  exact System.exists_reachable (sampleEnv 8 0) sampleConfiguration
    (supplyMore ++ [.callback (sampleEnv 0 5) 0 (.amount 0)]) (by decide +kernel) (by decide)

end Templar.Near
