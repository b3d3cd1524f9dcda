import Templar.Near.Spec

/-!
# What the callbacks of the NEAR vault do

For each callback, what it found and what it changed. A callback of a market withdrawal has one
outcome more than the others: without its lease it returns at once.
-/

namespace Templar.Near

open Checked Vault Curator

variable {A : Type}

namespace Contract

variable {c c' : Contract A} {p : Option (Callback A)} {env : Env A}
  {opId marketId market token beforePrincipal marketIndex remaining beforeBalance reported : Nat}
  {w : WithdrawingState A} {d : WithdrawDeltas} {position : Option (Option Nat)}
  {balance : Option Nat}

/-- The withdrawal in progress is this one, and its route stands at this market. -/
def AtMarket (c : Contract A) (opId market : Nat) : Prop :=
  ∃ w, c.opState = .withdrawing w ∧ w.opId = opId ∧ c.withdrawRoute[w.index]? = some market ∧
    (c.markets.lookup market).isSome = true

theorem AtMarket.withdrawing (h : c.AtMarket opId market) : ∃ w, c.opState = .withdrawing w :=
  h.imp fun _ hw => hw.1

/-- The books after a market withdrawal: the principal is marked down by what the balance shows,
and the idle funds are set to the balance. -/
theorem settleMarketPrincipalAndIdle_eq (c : Contract A) (marketId beforePrincipal reported
    afterBalance beforeBalance : Nat) :
    ∃ markets capGroups idle,
      (c.settleMarketPrincipalAndIdle marketId beforePrincipal reported afterBalance
        beforeBalance).1 = { c with markets := markets, capGroups := capGroups, idleBalance := idle } ∧
      Rewrites c.markets markets marketId (beforePrincipal -
        min (beforePrincipal - reported) (afterBalance - beforeBalance)) ∧
      (afterBalance < 2 ^ 128 → idle = afterBalance) := by
  obtain ⟨markets, capGroups, hset, hrw⟩ := c.setMarketPrincipal_eq marketId (beforePrincipal -
    min (beforePrincipal - reported) (afterBalance - beforeBalance))
  obtain ⟨idle, hidle, hactual⟩ := ({ c with markets := markets, capGroups := capGroups } :
    Contract A).resyncIdleBalanceTo_eq afterBalance
  refine ⟨markets, capGroups, idle, ?_, hrw, hactual⟩
  simp only [settleMarketPrincipalAndIdle, computeWithdrawDeltas, hset]
  exact hidle

/-- The lease is given back and the vault rests. -/
theorem endRebalance_eq_ok (h : c.endRebalance marketId opId token = .ok (c', p)) :
    c' = { c with
      marketExecutionLock := { c.marketExecutionLock with
        leasesByTarget := c.marketExecutionLock.leasesByTarget.erase marketId }
      opState := .idle } ∧ p = none := by
  simp only [endRebalance, do_ok] at h
  obtain ⟨c₁, h₁, rfl, rfl⟩ := h
  rw [unlock_eq_ok h₁]
  exact ⟨rfl, rfl⟩

/-- The head leaves the queue, and the route and the leases go with it. -/
theorem endPayout_eq_ok (h : c.endPayout = .ok c') :
    ∃ queue, c' = { c with
      withdrawQueue := queue
      withdrawRoute := []
      marketExecutionLock := c.marketExecutionLock.clear
      opState := .idle } := by
  simp only [endPayout, do_ok] at h
  obtain ⟨c₁, h₁, rfl⟩ := h
  obtain ⟨queue, rfl⟩ := popHead_eq_ok h₁
  exact ⟨queue, rfl⟩

/-- The principal of the market is written if the position was read; the refresh then ends or goes
on to the next market. -/
theorem refresh01Settle_eq_ok {index : Nat}
    (h : c.refresh01Settle env position marketId opId index = .ok (c', p)) :
    c' = c ∧ p = none ∨ ∃ s, c.opState = .refreshing s ∧ s.opId = opId ∧
      (c' = { c with opState := .idle } ∧ p = none ∨
        ∃ markets capGroups, (markets = c.markets ∧ capGroups = c.capGroups ∨
            ∃ total, position = some (some total) ∧ Rewrites c.markets markets marketId total) ∧
          ((∃ t, c' = { c with
              markets := markets, capGroups := capGroups, lastRefreshNs := t, opState := .idle } ∧
              p = none) ∨
            ∃ m next, next.opId = opId ∧ (markets.lookup m).isSome = true ∧
              c' = { c with
                markets := markets, capGroups := capGroups, opState := .refreshing next } ∧
              p = some (.refresh01Settle m opId next.index (c'.principalOf m)))) := by
  unfold refresh01Settle at h
  split at h
  · cases h
    exact .inl ⟨rfl, rfl⟩
  rename_i s hs
  obtain ⟨hop, hid⟩ := ctxRefreshing_eq_some.mp hs
  refine .inr ⟨s, hop, hid, ?_⟩
  split at h
  · cases h
    exact .inl ⟨rfl, rfl⟩
  refine .inr ?_
  obtain ⟨markets, capGroups, heq, hbooks⟩ : ∃ markets capGroups,
      c.setMarketPrincipalIfRead marketId position =
        { c with markets := markets, capGroups := capGroups } ∧
      (markets = c.markets ∧ capGroups = c.capGroups ∨
        ∃ total, position = some (some total) ∧ Rewrites c.markets markets marketId total) := by
    unfold setMarketPrincipalIfRead
    split
    · rename_i total
      obtain ⟨markets, capGroups, hset, hrw⟩ := c.setMarketPrincipal_eq marketId total
      exact ⟨markets, capGroups, hset, .inr ⟨total, rfl, hrw⟩⟩
    · exact ⟨c.markets, c.capGroups, rfl, .inl ⟨rfl, rfl⟩⟩
  refine ⟨markets, capGroups, hbooks, ?_⟩
  simp only [heq, do_ok, orPanic_eq_ok, refreshStepCallback_eq_ok] at h
  obtain ⟨_, ⟨s', hs', -, -, rfl⟩, h⟩ := h
  cases hop.symm.trans hs'
  dsimp only at h
  split at h
  · simp only [do_ok, orPanic_eq_ok, completeRefresh_eq_ok] at h
    obtain ⟨_, ⟨_, -, -, rfl⟩, rfl, rfl⟩ := h
    exact .inl ⟨_, rfl, rfl⟩
  · subst hid
    rcases refreshStep_eq_ok (s := s.advance) rfl h with ⟨m, hm, rfl, rfl⟩ | ⟨rfl, rfl⟩
    · exact .inr ⟨m, s.advance, rfl, hm, rfl, rfl⟩
    · exact .inl ⟨_, rfl, rfl⟩

variable [DecidableEq A]

/-- Only the resync that holds the marker ends, and the gain moves the anchor of the fees. -/
theorem resyncIdleBalance01Settle_cases (c : Contract A) (balance : Option Nat)
    (opId beforeIdle : Nat) :
    c.resyncIdleBalance01Settle balance opId beforeIdle = (c, none) ∨
    c.idleResyncInflightOpId = opId ∧ opId ≠ 0 ∧
      c.resyncIdleBalance01Settle balance opId beforeIdle =
        ({ c with idleResyncInflightOpId := 0, opState := .idle }, none) ∨
    ∃ actual idle, c.idleResyncInflightOpId = opId ∧ opId ≠ 0 ∧ balance = some actual ∧
      (actual < 2 ^ 128 → idle = actual) ∧
      c.resyncIdleBalance01Settle balance opId beforeIdle =
        ({ c with
          idleBalance := idle
          feeAnchor := { c.feeAnchor with
            totalAssets := saturatingAdd 128 c.feeAnchor.totalAssets (idle - beforeIdle) }
          idleResyncInflightOpId := 0
          opState := .idle }, none) := by
  unfold resyncIdleBalance01Settle
  by_cases hflag : c.idleResyncInflightOpId = 0 ∨ c.idleResyncInflightOpId ≠ opId
  · exact .inl (by rw [if_pos hflag])
  refine .inr ?_
  rw [if_neg hflag]
  have hop : c.idleResyncInflightOpId = opId ∧ opId ≠ 0 := by omega
  by_cases hstate : c.opState ≠ .allocating ⟨opId, 0, 0, []⟩
  · exact .inl ⟨hop.1, hop.2, by rw [if_pos hstate]⟩
  rw [if_neg hstate]
  cases balance with
  | none => exact .inl ⟨hop.1, hop.2, rfl⟩
  | some actual =>
    obtain ⟨idle, hidle, hactual⟩ := c.resyncIdleBalanceTo_eq actual
    refine .inr ⟨actual, idle, hop.1, hop.2, rfl, hactual, ?_⟩
    simp only [hidle]

/-- What the market kept is looked up in its position; without an answer the supply stops. -/
theorem supply01HandleTransfer_eq_ok {accepted : Option Nat} {attempted : Nat}
    (h : c.supply01HandleTransfer env accepted marketId opId marketIndex attempted remaining =
      .ok (c', p)) : c.Stopped c' p ∧ (c.ctxAllocating opId = none ∨ accepted = none) ∨
    ∃ s a, c.opState = .allocating s ∧ s.opId = opId ∧ accepted = some a ∧ c' = c ∧
      p = some (.supply02PositionRead marketId opId marketIndex (c.principalOf marketId) attempted a
        remaining) := by
  unfold supply01HandleTransfer at h
  split at h
  · exact .inl ⟨stopAndExit_eq_ok h, .inl ‹_›⟩
  rename_i s hs
  obtain ⟨hop, hid⟩ := ctxAllocating_eq_some.mp hs
  split at h
  · exact .inl ⟨stopAndExit_eq_ok h, .inr rfl⟩
  rename_i a
  simp only [do_ok] at h
  obtain ⟨_, -, rfl, rfl⟩ := h
  exact .inr ⟨s, a, hop, hid, rfl, rfl, rfl⟩

/-- What a position that was read does to the books: the principal is written, the reserved amount
shrinks by its growth, and after its one market the supply ends. -/
theorem supply02PositionRead_eq_ok {before : Nat}
    (hplan : ∀ s, c.opState = .allocating s → s.plan = [] ∨ s.index = 0 ∧ ∃ e, s.plan = [e])
    (h : c.supply02PositionRead env position marketId opId marketIndex before remaining = .ok (c', p)) :
    c.Stopped c' p ∧ (c.ctxAllocating opId = none ∨
      (∃ s, c.opState = .allocating s ∧ s.index ≠ marketIndex) ∨ position = none ∨
      position = some none) ∨
    ∃ s total markets capGroups, c.opState = .allocating s ∧ position = some (some total) ∧
      Rewrites c.markets markets marketId total ∧ total - before ≤ s.remaining ∧ p = none ∧
      c' = ({ c with
        markets := markets
        capGroups := capGroups
        opState := .allocating (s.advance (total - before)) } :
          Contract A).stopAndExitAllocating (s.advance (total - before)) := by
  unfold supply02PositionRead at h
  split at h
  · exact .inl ⟨stopAndExit_eq_ok h, .inl ‹_›⟩
  rename_i s hs
  have hop := (ctxAllocating_eq_some.mp hs).1
  split at h
  · rename_i hindex
    exact .inl ⟨stopAndExit_eq_ok h, .inr (.inl ⟨s, hop, hindex⟩)⟩
  split at h
  · exact .inl ⟨stopAndExit_eq_ok h, .inr (.inr (.inl rfl))⟩
  · exact .inl ⟨stopAndExit_eq_ok h, .inr (.inr (.inr rfl))⟩
  rename_i total
  obtain ⟨markets, capGroups, hset, hrw⟩ := c.setMarketPrincipal_eq marketId total
  simp only [reconcileSupplyOutcome, hset, do_ok, orPanic_eq_ok, allocationStepCallback_eq_ok] at h
  obtain ⟨r, ⟨s', hs', -, -, -, hle, rfl⟩, h⟩ := h
  cases hop.symm.trans hs'
  refine .inr ⟨s, total, markets, capGroups, hop, rfl, hrw, hle, ?_⟩
  split at h
  · cases h
    exact ⟨rfl, rfl⟩
  rcases stepAllocation_eq_ok rfl h with ⟨step, -, hentry, -⟩ | ⟨-, rfl, rfl⟩
  · -- the plan has no second entry
    exfalso
    have hnext : (s.advance (total - before)).plan[(s.advance (total - before)).index]? = none := by
      rcases hplan s hop with hnil | ⟨hzero, e, he⟩
      · simp [AllocatingState.advance, hnil]
      · simp [AllocatingState.advance, hzero, he, saturatingAdd]
    rw [hnext] at hentry
    cases hentry
  · exact ⟨rfl, rfl⟩

theorem withdrawCtxAndMarketOrExit_cases (env : Env A) (c : Contract A) (opId market : Nat) :
    c.withdrawCtxAndMarketOrExit env opId market = .error (c.stopAndExit env) ∧
      ¬ c.AtMarket opId market ∨
    ∃ w, c.withdrawCtxAndMarketOrExit env opId market = .ok w ∧ c.opState = .withdrawing w ∧
      w.opId = opId ∧ c.withdrawRoute[w.index]? = some market ∧
      (c.markets.lookup market).isSome = true := by
  unfold withdrawCtxAndMarketOrExit
  split
  · rename_i hnone
    refine .inl ⟨rfl, ?_⟩
    rintro ⟨w, hop, hid, -, -⟩
    rw [ctxWithdrawing_eq_some.mpr ⟨hop, hid⟩] at hnone
    cases hnone
  rename_i w hw
  obtain ⟨hop, hid⟩ := ctxWithdrawing_eq_some.mp hw
  split
  · rename_i hroute
    exact .inr ⟨w, rfl, hop, hid, hroute.1, hroute.2⟩
  · rename_i hroute
    refine .inl ⟨rfl, ?_⟩
    rintro ⟨w', hop', -, hindex, hknown⟩
    cases hop.symm.trans hop'
    exact hroute ⟨hindex, hknown⟩

/-- What a callback of a market withdrawal does with what it reads: without its lease it returns at
once, away from its market or without a reading it stops, otherwise it acts on the reading. -/
def Reads {α : Type} (c : Contract A) (opId market : Nat) (r : Option α)
    (c' : Contract A) (p : Option (Callback A)) (acts : WithdrawingState A → α → Prop) : Prop :=
  c' = c ∧ p = none ∨ c.Stopped c' p ∧ (¬ c.AtMarket opId market ∨ r = none) ∨
  ∃ w x, c.opState = .withdrawing w ∧ w.opId = opId ∧ c.AtMarket opId market ∧ r = some x ∧ acts w x

theorem reads_of_eq_ok {α : Type} {r : Option α} {k : WithdrawingState A → Outcome (Step A)}
    {acts : WithdrawingState A → α → Prop}
    (h : (if c.hasCurrentLease env market opId token = false then .ok (c, none)
      else match c.withdrawCtxAndMarketOrExit env opId market with
        | .error stopped => stopped
        | .ok w => k w) = .ok (c', p))
    (hnone : r = none → ∀ w, k w = c.stopAndExit env)
    (hacts : ∀ w x, c.opState = .withdrawing w → w.opId = opId →
      c.withdrawRoute[w.index]? = some market → r = some x → k w = .ok (c', p) → acts w x) :
    c.Reads opId market r c' p acts := by
  split at h
  · cases h
    exact .inl ⟨rfl, rfl⟩
  rcases c.withdrawCtxAndMarketOrExit_cases env opId market with
    ⟨hctx, hat⟩ | ⟨w, hctx, hop, hid, hroute, hknown⟩
  · rw [hctx] at h
    exact .inr (.inl ⟨stopAndExit_eq_ok h, .inl hat⟩)
  rw [hctx] at h
  cases r with
  | none => exact .inr (.inl ⟨stopAndExit_eq_ok ((hnone rfl w).symm.trans h), .inr rfl⟩)
  | some x =>
    exact .inr (.inr ⟨w, x, hop, hid, ⟨w, hop, hid, hroute, hknown⟩, rfl,
      hacts w x hop hid hroute rfl h⟩)

theorem executeWithdraw01_eq_ok
    (h : c.executeWithdraw01 env balance opId market token = .ok (c', p)) :
    c.Reads opId market balance c' p fun _ b => c' = c ∧
      p = some (.executeWithdraw02 opId market token (c.principalOf market) b) := by
  refine reads_of_eq_ok h (by rintro rfl _; rfl) ?_
  rintro w b - - - rfl h
  cases h
  exact ⟨rfl, rfl⟩

theorem executeWithdraw02_eq_ok {principal : Nat}
    (h : c.executeWithdraw02 env position opId market token principal beforeBalance = .ok (c', p)) :
    c.Reads opId market position c' p fun _ total => c' = c ∧
      p = some (.executeWithdraw03 opId market token principal (total.getD 0) beforeBalance) := by
  refine reads_of_eq_ok h (by rintro rfl _; rfl) ?_
  rintro w total - - - rfl h
  cases h
  exact ⟨rfl, rfl⟩

theorem continueWithdraw_eq_ok {q : PayoutDelta} (hop : c.opState = .withdrawing w)
    (hroute : c.withdrawRoute[w.index]? = some market)
    (hdone : q.remainingNext = 0 → 0 < q.collectedNext)
    (hstay : q.payoutDelta = 0 → ¬ (d.principalDelta ≤ d.inflow ∧ 0 < d.principalDelta))
    (h : c.continueWithdraw env w w.opId d q = .ok (c', p)) : c.Continued w.opId c' p := by
  simp only [continueWithdraw, do_ok, orPanic_eq_ok, withdrawalStepCallback_eq_ok] at h
  obtain ⟨r, ⟨w', hw', -, hle, rfl⟩, h⟩ := h
  cases hop.symm.trans hw'
  split at h
  · rename_i hzero
    rw [if_pos (hdone hzero)] at h
    cases pay_eq_ok (w := { w.advance q.payoutDelta with index := _ }) rfl h with
    | waiting w' hid hrem => exact .waiting w' hid hrem
    | paying s hid hs => exact .paying s hid hs
  · rcases payOrSignalNextWithdraw_eq_ok rfl h with hgo | ⟨-, hnone, hend, -⟩
    · cases hgo with
      | waiting w' hid hrem => exact .waiting w' hid hrem
      | paying s hid hs => exact .paying s hid hs
    · -- nothing was collected, so the request still stands at this market
      have hzero : q.payoutDelta = 0 := by
        simp only [WithdrawingState.advance, saturatingAdd] at hnone
        omega
      simp only [if_neg (hstay hzero), hroute, reduceCtorEq] at hend

/-- The books are settled and the lease given back before the request goes on. -/
theorem executeWithdraw03_eq_ok (hrem : ∀ w, c.opState = .withdrawing w → 0 < w.remaining)
    (h : c.executeWithdraw03 env balance opId market token beforePrincipal reported beforeBalance =
      .ok (c', p)) : c.Reads opId market balance c' p fun _ after =>
      ∃ markets capGroups idle, Rewrites c.markets markets market (beforePrincipal -
          min (beforePrincipal - reported) (after - beforeBalance)) ∧
        (after < 2 ^ 128 → idle = after) ∧
        ({ c with
          markets := markets
          capGroups := capGroups
          idleBalance := idle
          marketExecutionLock := { c.marketExecutionLock with
            leasesByTarget := c.marketExecutionLock.leasesByTarget.erase market } } :
              Contract A).Continued opId c' p := by
  refine reads_of_eq_ok h (by rintro rfl _; rfl) ?_
  rintro w after hop hid hroute rfl h
  obtain ⟨markets, capGroups, idle, hset, hrw, hidle⟩ :=
    c.settleMarketPrincipalAndIdle_eq market beforePrincipal reported after beforeBalance
  subst hid
  simp only [settleMarketPrincipalAndIdle] at hset
  simp only [settleMarketPrincipalAndIdle, hset, do_ok] at h
  obtain ⟨c₁, h₁, h⟩ := h
  cases unlock_eq_ok h₁
  refine ⟨markets, capGroups, idle, hrw, hidle, ?_⟩
  have hpos := hrem w hop
  have hle := Nat.sub_le beforePrincipal reported
  -- a request that gets all it wants has collected something; one that gets nothing stays
  refine continueWithdraw_eq_ok hop hroute ?_ ?_ h
  all_goals
    simp only [creditWithdraw, reconcileWithdrawOutcome, determinePayoutDelta,
      computeWithdrawDeltas, saturatingAdd]
    clear * - hpos hle
    generalize beforePrincipal - reported = drop, after - beforeBalance = inflow at *
    omega

/-- What a callback of a rebalance does with what it reads: without a reading the rebalance ends. -/
def Rebalances {α : Type} (c : Contract A) (env : Env A) (opId marketId token : Nat) (r : Option α)
    (c' : Contract A) (p : Option (Callback A)) (acts : α → Prop) : Prop :=
  c' = c ∧ p = none ∨ c.Stopped c' p ∧ c.ctxAllocating opId = none ∨
  ∃ s, c.opState = .allocating s ∧ c.hasCurrentLease env marketId opId token = true ∧
    (r = none ∧ c.endRebalance marketId opId token = .ok (c', p) ∨ ∃ x, r = some x ∧ acts x)

theorem rebalances_of_eq_ok {α : Type} {r : Option α} {k : Outcome (Step A)} {acts : α → Prop}
    (h : (if c.hasCurrentLease env marketId opId token = false then .ok (c, none)
      else match c.ctxAllocating opId with
        | none => c.stopAndExit env
        | some _ => k) = .ok (c', p))
    (hnone : r = none → k = c.endRebalance marketId opId token)
    (hacts : ∀ x, r = some x → k = .ok (c', p) → acts x) :
    c.Rebalances env opId marketId token r c' p acts := by
  split at h
  · cases h
    exact .inl ⟨rfl, rfl⟩
  rename_i hlease
  split at h
  · exact .inr (.inl ⟨stopAndExit_eq_ok h, ‹_›⟩)
  rename_i s hs
  refine .inr (.inr ⟨s, (ctxAllocating_eq_some.mp hs).1, Bool.not_eq_false _ ▸ hlease, ?_⟩)
  cases r with
  | none => exact .inl ⟨rfl, (hnone rfl).symm.trans h⟩
  | some x => exact .inr ⟨x, rfl, hacts x rfl h⟩

theorem rebalanceWithdraw01_eq_ok
    (h : c.rebalanceWithdraw01 env balance opId marketId token beforePrincipal = .ok (c', p)) :
    c.Rebalances env opId marketId token balance c' p fun b => c' = c ∧
      p = some (.rebalanceWithdraw02 opId marketId token beforePrincipal b) := by
  refine rebalances_of_eq_ok h (by rintro rfl; rfl) ?_
  rintro b rfl h
  simp only [do_ok] at h
  obtain ⟨_, -, rfl, rfl⟩ := h
  exact ⟨rfl, rfl⟩

theorem rebalanceWithdraw02_eq_ok
    (h : c.rebalanceWithdraw02 env position opId marketId token beforePrincipal beforeBalance =
      .ok (c', p)) : c.Rebalances env opId marketId token position c' p fun total => c' = c ∧
      p = some (.rebalanceWithdraw03 opId marketId token beforePrincipal (total.getD 0)
        beforeBalance) := by
  refine rebalances_of_eq_ok h (by rintro rfl; rfl) ?_
  rintro total rfl h
  cases h
  exact ⟨rfl, rfl⟩

theorem rebalanceWithdraw03_eq_ok
    (h : c.rebalanceWithdraw03 env balance opId marketId token beforePrincipal reported beforeBalance =
      .ok (c', p)) : c.Rebalances env opId marketId token balance c' p fun after =>
      (c.settleMarketPrincipalAndIdle marketId beforePrincipal reported after
        beforeBalance).1.endRebalance marketId opId token = .ok (c', p) :=
  rebalances_of_eq_ok h (by rintro rfl; rfl) (by rintro after rfl h; exact h)

/-- The books of a payout that has ended with the idle funds at `idle`. -/
def payoutEnded (c : Contract A) (idle : Nat) (ledger : Balances A)
    (queue : WithdrawQueue A) : Contract A :=
  { c with
    idleBalance := idle
    shares := ledger
    withdrawQueue := queue
    withdrawRoute := []
    marketExecutionLock := c.marketExecutionLock.clear
    opState := .idle }

/-- A payout that is called off ends with the idle funds that were read. -/
theorem stopAndExitPayout01Reconcile_eq_ok
    (h : c.stopAndExitPayout01Reconcile env balance opId = .ok (c', p)) :
    c' = c ∧ p = none ∨ ∃ s idle ledger queue, c.opState = .payout s ∧ s.opId = opId ∧
      c' = c.payoutEnded idle ledger queue ∧ p = none := by
  unfold stopAndExitPayout01Reconcile at h
  split at h
  · cases h
    exact .inl ⟨rfl, rfl⟩
  rename_i s hs
  obtain ⟨hop, hid⟩ := ctxPayout_eq_some.mp hs
  obtain ⟨idle, hidle⟩ : ∃ idle, c.resyncIdleBalanceIfRead balance = { c with idleBalance := idle } := by
    cases balance with
    | none => exact ⟨_, rfl⟩
    | some actual => exact (c.resyncIdleBalanceTo_eq actual).imp fun _ h => h.1
  simp only [hidle, do_ok] at h
  obtain ⟨c₁, h₁, c₂, h₂, rfl, rfl⟩ := h
  obtain ⟨ledger, rfl⟩ := refundEscrowIfAny_eq_ok h₁
  obtain ⟨queue, rfl⟩ := endPayout_eq_ok h₂
  exact .inr ⟨s, idle, ledger, queue, hop, hid, rfl, rfl⟩

theorem burnEscrowIfAny_eq_ok {shares : Nat} (h : c.burnEscrowIfAny env shares = .ok c') :
    ∃ ledger, c' = { c with shares := ledger } := by
  unfold burnEscrowIfAny at h
  split at h
  · simp only [do_ok] at h
    obtain ⟨ledger, -, rfl⟩ := h
    exact ⟨ledger, rfl⟩
  · cases h
    exact ⟨c.shares, rfl⟩

/-- A transfer that failed leaves the amount in the vault; one that succeeded has taken it. -/
theorem payment01ReconcileIdleOrRefund_eq_ok {succeeded : Bool} {receiver : A}
    (h : c.payment01ReconcileIdleOrRefund env succeeded opId receiver = .ok (c', p)) :
    c' = c ∧ p = none ∨
    ∃ s ledger queue, c.opState = .payout s ∧ s.opId = opId ∧ p = none ∧
      c' = c.payoutEnded (if succeeded then c.idleBalance
        else saturatingAdd 128 c.idleBalance s.amount) ledger queue := by
  unfold payment01ReconcileIdleOrRefund at h
  split at h
  · cases h
    exact .inl ⟨rfl, rfl⟩
  rename_i s hs
  obtain ⟨hop, hid⟩ := ctxPayout_eq_some.mp hs
  split at h
  · cases h
    exact .inl ⟨rfl, rfl⟩
  split at h
  · rename_i hok
    simp only [do_ok] at h
    obtain ⟨c₁, h₁, c₂, h₂, c₃, h₃, rfl, rfl⟩ := h
    obtain ⟨l₁, rfl⟩ := burnEscrowIfAny_eq_ok h₁
    obtain ⟨l₂, rfl⟩ := refundEscrowIfAny_eq_ok h₂
    obtain ⟨queue, rfl⟩ := endPayout_eq_ok h₃
    refine .inr ⟨s, l₂, queue, hop, hid, rfl, ?_⟩
    rw [if_pos hok]
    rfl
  · rename_i hfail
    simp only [do_ok] at h
    obtain ⟨c₁, h₁, c₂, h₂, rfl, rfl⟩ := h
    obtain ⟨ledger, -, rfl⟩ := refundEscrow_eq_ok h₁
    obtain ⟨queue, rfl⟩ := endPayout_eq_ok h₂
    refine .inr ⟨s, ledger, queue, hop, hid, rfl, ?_⟩
    rw [if_neg hfail]
    rfl

end Contract

end Templar.Near
