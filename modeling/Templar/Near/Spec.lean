import Templar.Near.Calls
import Templar.Vault.ActionSpec

/-!
# What the functions of the NEAR vault do

One lemma for each function, saying what it has checked and what it has changed when it returns.
The invariants are derived from these lemmas and never open a function again.
-/

namespace Templar.Near

open Checked Vault Curator MarketRecord Table Option

variable {A : Type}

namespace Contract

variable {c c' : Contract A} {p : Option (Callback A)}
  {opId marketId market shares amount escrowShares : Nat} {s : AllocatingState}
  {markets : Table Nat (MarketRecord A)} {owner receiver : A} {text : String}
  {w : WithdrawingState A}

theorem ite_some_eq_some {α : Type} {opIdOf : α → Nat} {t s : α} :
    (if opIdOf t = opId then some t else none) = some s ↔ t = s ∧ opIdOf s = opId := by
  rw [ite_none_right_eq_some, some.injEq]
  constructor
  · rintro ⟨h, rfl⟩
    exact ⟨rfl, h⟩
  · rintro ⟨rfl, h⟩
    exact ⟨h, rfl⟩

@[simp] theorem ctxAllocating_eq_some :
    c.ctxAllocating opId = some s ↔ c.opState = .allocating s ∧ s.opId = opId := by
  unfold ctxAllocating
  cases c.opState with
  | allocating t =>
    rw [OpState.allocating.injEq]
    exact ite_some_eq_some
  | _ => simp

@[simp] theorem ctxWithdrawing_eq_some {s : WithdrawingState A} :
    c.ctxWithdrawing opId = some s ↔ c.opState = .withdrawing s ∧ s.opId = opId := by
  unfold ctxWithdrawing
  cases c.opState with
  | withdrawing t =>
    rw [OpState.withdrawing.injEq]
    exact ite_some_eq_some
  | _ => simp

@[simp] theorem ctxRefreshing_eq_some {s : RefreshingState} :
    c.ctxRefreshing opId = some s ↔ c.opState = .refreshing s ∧ s.opId = opId := by
  unfold ctxRefreshing
  cases c.opState with
  | refreshing t =>
    rw [OpState.refreshing.injEq]
    exact ite_some_eq_some
  | _ => simp

@[simp] theorem ctxPayout_eq_some {s : PayoutState A} :
    c.ctxPayout opId = some s ↔ c.opState = .payout s ∧ s.opId = opId := by
  unfold ctxPayout
  cases c.opState with
  | payout t =>
    rw [OpState.payout.injEq]
    exact ite_some_eq_some
  | _ => simp

@[simp] theorem ensureIdle_eq_ok {u : Unit} : c.ensureIdle = .ok u ↔ c.opState = .idle := by
  simp [ensureIdle]

@[simp] theorem marketAccountByIdOrPanic_eq_ok {a : A} :
    c.marketAccountByIdOrPanic marketId = .ok a ↔
      (c.markets.lookup marketId).map account = some a := expect_eq_ok

theorem popHead_eq_ok (h : c.popHead = .ok c') : ∃ queue, c' = { c with withdrawQueue := queue } := by
  simp only [popHead, do_ok] at h
  obtain ⟨⟨removed, queue⟩, -, _, -, rfl⟩ := h
  exact ⟨queue, rfl⟩

/-- The balance read is a machine word, and then the idle funds are set to it. -/
theorem resyncIdleBalanceTo_eq (c : Contract A) (actual : Nat) :
    ∃ idle, c.resyncIdleBalanceTo actual = { c with idleBalance := idle } ∧
      (actual < 2 ^ 128 → idle = actual) := by
  unfold resyncIdleBalanceTo
  split
  · refine ⟨saturatingAdd 128 c.idleBalance (actual - c.idleBalance), rfl, ?_⟩
    unfold saturatingAdd
    omega
  · exact ⟨_, rfl, by omega⟩

/-- The principals recorded before and after a write to one market. -/
structure Rewrites (markets markets' : Table Nat (MarketRecord A)) (marketId n : Nat) : Prop where
  known : ∀ k, (markets'.lookup k).isSome = (markets.lookup k).isSome
  same : (markets.lookup marketId).isSome = true → part principal markets' marketId = n
  other : ∀ k, k ≠ marketId → part principal markets' k = part principal markets k
  total : (markets.lookup marketId).isSome = true →
    total principal markets' + part principal markets marketId = n + total principal markets
  unknown : markets.lookup marketId = none → markets' = markets

theorem Rewrites.refl {n : Nat} (h : ∀ rec, markets.lookup marketId = some rec → rec.principal = n) :
    Rewrites markets markets marketId n where
  known _ := rfl
  same hk := by
    obtain ⟨rec, hrec⟩ := isSome_iff_exists.mp hk
    rw [part_of_lookup hrec, h rec hrec]
  other _ _ := rfl
  total hk := by
    obtain ⟨rec, hrec⟩ := isSome_iff_exists.mp hk
    rw [part_of_lookup hrec, h rec hrec]
    omega
  unknown _ := rfl

theorem Rewrites.insert {rec : MarketRecord A} (h : markets.lookup marketId = some rec)
    (n : Nat) :
    Rewrites markets (markets.insert marketId { rec with principal := n }) marketId n where
  known k := by
    by_cases hk : k = marketId
    · subst hk
      rw [AList.lookup_insert, h]
      rfl
    · rw [AList.lookup_insert_ne hk]
  same _ := part_insert_same _ _ _ _
  other _ hk := part_insert_other _ _ _ hk
  total _ := total_insert _ _ _ _
  unknown hn := by
    rw [h] at hn
    cases hn

/-- A write of a principal touches the market it names and the books of that market's group. -/
theorem setMarketPrincipal_eq (c : Contract A) (marketId n : Nat) :
    ∃ markets capGroups, c.setMarketPrincipal marketId n =
        { c with markets := markets, capGroups := capGroups } ∧
      Rewrites c.markets markets marketId n := by
  unfold setMarketPrincipal
  split
  · rename_i hnone
    refine ⟨c.markets, c.capGroups, rfl, .refl ?_⟩
    intro rec hrec
    rw [hnone] at hrec
    cases hrec
  rename_i rec hrec
  split
  · rename_i heq
    refine ⟨c.markets, c.capGroups, rfl, .refl ?_⟩
    intro rec' hrec'
    cases hrec.symm.trans hrec'
    exact heq
  dsimp only
  split
  · unfold updateCapGroupPrincipal
    split
    · exact ⟨_, c.capGroups, rfl, .insert hrec n⟩
    · exact ⟨_, _, rfl, .insert hrec n⟩
  · exact ⟨_, c.capGroups, rfl, .insert hrec n⟩

section

variable {env : Env A} {token : Nat}

/-- A refresh reads the next known market, and at the end it is over. -/
theorem refreshStep_eq_ok {s : RefreshingState} (hop : c.opState = .refreshing s)
    (h : c.refreshStep env s.opId = .ok (c', p)) :
    (∃ m, (c.markets.lookup m).isSome = true ∧ c' = c ∧
      p = some (.refresh01Settle m s.opId s.index (c.principalOf m))) ∨
    c' = { c with lastRefreshNs := env.blockTimestamp, opState := .idle } ∧ p = none := by
  have hctx : c.ctxRefreshing s.opId = some s := ctxRefreshing_eq_some.mpr ⟨hop, rfl⟩
  simp only [refreshStep, hctx] at h
  split at h
  · cases h
    exact .inr ⟨rfl, rfl⟩
  · rename_i m hm
    simp only [do_ok, marketAccountByIdOrPanic_eq_ok] at h
    obtain ⟨a, ha, rfl, rfl⟩ := h
    obtain ⟨rec, hrec, -⟩ := map_eq_some_iff.mp ha
    exact .inl ⟨m, by rw [hrec]; rfl, rfl, rfl⟩

/-- A lease that is current belongs to the operation. -/
theorem hasCurrentLease_eq_true (h : c.hasCurrentLease env market opId token = true) :
    ∃ lease, c.marketExecutionLock.leasesByTarget.lookup market = some lease ∧
      lease.opId = some opId := by
  obtain ⟨lease, hlease⟩ := isSome_iff_exists.mp h
  obtain ⟨hactive, hown⟩ := filter_eq_some_iff.mp hlease
  refine ⟨lease, (MarketLeaseRegistry.getActive_eq_some.mp hactive).1, ?_⟩
  simp only [decide_eq_true_eq] at hown
  exact hown.1

/-- The new lease stands beside those that have not expired. -/
theorem lock_eq_ok {lease : MarketLease} (h : c.lock env market opId = .ok (c', lease)) :
    lease.opId = some opId ∧ ∃ registry, c' = { c with marketExecutionLock := registry } ∧
      registry.leasesByTarget = (c.marketExecutionLock.leasesByTarget.retain (fun old =>
        !old.isExpired env.blockTimestamp)).insert market lease := by
  simp only [lock, do_ok, orPanic_eq_ok] at h
  obtain ⟨_, ha, ⟨registry, lease'⟩, rfl, rfl, rfl⟩ := h
  obtain ⟨-, hop, -, -, hleases⟩ := MarketLeaseRegistry.tryAcquire_eq_ok ha
  exact ⟨hop, registry, rfl, hleases⟩

/-- The lease of the market is given back. -/
theorem unlock_eq_ok (h : c.unlock market opId token = .ok c') :
    c' = { c with marketExecutionLock := { c.marketExecutionLock with
      leasesByTarget := c.marketExecutionLock.leasesByTarget.erase market } } := by
  simp only [unlock, do_ok, orPanic_eq_ok] at h
  obtain ⟨registry, hr, rfl⟩ := h
  rw [MarketLeaseRegistry.releaseIfOwnedWithToken_eq_ok hr]

end

variable [DecidableEq A] {env : Env A}

theorem refundEscrow_eq_ok (h : c.refundEscrow env owner shares text = .ok c') :
    ∃ ledger, c.shares.transfer env.currentAccountId owner shares = some ledger ∧
      c' = { c with shares := ledger } := by
  simpa only [refundEscrow, do_ok] using h

theorem transfer_eq_ok {sender : A} (h : c.transfer env sender receiver amount text = .ok c') :
    ∃ ledger, c' = { c with shares := ledger } := by
  simp only [transfer, do_ok] at h
  obtain ⟨-, -, -, ledger, -, rfl⟩ := h
  exact ⟨ledger, rfl⟩

theorem refundEscrowIfAny_eq_ok (h : c.refundEscrowIfAny env owner shares text = .ok c') :
    ∃ ledger, c' = { c with shares := ledger } := by
  unfold refundEscrowIfAny at h
  split at h
  · obtain ⟨ledger, -, rfl⟩ := refundEscrow_eq_ok h
    exact ⟨ledger, rfl⟩
  · cases h
    exact ⟨c.shares, rfl⟩

/-- The ways an operation is stopped. A payout is only asked about, and in an idle vault nothing
happens. -/
inductive Stopped (c : Contract A) : Contract A → Option (Callback A) → Prop
  | idle : c.opState = .idle → Stopped c c none
  | allocating {s : AllocatingState} : c.opState = .allocating s →
      Stopped c (c.stopAndExitAllocating s) none
  | withdrawing {s : WithdrawingState A} (ledger : Balances A)
      (queue : WithdrawQueue A) : c.opState = .withdrawing s →
      Stopped c { c with
        shares := ledger
        withdrawQueue := queue
        marketExecutionLock := c.marketExecutionLock.clear
        withdrawRoute := []
        opState := .idle } none
  | refreshing {s : RefreshingState} : c.opState = .refreshing s →
      Stopped c { c with opState := .idle } none
  | payout {s : PayoutState A} : c.opState = .payout s →
      Stopped c c (some (.stopAndExitPayout01Reconcile s.opId))

section

omit [DecidableEq A]

theorem Stopped.of_idle (h : c.Stopped c' p) (hop : c.opState = .idle) : c' = c ∧ p = none := by
  cases h with
  | idle _ => exact ⟨rfl, rfl⟩
  | allocating hop' | withdrawing _ _ hop' | refreshing hop' | payout hop' =>
    cases hop.symm.trans hop'

theorem Stopped.of_allocating {s : AllocatingState} (h : c.Stopped c' p)
    (hop : c.opState = .allocating s) : c' = c.stopAndExitAllocating s ∧ p = none := by
  cases h with
  | idle hop' => cases hop.symm.trans hop'
  | allocating hop' =>
    cases hop.symm.trans hop'
    exact ⟨rfl, rfl⟩
  | withdrawing _ _ hop' | refreshing hop' | payout hop' => cases hop.symm.trans hop'

end

/-- Stopping does what `Stopped` says. -/
theorem stopAndExit_eq_ok (h : c.stopAndExit env = .ok (c', p)) : c.Stopped c' p := by
  unfold stopAndExit at h
  split at h
  · rename_i s hs
    cases h
    exact .allocating hs
  · rename_i s hs
    simp only [refundEscrowAndGoIdle, do_ok] at h
    obtain ⟨_, ⟨c₁, h₁, c₂, h₂, rfl⟩, rfl, rfl⟩ := h
    obtain ⟨ledger, rfl⟩ := refundEscrowIfAny_eq_ok h₁
    obtain ⟨queue, rfl⟩ := popHead_eq_ok h₂
    exact .withdrawing ledger queue hs
  · rename_i s hs
    cases h
    exact .refreshing hs
  · rename_i s hs
    cases h
    exact .payout hs
  · rename_i hs
    cases h
    exact .idle hs

/-- A forced recovery stops the operation in progress. -/
theorem unbrick_eq (c : Contract A) : c.unbrick env = c.stopAndExit env := by
  unfold unbrick stopAndExit
  cases hop : c.opState with
  | idle => rfl
  | allocating s =>
    have hctx : c.ctxAllocating s.opId = some s := ctxAllocating_eq_some.mpr ⟨hop, rfl⟩
    simp [determineRecoveryAction, applyKernelRecoveryAction, hctx]
  | withdrawing s =>
    have hctx : c.ctxWithdrawing s.opId = some s := ctxWithdrawing_eq_some.mpr ⟨hop, rfl⟩
    simp [determineRecoveryAction, applyKernelRecoveryAction, hctx]
  | refreshing s =>
    have hctx : c.ctxRefreshing s.opId = some s := ctxRefreshing_eq_some.mpr ⟨hop, rfl⟩
    simp [determineRecoveryAction, applyKernelRecoveryAction, hctx, stopAndExit, hop]
  | payout s =>
    have hctx : c.ctxPayout s.opId = some s := ctxPayout_eq_some.mpr ⟨hop, rfl⟩
    simp [determineRecoveryAction, applyKernelRecoveryAction, hctx]

/-- A supply sends to the market of its plan what there is room for, or ends. -/
theorem stepAllocation_eq_ok (hop : c.opState = .allocating s)
    (h : c.stepAllocation env = .ok (c', p)) :
    (∃ step, s.remaining ≠ 0 ∧ s.plan[s.index]? = some step ∧
      min (c.roomOf step.targetId) step.amount ≠ 0 ∧ (c.markets.lookup step.targetId).isSome = true ∧
      c' = c ∧ p = some (.supply01HandleTransfer step.targetId s.opId s.index
        (min (c.roomOf step.targetId) step.amount) s.remaining)) ∨
    (s.remaining = 0 ∨ s.plan[s.index]? = none) ∧ c' = c.stopAndExitAllocating s ∧ p = none := by
  have hstop : c.stopAndExit env = .ok (c.stopAndExitAllocating s, none) := by
    simp only [stopAndExit, hop]
  simp only [stepAllocation, stepAllocationLoop, hop] at h
  split at h
  · rename_i hrem
    cases hstop.symm.trans h
    exact .inr ⟨.inl hrem, rfl, rfl⟩
  rename_i hrem
  split at h
  · rename_i hnone
    cases hstop.symm.trans h
    exact .inr ⟨.inr hnone, rfl, rfl⟩
  rename_i step hstep
  split at h
  · simp only [do_ok, orPanic_eq_ok] at h
    obtain ⟨r, hr, -⟩ := h
    exact absurd hr allocationStepCallback_zero
  · rename_i hroom
    simp only [supplyAndThen, do_ok, marketAccountByIdOrPanic_eq_ok] at h
    obtain ⟨_, ⟨a, ha, rfl⟩, rfl, rfl⟩ := h
    refine .inl ⟨step, hrem, hstep, hroom, ?_, rfl, rfl⟩
    obtain ⟨rec, hrec, -⟩ := map_eq_some_iff.mp ha
    rw [hrec]
    rfl

theorem planTotal_singleton (targetId amount : Nat) :
    planTotal [⟨targetId, amount⟩] = min amount (2 ^ 128 - 1) := by
  simp [planTotal, saturatingAdd]

/-- A supply that starts reserves its amount and sends it, or as much of it as there is room for,
to its one market. -/
theorem startAllocation_eq_ok (h : c.startAllocation env amount [⟨market, amount⟩] = .ok (c', p)) :
    amount = 0 ∧ c' = c ∧ p = none ∨
    ∃ sent, c.opState = .idle ∧ 0 < sent ∧ sent ≤ amount ∧ min amount (2 ^ 128 - 1) ≤ c.idleBalance ∧
      (c.markets.lookup market).isSome = true ∧
      c' = { c with
        nextOpId := saturatingAdd 64 c.nextOpId 1
        idleBalance := c.idleBalance - min amount (2 ^ 128 - 1)
        opState := .allocating ⟨c.nextOpId, 0, min amount (2 ^ 128 - 1), [⟨market, amount⟩]⟩ } ∧
      p = some (.supply01HandleTransfer market c.nextOpId 0 sent (min amount (2 ^ 128 - 1))) := by
  unfold startAllocation at h
  split at h
  · rename_i hzero
    cases h
    exact .inl ⟨hzero, rfl, rfl⟩
  rename_i hne
  simp only [do_ok, ensureIdle_eq_ok, orPanic_eq_ok, applyAction] at h
  obtain ⟨hidle, r, hr, h⟩ := h
  obtain ⟨-, -, hle, -, rfl⟩ := handleBeginAllocating_eq_ok hr
  rw [planTotal_singleton] at hle
  simp only [planTotal_singleton, kernelStateMirror, takeOpId] at h hle
  rcases stepAllocation_eq_ok rfl h with ⟨step, -, hstep, hroom, hknown, rfl, rfl⟩ | ⟨hend, -⟩
  · simp only [List.getElem?_cons_zero, some.injEq] at hstep
    subst hstep
    exact .inr ⟨_, hidle, by omega, Nat.min_le_right _ _, hle, hknown, rfl, rfl⟩
  · simp at hend
    omega

/-- A withdrawal that goes on: it waits for its next market, or what it has collected is on its
way. -/
inductive Continued (c : Contract A) (opId : Nat) :
    Contract A → Option (Callback A) → Prop
  | waiting (w : WithdrawingState A) : w.opId = opId → 0 < w.remaining →
      Continued c opId { c with opState := .withdrawing w } none
  | paying (s : PayoutState A) : s.opId = opId → s.amount ≤ c.idleBalance →
      Continued c opId { c with opState := .payout s, idleBalance := c.idleBalance - s.amount }
        (some (.payment01ReconcileIdleOrRefund opId s.receiver s.amount))

/-- A payout starts. -/
theorem pay_eq_ok {burnShares : Nat} (hop : c.opState = .withdrawing w)
    (h : c.pay env w.opId receiver amount owner escrowShares burnShares = .ok (c', p)) :
    c.Continued w.opId c' p := by
  have hctx : c.ctxWithdrawing w.opId = some w := ctxWithdrawing_eq_some.mpr ⟨hop, rfl⟩
  simp only [pay, hctx, do_ok] at h
  obtain ⟨hle, rfl, rfl⟩ := h
  exact .paying ⟨w.opId, w.requestId, receiver, amount, owner, escrowShares, burnShares⟩ rfl hle

/-- A withdrawal is given up only where its route has ended and nothing was collected. -/
theorem payOrSignalNextWithdraw_eq_ok (hop : c.opState = .withdrawing w)
    (h : c.payOrSignalNextWithdraw env = .ok (c', p)) : c.Continued w.opId c' p ∨
      w.remaining ≠ 0 ∧ w.collected = 0 ∧ c.withdrawRoute[w.index]? = none ∧
        c' = { c with withdrawRoute := [], opState := .idle } ∧ p = none := by
  simp only [payOrSignalNextWithdraw, hop] at h
  split at h
  · exact .inl (pay_eq_ok hop h)
  rename_i hrem
  split at h
  · cases h
    have hself : c = { c with opState := .withdrawing w } := by rw [← hop]
    rw [hself]
    exact .inl (.waiting w rfl (by omega))
  rename_i hroute
  split at h
  · exact .inl (pay_eq_ok hop h)
  · cases h
    exact .inr ⟨hrem, by omega, hroute, rfl, rfl⟩

/-- A request that is started is paid, waits for its markets, or is put back where there is
neither a market nor any idle funds. -/
theorem startWithdraw_eq_ok {route : List Nat} (hidle : c.opState = .idle)
    (h : c.startWithdraw env amount receiver owner escrowShares route = .ok (c', p)) :
    c' = c ∧ p = none ∨
    { c with nextOpId := saturatingAdd 64 c.nextOpId 1, withdrawRoute := route }.Continued
      c.nextOpId c' p ∨
    c' = { c with nextOpId := saturatingAdd 64 c.nextOpId 1, withdrawRoute := [] } ∧ p = none := by
  unfold startWithdraw at h
  split at h
  · exact .inl ((stopAndExit_eq_ok h).of_idle hidle)
  split at h
  · cases h
  simp only [do_ok, ensureIdle_eq_ok, orPanic_eq_ok, startWithdrawal_eq_ok] at h
  obtain ⟨-, _, ⟨-, -, -, rfl⟩, r, hr, h⟩ := h
  have hwith : ∃ w, r.newState = .withdrawing w ∧ w.opId = c.nextOpId := by
    split at hr
    · obtain ⟨w, hw, hop, -, rfl⟩ := withdrawalStepCallback_eq_ok.mp (orPanic_eq_ok.mp hr)
      cases hw
      exact ⟨_, rfl, rfl⟩
    · cases hr
      exact ⟨_, rfl, rfl⟩
  obtain ⟨w, hw, hop⟩ := hwith
  rw [hw] at h
  rcases payOrSignalNextWithdraw_eq_ok rfl h with hgo | ⟨-, -, -, rfl, rfl⟩
  · rw [hop] at hgo
    refine .inr (.inl ?_)
    cases hgo with
    | waiting w' hid hrem => exact .waiting w' hid hrem
    | paying s hid hle => exact .paying s hid hle
  · refine .inr (.inr ⟨?_, rfl⟩)
    rw [← hidle]
    rfl

end Contract

end Templar.Near
