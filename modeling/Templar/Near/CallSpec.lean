import Templar.Near.Spec

/-!
# What the public calls of the NEAR vault do

For each call, what it has checked and what it has changed when it returns. The accrual at the
head of a call touches the ledger and the anchor only, so what follows it is stated about the
contract with these two replaced.
-/

namespace Templar.Near

open Checked Vault Curator MarketRecord Table AList

variable {A : Type}

namespace Contract

variable {c c' : Contract A} {p : Option (Callback A)} {env : Env A}
  {opId marketId market : Nat} {sender receiver : A}
  {markets : Table Nat (MarketRecord A)} {rec : MarketRecord A} {route : List Nat}

/-- The kernel runs without fees. -/
theorem kernelConfigMirror_inactive (c : Contract A) :
    c.kernelConfigMirror.fees.hasActiveSlotFees = false := by
  simp [kernelConfigMirror, FeesSpec.hasActiveSlotFees, FeeSlot.hasRate]

/-- Every market has an id below the next one. -/
def MarketsNumbered (c : Contract A) : Prop :=
  ∀ k, (c.markets.lookup k).isSome = true → k < c.nextMarketId

/-- The same principals, for markets that may be configured differently. -/
structure Relisted (markets markets' : Table Nat (MarketRecord A)) : Prop where
  known : ∀ k, (markets.lookup k).isSome = true → (markets'.lookup k).isSome = true
  same : ∀ k, part principal markets' k = part principal markets k
  total : total principal markets' = total principal markets

theorem Relisted.refl (markets : Table Nat (MarketRecord A)) : Relisted markets markets :=
  ⟨fun _ h => h, fun _ => rfl, rfl⟩

theorem Relisted.insert (h : part principal markets marketId = rec.principal) :
    Relisted markets (markets.insert marketId rec) where
  known k hk := by
    by_cases hkey : k = marketId
    · subst hkey
      rw [lookup_insert]
      rfl
    · rwa [lookup_insert_ne hkey]
  same k := by
    by_cases hkey : k = marketId
    · subst hkey
      rw [part_insert_same, h]
    · rw [part_insert_other _ _ _ hkey]
  total := by
    have htotal := total_insert principal markets marketId rec
    omega

theorem Relisted.configure (h : markets.lookup marketId = some rec) (cfg : MarketConfiguration) :
    Relisted markets (markets.insert marketId { rec with cfg := cfg }) := by
  refine .insert ?_
  rw [part_of_lookup h]

/-- A market that is written again keeps its number. -/
theorem MarketsNumbered.insert (hnum : c.MarketsNumbered)
    (h : (c.markets.lookup market).isSome = true) :
    { c with markets := c.markets.insert market rec }.MarketsNumbered := by
  intro k hk
  by_cases hkey : k = market
  · subst hkey
    exact hnum k h
  · rw [lookup_insert_ne hkey] at hk
    exact hnum k hk

/-- A change of the configuration in an idle vault: markets, groups and the queue, but no
principal. -/
def Reconfigured (c c' : Contract A) : Prop :=
  c.opState = .idle ∧ c'.MarketsNumbered ∧ ∃ next ids markets groups queue,
    Relisted c.markets markets ∧ c' = { c with
      nextMarketId := next
      marketIds := ids
      markets := markets
      capGroups := groups
      supplyQueue := queue }

theorem setSupplyQueue_eq_ok {markets : List Nat} (hnum : c.MarketsNumbered)
    (h : c.setSupplyQueue markets = .ok c') : c.Reconfigured c' := by
  simp only [setSupplyQueue, do_ok, ensureIdle_eq_ok] at h
  obtain ⟨hidle, -, h⟩ := h
  split at h
  · cases h
  · simp only [do_ok] at h
    obtain ⟨-, -, rfl⟩ := h
    exact ⟨hidle, hnum, c.nextMarketId, c.marketIds, c.markets, c.capGroups, _, .refl _, rfl⟩

theorem updateCapGroupPrincipalIfAny_eq (c : Contract A) (capGroup : Option String)
    (old new : Nat) :
    ∃ groups, c.updateCapGroupPrincipalIfAny capGroup old new = { c with capGroups := groups } := by
  unfold updateCapGroupPrincipalIfAny
  split
  · unfold updateCapGroupPrincipal
    split
    · exact ⟨c.capGroups, rfl⟩
    · exact ⟨_, rfl⟩
  · exact ⟨c.capGroups, rfl⟩

theorem applyCapGroupMembership_eq_ok {capGroup : Option String} (hnum : c.MarketsNumbered)
    (h : c.applyCapGroupMembership market capGroup = .ok c') : c.Reconfigured c' := by
  simp only [applyCapGroupMembership, do_ok, ensureIdle_eq_ok] at h
  obtain ⟨hidle, rec, hrec, h⟩ := h
  split at h
  · cases h
    exact ⟨hidle, hnum, c.nextMarketId, c.marketIds, c.markets, c.capGroups, c.supplyQueue, .refl _, rfl⟩
  obtain ⟨g₁, h₁⟩ := c.updateCapGroupPrincipalIfAny_eq rec.cfg.capGroupId rec.principal 0
  obtain ⟨g₂, h₂⟩ := ({ c with capGroups := g₁ } :
    Contract A).updateCapGroupPrincipalIfAny_eq capGroup 0 rec.principal
  simp only [h₁, h₂, do_ok] at h
  subst h
  exact ⟨hidle, hnum.insert (by rw [hrec]; rfl), c.nextMarketId, c.marketIds, _, g₂, c.supplyQueue,
    .configure hrec _, rfl⟩

variable [DecidableEq A]

theorem applyKernelEffect_eq_ok {effect : KernelEffect A}
    (h : c.applyKernelEffect effect = .ok c') : ∃ ledger, c' = { c with shares := ledger } := by
  unfold applyKernelEffect at h
  split at h
  · simp only [do_ok] at h
    obtain ⟨-, rfl⟩ := h
    exact ⟨_, rfl⟩
  · simp only [do_ok] at h
    obtain ⟨ledger, -, rfl⟩ := h
    exact ⟨ledger, rfl⟩
  · simp only [do_ok] at h
    obtain ⟨ledger, -, rfl⟩ := h
    exact ⟨ledger, rfl⟩
  · simp only [do_ok] at h
    obtain ⟨ledger, -, rfl⟩ := h
    exact ⟨ledger, rfl⟩
  · cases h
    exact ⟨c.shares, rfl⟩

theorem applyKernelEffects_eq_ok {effects : List (KernelEffect A)}
    (h : c.applyKernelEffects effects = .ok c') : ∃ ledger, c' = { c with shares := ledger } := by
  induction effects generalizing c with
  | nil =>
    cases h
    exact ⟨_, rfl⟩
  | cons effect effects ih =>
    simp only [applyKernelEffects, List.foldlM_cons, do_ok] at h
    obtain ⟨c₁, h₁, h⟩ := h
    obtain ⟨l₁, rfl⟩ := applyKernelEffect_eq_ok h₁
    obtain ⟨l₂, rfl⟩ := ih h
    exact ⟨l₂, rfl⟩

/-- A deposit that is refused changes the ledger and the anchor, by the accrual; it is refused in
an idle vault, or where there is no room. One that is accepted needs an idle vault. -/
theorem executeSupply_eq_ok {deposit refund : Nat}
    (h : c.executeSupply env sender deposit = .ok (c', refund)) :
    c.isPayout = false ∧ c.idleResyncInflightOpId = 0 ∧
    ((refund = deposit ∧ (c.opState = .idle ∨ c.getMaxDeposit = 0) ∧
        ∃ ledger t, c' = { c with shares := ledger, feeAnchor := ⟨c.getTotalAssets, t⟩ }) ∨
      ∃ accepted ledger, c.opState = .idle ∧ 0 < accepted ∧ accepted ≤ deposit ∧
        refund = deposit - accepted ∧ c.getTotalAssets + accepted < 2 ^ 128 ∧
        c.idleBalance + accepted < 2 ^ 128 ∧
        c' = { c with
          shares := ledger
          idleBalance := c.idleBalance + accepted
          feeAnchor := ⟨c.getTotalAssets + accepted, env.blockTimestamp⟩ }) := by
  simp only [executeSupply, do_ok] at h
  obtain ⟨hpos, hpayout, hflag, c₁, h₁, h⟩ := h
  obtain ⟨-, l₁, t, rfl⟩ := internalAccrueFee_eq_ok h₁
  refine ⟨hpayout, hflag, ?_⟩
  -- the caps do not depend on the ledger or the anchor
  have hmax : ({ c with shares := l₁, feeAnchor := ⟨c.getTotalAssets, t⟩ } :
    Contract A).getMaxDeposit = c.getMaxDeposit := rfl
  rw [hmax] at h
  split at h
  · rename_i hzero
    cases h
    exact .inl ⟨rfl, .inr (by omega), l₁, t, rfl⟩
  rename_i hne
  simp only [do_ok, orPanic_eq_ok, applyAction] at h
  obtain ⟨r, hr, h⟩ := h
  obtain ⟨a, n, hidle, -, ha, -, -, -, htotal, hidle', -, rfl⟩ := handleDeposit_eq_ok hr
  rw [refreshFees_of_inactive (kernelConfigMirror_inactive _)] at ha
  cases ha
  split at h
  · cases h
    exact .inl ⟨rfl, .inl hidle, l₁, t, rfl⟩
  simp only [do_ok, orPanic_eq_ok] at h
  obtain ⟨c₂, h₂, rfl, rfl⟩ := h
  obtain ⟨l₂, rfl⟩ := applyKernelEffects_eq_ok h₂
  refine .inr ⟨min deposit c.getMaxDeposit, l₂, hidle, by omega, Nat.min_le_left _ _, rfl, htotal,
    hidle', ?_⟩
  have hlt : c.idleBalance + min deposit c.getMaxDeposit < 2 ^ 128 := hidle'
  simp only [increaseIdleBalance, saturatingAdd_of_lt hlt]
  rfl

/-- A request needs an idle vault; it changes the ledger, the queue and, by the accrual, the
anchor. -/
theorem redeem_eq_ok {shares : Nat} (h : c.redeem env shares receiver = .ok c') :
    c.opState = .idle ∧ ∃ ledger queue t, c' = { c with
      shares := ledger
      withdrawQueue := queue
      feeAnchor := ⟨c.getTotalAssets, t⟩ } := by
  simp only [redeem, do_ok, orPanic_eq_ok, applyAction] at h
  obtain ⟨-, -, -, -, c₁, h₁, -, r, hr, c₂, h₂, rfl⟩ := h
  obtain ⟨-, l₁, t, rfl⟩ := internalAccrueFee_eq_ok h₁
  obtain ⟨l₂, rfl⟩ := applyKernelEffects_eq_ok h₂
  obtain ⟨_, _, _, _, hidle, -⟩ := handleRequestWithdraw_eq_ok hr
  exact ⟨hidle, l₂, _, t, rfl⟩

/-- The shares are escrowed and the request is queued. -/
theorem withdraw_eq_ok {amount : Nat} (h : c.withdraw env amount receiver = .ok c') :
    c.opState = .idle ∧ ∃ ledger queue t, c' = { c with
      shares := ledger
      withdrawQueue := queue
      feeAnchor := ⟨c.getTotalAssets, t⟩ } := by
  simp only [withdraw, do_ok] at h
  obtain ⟨-, c₁, h₁, h⟩ := h
  obtain ⟨-, l₁, t₁, rfl⟩ := internalAccrueFee_eq_ok h₁
  obtain ⟨hidle, l₂, queue, t₂, rfl⟩ := redeem_eq_ok h
  exact ⟨hidle, l₂, queue, t₂, rfl⟩

/-- Requests may be dropped off the queue before one is started. -/
theorem executeWithdrawalLoop_eq_ok {rounds : Nat} (hidle : c.opState = .idle)
    (h : executeWithdrawalLoop env route rounds c = .ok (c', p)) :
    ∃ queue, c' = { c with withdrawQueue := queue } ∧ p = none ∨
      ({ c with
        withdrawQueue := queue
        nextOpId := saturatingAdd 64 c.nextOpId 1
        withdrawRoute := route } : Contract A).Continued c.nextOpId c' p ∨
      c' = { c with
        withdrawQueue := queue
        nextOpId := saturatingAdd 64 c.nextOpId 1
        withdrawRoute := [] } ∧ p = none := by
  induction rounds generalizing c with
  | zero =>
    cases h
    exact ⟨_, .inl ⟨rfl, rfl⟩⟩
  | succ rounds ih =>
    unfold executeWithdrawalLoop at h
    split at h
    · cases h
      exact ⟨_, .inl ⟨rfl, rfl⟩⟩
    split at h
    · cases h
      exact ⟨_, .inl ⟨rfl, rfl⟩⟩
    split at h
    · obtain ⟨c₁, h₁, h⟩ := bind_eq_ok.mp h
      obtain ⟨queue₁, rfl⟩ := popHead_eq_ok h₁
      obtain ⟨queue, hq⟩ := ih (c := { c with withdrawQueue := queue₁ }) hidle h
      exact ⟨queue, hq⟩
    · refine ⟨c.withdrawQueue, ?_⟩
      rcases startWithdraw_eq_ok hidle h with ⟨rfl, rfl⟩ | hgo | ⟨rfl, rfl⟩
      · exact .inl ⟨rfl, rfl⟩
      · exact .inr (.inl hgo)
      · exact .inr (.inr ⟨rfl, rfl⟩)

/-- The head of the queue starts on its route, unless nothing can be paid. -/
theorem executeWithdrawal_eq_ok (h : c.executeWithdrawal env route = .ok (c', p)) :
    c.opState = .idle ∧ ∃ ledger t queue,
      c' = { c with
        shares := ledger
        feeAnchor := ⟨c.getTotalAssets, t⟩
        withdrawQueue := queue } ∧ p = none ∨
      ({ c with
        shares := ledger
        feeAnchor := ⟨c.getTotalAssets, t⟩
        withdrawQueue := queue
        nextOpId := saturatingAdd 64 c.nextOpId 1
        withdrawRoute := route } : Contract A).Continued c.nextOpId c' p ∨
      c' = { c with
        shares := ledger
        feeAnchor := ⟨c.getTotalAssets, t⟩
        withdrawQueue := queue
        nextOpId := saturatingAdd 64 c.nextOpId 1
        withdrawRoute := [] } ∧ p = none := by
  simp only [executeWithdrawal, do_ok, ensureIdle_eq_ok] at h
  obtain ⟨hidle, c₁, h₁, h⟩ := h
  obtain ⟨-, ledger, t, rfl⟩ := internalAccrueFee_eq_ok h₁
  obtain ⟨queue, hq⟩ := executeWithdrawalLoop_eq_ok
    (c := { c with shares := ledger, feeAnchor := ⟨c.getTotalAssets, t⟩ }) hidle h
  exact ⟨hidle, ledger, t, queue, hq⟩

/-- A market off the route stops the withdrawal; a market on it is leased. -/
theorem executeMarketWithdrawal_eq_ok (h : c.executeMarketWithdrawal env opId market = .ok (c', p)) :
    ∃ w, c.opState = .withdrawing w ∧ w.opId = opId ∧
      (c.Stopped c' p ∨ ∃ i lease registry, lease.opId = some opId ∧
        c.withdrawRoute[i]? = some market ∧ registry.leasesByTarget = (c.marketExecutionLock.leasesByTarget.retain (fun old =>
          !old.isExpired env.blockTimestamp)).insert market lease ∧
        c' = { c with
          opState := .withdrawing { w with index := i }
          marketExecutionLock := registry } ∧
        p = some (.executeWithdraw01 opId market lease.fencingToken)) := by
  simp only [executeMarketWithdrawal, do_ok, ctxWithdrawing_eq_some] at h
  obtain ⟨w, ⟨hop, hid⟩, h⟩ := h
  refine ⟨w, hop, hid, ?_⟩
  split at h
  · exact .inl (stopAndExit_eq_ok h)
  · rename_i i hi
    simp only [do_ok] at h
    obtain ⟨⟨c₁, lease⟩, h₁, rfl, rfl⟩ := h
    obtain ⟨hlease, registry, rfl, hreg⟩ := lock_eq_ok h₁
    refine .inr ⟨i, lease, registry, hlease, ?_, hreg, rfl, rfl⟩
    obtain ⟨hlt, hfound, -⟩ := List.findIdx?_eq_some_iff_getElem.mp hi
    rw [List.getElem?_eq_getElem hlt]
    exact congrArg some (of_decide_eq_true hfound)

/-- An idle vault leases the market under a new operation. -/
theorem executeRebalanceWithdrawal_eq_ok (h : c.executeRebalanceWithdrawal env market = .ok (c', p)) :
    c.opState = .idle ∧ (c' = c ∧ p = none ∨
      ∃ ledger t lease registry, (c.markets.lookup market).isSome = true ∧
        lease.opId = some c.nextOpId ∧
        registry.leasesByTarget = (c.marketExecutionLock.leasesByTarget.retain (fun old =>
          !old.isExpired env.blockTimestamp)).insert market lease ∧
        c' = { c with
          shares := ledger
          feeAnchor := ⟨c.getTotalAssets, t⟩
          nextOpId := saturatingAdd 64 c.nextOpId 1
          marketExecutionLock := registry
          opState := .allocating ⟨c.nextOpId, 0, 0, []⟩ } ∧
        p = some (.rebalanceWithdraw01 c.nextOpId market lease.fencingToken
          (c.principalOf market))) := by
  simp only [executeRebalanceWithdrawal, do_ok, ensureIdle_eq_ok] at h
  obtain ⟨hidle, h⟩ := h
  refine ⟨hidle, ?_⟩
  split at h
  · cases h
    exact .inl ⟨rfl, rfl⟩
  rename_i hknown
  simp only [do_ok] at h
  obtain ⟨c₁, h₁, -, ⟨c₂, lease⟩, h₂, rfl, rfl⟩ := h
  obtain ⟨-, ledger, t, rfl⟩ := internalAccrueFee_eq_ok h₁
  obtain ⟨hlease, registry, rfl, hreg⟩ := lock_eq_ok h₂
  refine .inr ⟨ledger, t, lease, registry, ?_, hlease, hreg, rfl, rfl⟩
  simpa [Option.isSome_iff_ne_none] using hknown

/-- A refresh starts with a known market, or is over at once. -/
theorem refreshMarkets_eq_ok {markets : List Nat} (h : c.refreshMarkets env markets = .ok (c', p)) :
    c.opState = .idle ∧ (c' = c ∧ p = none ∨
      (∃ plan m, (c.markets.lookup m).isSome = true ∧
        c' = { c with
          nextOpId := saturatingAdd 64 c.nextOpId 1
          opState := .refreshing ⟨c.nextOpId, 0, plan⟩ } ∧
        p = some (.refresh01Settle m c.nextOpId 0 (c.principalOf m))) ∨
      c' = { c with
        nextOpId := saturatingAdd 64 c.nextOpId 1
        lastRefreshNs := env.blockTimestamp
        opState := .idle } ∧ p = none) := by
  simp only [refreshMarkets, do_ok, ensureIdle_eq_ok] at h
  obtain ⟨hidle, h⟩ := h
  refine ⟨hidle, ?_⟩
  split at h
  · cases h
    exact .inl ⟨rfl, rfl⟩
  simp only [do_ok, orPanic_eq_ok, applyAction, applyTransitionResult_eq_ok,
    startRefresh_eq_ok] at h
  obtain ⟨-, _, ⟨_, ⟨-, -, rfl⟩, rfl⟩, h⟩ := h
  refine .inr ?_
  rcases refreshStep_eq_ok (s := ⟨c.nextOpId, 0, _⟩) rfl h with ⟨m, hm, rfl, rfl⟩ | ⟨rfl, rfl⟩
  · exact .inl ⟨_, m, hm, rfl, rfl⟩
  · exact .inr ⟨rfl, rfl⟩

/-- A resync is an allocation of nothing with its marker set. -/
theorem resyncIdleBalance_eq_ok (h : c.resyncIdleBalance env = .ok (c', p)) :
    c.opState = .idle ∧ c.idleResyncInflightOpId = 0 ∧ ∃ ledger t,
      c' = { c with
        idleResyncLastNs := env.blockTimestamp
        shares := ledger
        feeAnchor := ⟨c.getTotalAssets, t⟩
        nextOpId := saturatingAdd 64 c.nextOpId 1
        idleResyncInflightOpId := c.nextOpId
        opState := .allocating ⟨c.nextOpId, 0, 0, []⟩ } ∧
      p = some (.resyncIdleBalance01Settle c.nextOpId env.predecessorAccountId c.idleBalance
        env.blockTimestamp) := by
  simp only [resyncIdleBalance, do_ok, ensureIdle_eq_ok] at h
  obtain ⟨hidle, hflag, -, c₁, h₁, rfl, rfl⟩ := h
  obtain ⟨-, ledger, t, rfl⟩ := internalAccrueFee_eq_ok h₁
  exact ⟨hidle, hflag, ledger, t, rfl, rfl⟩

/-- A supply sends at most what is idle and what the caps have room for. -/
theorem allocate_eq_ok {delta : AllocationDelta} (h : c.allocate env delta = .ok (c', p)) :
    c.opState = .idle ∧ ∃ ledger t,
      c' = { c with shares := ledger, feeAnchor := ⟨c.getTotalAssets, t⟩ } ∧
        (p = none ∨ ∃ m n, p = some (.rebalanceWithdraw01AfterCreateRequest m n)) ∨
      ∃ market amount sent, 0 < sent ∧ sent ≤ amount ∧ amount ≤ c.idleBalance ∧
        amount ≤ c.getMaxDeposit ∧ (c.markets.lookup market).isSome = true ∧
        c' = { c with
          shares := ledger
          feeAnchor := ⟨c.getTotalAssets, t⟩
          nextOpId := saturatingAdd 64 c.nextOpId 1
          idleBalance := c.idleBalance - min amount (2 ^ 128 - 1)
          opState := .allocating ⟨c.nextOpId, 0, min amount (2 ^ 128 - 1), [⟨market, amount⟩]⟩ } ∧
        p = some (.supply01HandleTransfer market c.nextOpId 0 sent (min amount (2 ^ 128 - 1))) := by
  simp only [allocate, do_ok, ensureIdle_eq_ok] at h
  obtain ⟨hidle, c₁, h₁, h⟩ := h
  obtain ⟨-, ledger, t, rfl⟩ := internalAccrueFee_eq_ok h₁
  refine ⟨hidle, ledger, t, ?_⟩
  split at h
  · rename_i market amount
    simp only [do_ok] at h
    obtain ⟨-, h⟩ := h
    have hclamp : ({ c with shares := ledger, feeAnchor := ⟨c.getTotalAssets, t⟩ } :
      Contract A).clampAllocationTotal amount = c.clampAllocationTotal amount := rfl
    rw [hclamp] at h
    have hidle' : c.clampAllocationTotal amount ≤ c.idleBalance := by
      unfold clampAllocationTotal
      omega
    have hroom : c.clampAllocationTotal amount ≤ c.getMaxDeposit := Nat.min_le_right _ _
    rcases startAllocation_eq_ok h with ⟨-, rfl, rfl⟩ | ⟨sent, -, hpos, hle, -, hknown, rfl, rfl⟩
    · exact .inl ⟨rfl, .inl rfl⟩
    · exact .inr ⟨market, _, sent, hpos, hle, hidle', hroom, hknown, rfl, rfl⟩
  · simp only [do_ok] at h
    obtain ⟨-, -, _, -, rfl, rfl⟩ := h
    exact .inl ⟨rfl, .inr ⟨_, _, rfl⟩⟩

/-- A change of the fees touches the fees, the ledger and the anchor; the anchor is left alone
where nothing has to be charged. -/
theorem applyFeesChange_eq_ok {fees : FeesSpec A} (h : c.applyFeesChange env fees = .ok c') :
    ∃ ledger anchor, c' = { c with fees := fees, shares := ledger, feeAnchor := anchor } ∧
      (anchor = c.feeAnchor ∨ anchor.totalAssets = c.getTotalAssets) := by
  simp only [applyFeesChange, do_ok] at h
  obtain ⟨-, -, -, c₁, h₁, rfl⟩ := h
  split at h₁
  · obtain ⟨-, ledger, t, rfl⟩ := internalAccrueFee_eq_ok h₁
    exact ⟨ledger, _, rfl, .inr rfl⟩
  · cases h₁
    exact ⟨c.shares, c.feeAnchor, rfl, .inl rfl⟩

theorem ensureMarketRecord_eq_ok {market : A} (hnum : c.MarketsNumbered)
    (h : c.ensureMarketRecord market = .ok (c', marketId)) :
    c'.MarketsNumbered ∧ ∃ next ids markets, Relisted c.markets markets ∧
      c' = { c with nextMarketId := next, marketIds := ids, markets := markets } := by
  unfold ensureMarketRecord at h
  split at h
  · cases h
    exact ⟨hnum, c.nextMarketId, c.marketIds, c.markets, .refl _, rfl⟩
  · simp only [do_ok] at h
    obtain ⟨next, ⟨-, rfl⟩, rfl, rfl⟩ := h
    have hfresh : c.markets.lookup c.nextMarketId = none := by
      by_contra hne
      have hlt := hnum c.nextMarketId (Option.isSome_iff_ne_none.mpr hne)
      omega
    refine ⟨?_, _, _, _, .insert (part_of_none hfresh), rfl⟩
    intro k hk
    by_cases hkey : k = c.nextMarketId
    · subst hkey
      exact Nat.lt_succ_self _
    · rw [lookup_insert_ne hkey] at hk
      exact Nat.lt_succ_of_lt (hnum k hk)

theorem submitCap_eq_ok {market : A} (hnum : c.MarketsNumbered)
    (h : c.submitCap market = .ok c') : c.Reconfigured c' := by
  simp only [submitCap, do_ok, ensureIdle_eq_ok] at h
  obtain ⟨⟨c₁, id⟩, h₁, hidle, rfl⟩ := h
  obtain ⟨hnum', next, ids, markets, hlist, rfl⟩ := ensureMarketRecord_eq_ok hnum h₁
  exact ⟨hidle, hnum', next, ids, markets, c.capGroups, c.supplyQueue, hlist, rfl⟩

theorem applyCapChange_eq_ok {market : A} {newCap : Nat} (hnum : c.MarketsNumbered)
    (h : c.applyCapChange market newCap = .ok c') : c.Reconfigured c' := by
  simp only [applyCapChange, do_ok, ensureIdle_eq_ok] at h
  obtain ⟨hidle, ⟨c₁, id⟩, h₁, rec, hrec, rfl⟩ := h
  obtain ⟨hnum', next, ids, markets, hlist, rfl⟩ := ensureMarketRecord_eq_ok hnum h₁
  dsimp only at hrec
  refine ⟨hidle, hnum'.insert (by rw [hrec]; rfl), next, ids, _, c.capGroups, c.supplyQueue, ?_, rfl⟩
  have hcfg := Relisted.configure hrec { rec.cfg with cap := newCap }
  exact ⟨fun k hk => hcfg.known k (hlist.known k hk), fun k => (hcfg.same k).trans (hlist.same k),
    hcfg.total.trans hlist.total⟩

/-- What a change of the configuration touches. -/
theorem applyImmediately_eq_ok {action : TimelockedAction A} (hnum : c.MarketsNumbered)
    (h : c.applyImmediately env action = .ok c') :
    (∃ fees ledger anchor, action = .feesChange fees ∧
      c' = { c with fees := fees, shares := ledger, feeAnchor := anchor } ∧
      (anchor = c.feeAnchor ∨ anchor.totalAssets = c.getTotalAssets)) ∨
    (∃ gate, c' = { c with gate := gate }) ∨ c.Reconfigured c' := by
  cases action with
  | feesChange fees =>
    obtain ⟨ledger, anchor, rfl, hanchor⟩ := applyFeesChange_eq_ok h
    exact .inl ⟨fees, ledger, anchor, rfl, rfl, hanchor⟩
  | restrictionsChange restrictions =>
    simp only [applyImmediately, applyRestrictionsChange, do_ok] at h
    obtain ⟨-, rfl⟩ := h
    exact .inr (.inl ⟨_, rfl⟩)
  | capChange market newCap => exact .inr (.inr (applyCapChange_eq_ok hnum h))
  | capGroupChange capGroup newCap =>
    simp only [applyImmediately, updateCapGroup, do_ok, ensureIdle_eq_ok] at h
    obtain ⟨hidle, rfl⟩ := h
    exact .inr (.inr ⟨hidle, hnum, c.nextMarketId, c.marketIds, c.markets, _, c.supplyQueue, .refl _,
      rfl⟩)
  | capGroupRelativeCapChange capGroup newRelativeCap =>
    simp only [applyImmediately, updateCapGroup, do_ok, ensureIdle_eq_ok] at h
    obtain ⟨hidle, -, rfl⟩ := h
    exact .inr (.inr ⟨hidle, hnum, c.nextMarketId, c.marketIds, c.markets, _, c.supplyQueue, .refl _,
      rfl⟩)
  | capGroupMembership market capGroup => exact .inr (.inr (applyCapGroupMembership_eq_ok hnum h))

end Contract

end Templar.Near
