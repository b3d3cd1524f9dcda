import Templar.Near.System

/-!
# The leases of the NEAR vault

Every lease there is belongs to the operation in progress, and none outlives it. That is the
invariant `Guards`, which speaks of the operation, the leases and the marker of a resync alone.
`Sound` adds the numbering of the markets and the shape of a supply's plan, and `Kept` is what
one call or one callback keeps of it.
-/

namespace Templar.Near

open Checked Vault Curator Callback

variable {A : Type} {c' : Contract A} {p : Option (Callback A)}

/-- `flag` is the operation that holds the marker of a resync, or zero. -/
structure Guards (op : OpState A) (leases : Table Nat MarketLease) (flag : Nat) : Prop where
  owned : ∀ m lease, leases.lookup m = some lease → ∃ k, op.opId = some k ∧ lease.opId = some k
  /-- A rebalance leases one market. -/
  single : ∀ s, op = .allocating s → ∀ m n lease other, leases.lookup m = some lease →
    leases.lookup n = some other → m = n
  refreshing : ∀ s, op = .refreshing s → ∀ m, leases.lookup m = none
  resync : flag ≠ 0 → op = .allocating ⟨flag, 0, 0, []⟩ ∧ ∀ m, leases.lookup m = none
  wanting : ∀ w, op = .withdrawing w → 0 < w.remaining

namespace Guards

variable {op op' : OpState A} {leases leases' : Table Nat MarketLease} {flag : Nat}

/-- Without leases and without a resync only a withdrawal has something to show. -/
theorem of_none (hnone : ∀ m, leases.lookup m = none) (hflag : flag = 0)
    (hwant : ∀ w, op = .withdrawing w → 0 < w.remaining) : Guards op leases flag where
  owned m lease h := by
    rw [hnone m] at h
    cases h
  single _ _ m n lease _ hm _ := by
    rw [hnone m] at hm
    cases hm
  refreshing _ _ := hnone
  resync h := absurd hflag h
  wanting := hwant

theorem idle (hnone : ∀ m, leases.lookup m = none) (hflag : flag = 0) :
    Guards (.idle : OpState A) leases flag := of_none hnone hflag (by simp)

/-- At rest nothing is leased. -/
theorem leases_of_idle (h : Guards op leases flag) (hop : op = .idle) (m : Nat) :
    leases.lookup m = none := by
  cases hm : leases.lookup m with
  | none => rfl
  | some lease =>
    obtain ⟨k, hk, -⟩ := h.owned m lease hm
    rw [hop] at hk
    cases hk

theorem flag_eq_zero (h : Guards op leases flag) (hop : ∀ s, op ≠ .allocating s) : flag = 0 := by
  by_contra hflag
  exact hop _ (h.resync hflag).1

/-- An operation goes on under its id, with leases of its own; neither a rebalance nor a refresh
begins. -/
theorem go_on {k : Nat} (hid : op'.opId = some k) (hflag : flag = 0)
    (hown : ∀ m lease, leases'.lookup m = some lease → lease.opId = some k)
    (halloc : ∀ s, op' ≠ .allocating s) (hrefresh : ∀ s, op' ≠ .refreshing s)
    (hwant : ∀ w, op' = .withdrawing w → 0 < w.remaining) : Guards op' leases' flag where
  owned m lease hm := ⟨k, hid, hown m lease hm⟩
  single s hs := absurd hs (halloc s)
  refreshing s hs := absurd hs (hrefresh s)
  resync h := absurd hflag h
  wanting := hwant

end Guards

namespace Contract

variable {c : Contract A} {env : Env A} {opId market : Nat}

abbrev Guarded (c : Contract A) : Prop :=
  Guards c.opState c.marketExecutionLock.leasesByTarget c.idleResyncInflightOpId

theorem lookup_clear (r : MarketLeaseRegistry) (m : Nat) : r.clear.leasesByTarget.lookup m = none := rfl

theorem Guarded.stopped (hg : c.Guarded) (h : c.Stopped c' p) : c'.Guarded := by
  cases h with
  | idle _ => exact hg
  | allocating _ => exact .idle (lookup_clear _) rfl
  | withdrawing ledger queue hop =>
    exact .idle (lookup_clear _) (hg.flag_eq_zero (by simp [hop]))
  | refreshing hop => exact .idle (hg.refreshing _ hop) (hg.flag_eq_zero (by simp [hop]))
  | payout _ => exact hg

/-- The operation that a withdrawal or a payout goes on as, with leases of its own. -/
theorem Continued.guarded (h : c.Continued opId c' p) (hflag : c.idleResyncInflightOpId = 0)
    (hown : ∀ m lease, c.marketExecutionLock.leasesByTarget.lookup m = some lease →
      lease.opId = some opId) : c'.Guarded := by
  cases h with
  | waiting w hid hrem =>
    refine .go_on (congrArg some hid) hflag hown (by simp) (by simp) ?_
    intro w' hw
    cases hw
    exact hrem
  | paying s hid _ => exact .go_on (congrArg some hid) hflag hown (by simp) (by simp) (by simp)

/-- A supply has one market to go to. -/
structure Sound (c : Contract A) : Prop where
  guarded : c.Guarded
  numbered : c.MarketsNumbered
  plan : ∀ s, c.opState = .allocating s → s.plan = [] ∨ s.index = 0 ∧ ∃ e, s.plan = [e]

end Contract

/-- What a callback on its way says about the contract that scheduled it. -/
def Callback.Sent (c : Contract A) : Callback A → Prop
  | .supply01HandleTransfer marketId _ marketIndex _ _ =>
    marketIndex = 0 ∧ (c.markets.lookup marketId).isSome = true
  | .supply02PositionRead marketId _ marketIndex _ _ _ _ =>
    marketIndex = 0 ∧ (c.markets.lookup marketId).isSome = true
  | .withdraw01HandleCreateRequest _ _ _ => False
  | _ => True

namespace Contract

variable {c c₁ : Contract A} {env : Env A}
  {opId market token marketId marketIndex remaining before beforeBalance beforePrincipal reported : Nat}
  {position : Option (Option Nat)} {balance : Option Nat}

/-- What a call or callback keeps: the contract is sound, no market is lost, and the promise it
makes fits. -/
structure Kept (c c' : Contract A) (p : Option (Callback A)) : Prop where
  sound : c'.Sound
  known : ∀ k, (c.markets.lookup k).isSome = true → (c'.markets.lookup k).isSome = true
  sent : ∀ callback ∈ p, callback.Sent c'

/-- Markets are as before, and the operation in progress guards its leases. -/
theorem Kept.frame (hs : c.Sound)
    (hmarkets : ∀ k, (c'.markets.lookup k).isSome = (c.markets.lookup k).isSome)
    (hnext : c'.nextMarketId = c.nextMarketId) (hg : c'.Guarded)
    (hplan : ∀ s, c'.opState = .allocating s → s.plan = [] ∨ s.index = 0 ∧ ∃ e, s.plan = [e])
    (hp : ∀ callback ∈ p, callback.Sent c') : c.Kept c' p where
  sound := by
    refine ⟨hg, ?_, hplan⟩
    intro k hk
    rw [hnext]
    exact hs.numbered k (by rw [← hmarkets k]; exact hk)
  known k hk := by
    rw [hmarkets k]
    exact hk
  sent := hp

theorem Kept.same (hs : c.Sound) (hp : ∀ callback ∈ p, callback.Sent c) : c.Kept c p :=
  .frame hs (fun _ => rfl) rfl hs.guarded hs.plan hp

theorem Kept.quiet (hs : c.Sound) : c.Kept c none := .same hs (by simp)

/-- Stopping an operation leaves no lease without its owner. -/
theorem Kept.stopped (hs : c.Sound) (h : c.Stopped c' p) : c.Kept c' p := by
  have hg := hs.guarded.stopped h
  cases h with
  | idle _ => exact .quiet hs
  | allocating _ => exact .frame hs (fun _ => rfl) rfl hg (by simp [stopAndExitAllocating]) (by simp)
  | withdrawing _ _ _ | refreshing _ => exact .frame hs (fun _ => rfl) rfl hg (by simp) (by simp)
  | payout _ => exact .same hs (by simp [Callback.Sent])

/-- A withdrawal that goes on from books `c₁` with the markets of `c`. -/
theorem Kept.continued (h : c₁.Continued opId c' p) (hs : c.Sound)
    (hmarkets : ∀ k, (c₁.markets.lookup k).isSome = (c.markets.lookup k).isSome)
    (hnext : c₁.nextMarketId = c.nextMarketId) (hflag : c₁.idleResyncInflightOpId = 0)
    (hown : ∀ m lease, c₁.marketExecutionLock.leasesByTarget.lookup m = some lease →
      lease.opId = some opId) : c.Kept c' p := by
  have hg := h.guarded hflag hown
  cases h with
  | waiting w hid hrem => exact .frame hs hmarkets hnext hg (by simp) (by simp)
  | paying s hid hle => exact .frame hs hmarkets hnext hg (by simp) (by simp [Callback.Sent])

/-- A rebalance that ends had the only lease. -/
theorem Kept.endRebalance (h : c₁.endRebalance market opId token = .ok (c', p)) (hs : c.Sound)
    (hbooks : ∀ k, (c₁.markets.lookup k).isSome = (c.markets.lookup k).isSome)
    (hnext : c₁.nextMarketId = c.nextMarketId) (hg : c₁.Guarded)
    (hlease : c₁.hasCurrentLease env market opId token = true) {s : AllocatingState}
    (hop : c₁.opState = .allocating s) : c.Kept c' p := by
  obtain ⟨rfl, rfl⟩ := endRebalance_eq_ok h
  obtain ⟨lease, hlookup, -⟩ := hasCurrentLease_eq_true hlease
  refine .frame hs hbooks hnext (.idle ?_ ?_) (by simp) (by simp)
  · intro m
    cases hm : (c₁.marketExecutionLock.leasesByTarget.erase market).lookup m with
    | none => rfl
    | some other =>
      obtain ⟨hne, hother⟩ := Table.lookup_of_erase hm
      exact absurd (hg.single s hop m market other lease hother hlookup) hne
  · by_contra hflag
    rw [(hg.resync hflag).2 market] at hlookup
    cases hlookup

theorem Kept.payoutEnded (hs : c.Sound) {s : PayoutState A} (hop : c.opState = .payout s)
    (idle : Nat) (ledger : Balances A) (queue : WithdrawQueue A) :
    c.Kept (c.payoutEnded idle ledger queue) none :=
  .frame hs (fun _ => rfl) rfl (.idle (lookup_clear _) (hs.guarded.flag_eq_zero (by simp [hop])))
    (by simp [Contract.payoutEnded]) (by simp)

theorem Kept.refresh01 {index : Nat} (hs : c.Sound)
    (h : c.refresh01Settle env position marketId opId index = .ok (c', p)) : c.Kept c' p := by
  rcases refresh01Settle_eq_ok h with ⟨rfl, rfl⟩ | ⟨s, hop, hid, hend⟩
  · exact .quiet hs
  have hnone := hs.guarded.refreshing s hop
  have hflag : c.idleResyncInflightOpId = 0 := hs.guarded.flag_eq_zero (by simp [hop])
  rcases hend with ⟨rfl, rfl⟩ | ⟨markets, groups, hbooks, hend⟩
  · exact .frame hs (fun _ => rfl) rfl (.idle hnone hflag) (by simp) (by simp)
  have hknown : ∀ k, (markets.lookup k).isSome = (c.markets.lookup k).isSome := by
    rcases hbooks with ⟨rfl, -⟩ | ⟨total, -, hrw⟩
    · exact fun _ => rfl
    · exact hrw.known
  rcases hend with ⟨t, rfl, rfl⟩ | ⟨m, next, hnext, hm, rfl, rfl⟩
  · exact .frame hs hknown rfl (.idle hnone hflag) (by simp) (by simp)
  · exact .frame hs hknown rfl (.of_none hnone hflag (by simp)) (by simp) (by simp [Callback.Sent])

/-- New leases are those of the operation that begins or goes on. -/
theorem lookup_leased {leases registry : Table Nat MarketLease} {now : Nat} {lease : MarketLease}
    (hreg : registry = (leases.retain (fun old => !old.isExpired now)).insert market lease) {m : Nat}
    {l : MarketLease} (h : registry.lookup m = some l) : m = market ∧ l = lease ∨ leases.lookup m = some l := by
  subst hreg
  by_cases hm : m = market
  · subst hm
    rw [AList.lookup_insert] at h
    cases h
    exact .inl ⟨rfl, rfl⟩
  · rw [AList.lookup_insert_ne hm] at h
    exact .inr (Table.lookup_retain_eq_some.mp h).1

section

variable (hs : c.Sound)
include hs

theorem Kept.reconfigured (h : c.Reconfigured c') : c.Kept c' none := by
  obtain ⟨hidle, hnum, next, ids, markets, groups, queue, hlist, rfl⟩ := h
  refine ⟨⟨hs.guarded, hnum, ?_⟩, hlist.known, by simp⟩
  simp [hidle]

theorem Kept.reads {α : Type} {r : Option α} {acts : WithdrawingState A → α → Prop}
    (h : c.Reads opId market r c' p acts)
    (hacts : ∀ w x, c.opState = .withdrawing w → w.opId = opId → acts w x → c.Kept c' p) :
    c.Kept c' p := by
  rcases h with ⟨rfl, rfl⟩ | ⟨hstop, -⟩ | ⟨w, x, hop, hid, -, -, hx⟩
  · exact .quiet hs
  · exact .stopped hs hstop
  · exact hacts w x hop hid hx

theorem Kept.rebalances {α : Type} {r : Option α} {acts : α → Prop}
    (h : c.Rebalances env opId market token r c' p acts)
    (hacts : ∀ s x, c.opState = .allocating s → c.hasCurrentLease env market opId token = true →
      acts x → c.Kept c' p) : c.Kept c' p := by
  rcases h with ⟨rfl, rfl⟩ | ⟨hstop, -⟩ | ⟨s, hop, hlease, ⟨-, hend⟩ | ⟨x, -, hx⟩⟩
  · exact .quiet hs
  · exact .stopped hs hstop
  · exact .endRebalance hend hs (fun _ => rfl) rfl hs.guarded hlease hop
  · exact hacts s x hop hlease hx

variable [DecidableEq A]

theorem Kept.supply01 {accepted : Option Nat} {attempted : Nat}
    (hindex : marketIndex = 0) (hknown : (c.markets.lookup marketId).isSome = true)
    (h : c.supply01HandleTransfer env accepted marketId opId marketIndex attempted remaining =
      .ok (c', p)) : c.Kept c' p := by
  rcases supply01HandleTransfer_eq_ok h with ⟨hstop, -⟩ | ⟨s, a, hop, hid, -, rfl, rfl⟩
  · exact .stopped hs hstop
  · exact .same hs (by simpa [Callback.Sent] using ⟨hindex, hknown⟩)

theorem Kept.supply02
    (h : c.supply02PositionRead env position marketId opId marketIndex before remaining = .ok (c', p)) :
    c.Kept c' p := by
  rcases supply02PositionRead_eq_ok hs.plan h with
    ⟨hstop, -⟩ | ⟨s, total, markets, capGroups, -, -, hrw, -, rfl, rfl⟩
  · exact .stopped hs hstop
  · exact .frame hs hrw.known rfl (.idle (lookup_clear _) rfl) (by simp [stopAndExitAllocating]) (by simp)

/-- The last callback of a market withdrawal gives its lease back. -/
theorem Kept.executeWithdraw03
    (h : c.executeWithdraw03 env balance opId market token beforePrincipal reported beforeBalance =
      .ok (c', p)) : c.Kept c' p := by
  refine .reads hs (executeWithdraw03_eq_ok hs.guarded.wanting h) ?_
  rintro w after hop hid ⟨markets, groups, idle, hrw, -, hgo⟩
  refine .continued hgo hs hrw.known rfl (hs.guarded.flag_eq_zero (by simp [hop])) ?_
  intro m lease hm
  obtain ⟨k, hk, hlease⟩ := hs.guarded.owned m lease (Table.lookup_of_erase hm).2
  rw [hop] at hk
  rw [hlease, ← hk, ← hid]
  rfl

theorem Kept.resync01 {beforeIdle : Nat}
    (h : c.resyncIdleBalance01Settle balance opId beforeIdle = (c', p)) : c.Kept c' p := by
  rcases c.resyncIdleBalance01Settle_cases balance opId beforeIdle with
    heq | ⟨hflag, hne, heq⟩ | ⟨actual, idle, hflag, hne, -, -, heq⟩
  · cases heq.symm.trans h
    exact .quiet hs
  · cases heq.symm.trans h
    exact .frame hs (fun _ => rfl) rfl (.idle (hs.guarded.resync (by omega)).2 rfl) (by simp) (by simp)
  · cases heq.symm.trans h
    exact .frame hs (fun _ => rfl) rfl (.idle (hs.guarded.resync (by omega)).2 rfl) (by simp) (by simp)

/-- No callback breaks this. -/
theorem Kept.callback {callback : Callback A} {reply : Reply}
    (hsent : callback.Sent c) (h : callback.run env c reply = .ok (c', p)) : c.Kept c' p := by
  cases callback with
  | supply01HandleTransfer marketId opId marketIndex attempted remaining =>
    obtain ⟨accepted, -, h⟩ := bind_eq_ok.mp h
    exact .supply01 hs hsent.1 hsent.2 h
  | supply02PositionRead marketId opId marketIndex before attempted accepted remaining =>
    obtain ⟨position, -, h⟩ := bind_eq_ok.mp h
    exact .supply02 hs h
  | withdraw01HandleCreateRequest opId market need => exact hsent.elim
  | rebalanceWithdraw01AfterCreateRequest marketId amount =>
    simp only [run, rebalanceWithdraw01AfterCreateRequest, do_ok] at h
    obtain ⟨_, -, -, rfl, rfl⟩ := h
    exact .quiet hs
  | executeWithdraw01 opId market token =>
    obtain ⟨balance, -, h⟩ := bind_eq_ok.mp h
    refine .reads hs (executeWithdraw01_eq_ok h) ?_
    rintro w b - - ⟨rfl, rfl⟩
    exact .same hs (by simp [Callback.Sent])
  | executeWithdraw02 opId market token principal beforeBalance =>
    obtain ⟨position, -, h⟩ := bind_eq_ok.mp h
    refine .reads hs (executeWithdraw02_eq_ok h) ?_
    rintro w total - - ⟨rfl, rfl⟩
    exact .same hs (by simp [Callback.Sent])
  | executeWithdraw03 opId market token beforePrincipal reported beforeBalance =>
    obtain ⟨balance, -, h⟩ := bind_eq_ok.mp h
    exact .executeWithdraw03 hs h
  | rebalanceWithdraw01 opId market token beforePrincipal =>
    obtain ⟨balance, -, h⟩ := bind_eq_ok.mp h
    refine .rebalances hs (rebalanceWithdraw01_eq_ok h) ?_
    rintro s b - - ⟨rfl, rfl⟩
    exact .same hs (by simp [Callback.Sent])
  | rebalanceWithdraw02 opId market token beforePrincipal beforeBalance =>
    obtain ⟨position, -, h⟩ := bind_eq_ok.mp h
    refine .rebalances hs (rebalanceWithdraw02_eq_ok h) ?_
    rintro s total - - ⟨rfl, rfl⟩
    exact .same hs (by simp [Callback.Sent])
  | rebalanceWithdraw03 opId market token beforePrincipal reported beforeBalance =>
    obtain ⟨balance, -, h⟩ := bind_eq_ok.mp h
    refine .rebalances hs (rebalanceWithdraw03_eq_ok h) ?_
    intro s after hop hlease hend
    obtain ⟨markets, groups, idle, hset, hrw, -⟩ :=
      c.settleMarketPrincipalAndIdle_eq market beforePrincipal reported after beforeBalance
    rw [hset] at hend
    exact .endRebalance hend hs hrw.known rfl hs.guarded hlease hop
  | stopAndExitPayout01Reconcile opId =>
    obtain ⟨balance, -, h⟩ := bind_eq_ok.mp h
    rcases stopAndExitPayout01Reconcile_eq_ok h with
      ⟨rfl, rfl⟩ | ⟨s, idle, ledger, queue, hop, -, rfl, rfl⟩
    · exact .quiet hs
    · exact .payoutEnded hs hop idle ledger queue
  | payment01ReconcileIdleOrRefund opId receiver amount =>
    obtain ⟨succeeded, -, h⟩ := bind_eq_ok.mp h
    rcases payment01ReconcileIdleOrRefund_eq_ok h with
      ⟨rfl, rfl⟩ | ⟨s, ledger, queue, hop, -, rfl, rfl⟩
    · exact .quiet hs
    · exact .payoutEnded hs hop _ ledger queue
  | refresh01Settle marketId opId index before =>
    obtain ⟨position, -, h⟩ := bind_eq_ok.mp h
    exact .refresh01 hs h
  | resyncIdleBalance01Settle opId caller beforeIdle startedAtNs =>
    simp only [run, do_ok] at h
    obtain ⟨balance, -, h⟩ := h
    exact .resync01 hs h.symm

theorem Kept.executeWithdrawal {route : List Nat}
    (h : c.executeWithdrawal env route = .ok (c', p)) : c.Kept c' p := by
  obtain ⟨hidle, ledger, t, queue, ⟨rfl, rfl⟩ | hgo | ⟨rfl, rfl⟩⟩ := executeWithdrawal_eq_ok h
  · exact .frame hs (fun _ => rfl) rfl hs.guarded hs.plan (by simp)
  · refine .continued hgo hs (fun _ => rfl) rfl (hs.guarded.flag_eq_zero (by simp [hidle])) ?_
    intro m lease hm
    rw [hs.guarded.leases_of_idle hidle] at hm
    cases hm
  · exact .frame hs (fun _ => rfl) rfl hs.guarded hs.plan (by simp)

/-- A withdrawal leases the market it calls. -/
theorem Kept.executeMarketWithdrawal
    (h : c.executeMarketWithdrawal env opId market = .ok (c', p)) : c.Kept c' p := by
  obtain ⟨w, hop, hid, hstop | ⟨i, lease, registry, hlease, -, hreg, rfl, rfl⟩⟩ :=
    executeMarketWithdrawal_eq_ok h
  · exact .stopped hs hstop
  · refine .frame hs (fun _ => rfl) rfl (.go_on (congrArg some hid)
      (hs.guarded.flag_eq_zero (by simp [hop])) ?_ (by simp) (by simp) ?_) (by simp)
      (by simp [Callback.Sent])
    · intro m l hm
      rcases lookup_leased hreg hm with ⟨-, rfl⟩ | hold
      · exact hlease
      · obtain ⟨k, hk, hl⟩ := hs.guarded.owned m l hold
        rw [hop] at hk
        rw [hl, ← hk, ← hid]
        rfl
    · intro w' hw
      cases hw
      exact hs.guarded.wanting w hop

/-- So does a rebalance. -/
theorem Kept.executeRebalanceWithdrawal
    (h : c.executeRebalanceWithdrawal env market = .ok (c', p)) : c.Kept c' p := by
  obtain ⟨hidle, ⟨rfl, rfl⟩ | ⟨ledger, t, lease, registry, -, hlease, hreg, rfl, rfl⟩⟩ :=
    executeRebalanceWithdrawal_eq_ok h
  · exact .quiet hs
  have honly : ∀ m l, registry.leasesByTarget.lookup m = some l → m = market ∧ l = lease := by
    intro m l hm
    rcases lookup_leased hreg hm with hnew | hold
    · exact hnew
    · rw [hs.guarded.leases_of_idle hidle] at hold
      cases hold
  refine .frame hs (fun _ => rfl) rfl ⟨?_, ?_, by simp, ?_, by simp⟩ ?_ (by simp [Callback.Sent])
  · intro m l hm
    obtain ⟨-, rfl⟩ := honly m l hm
    exact ⟨c.nextOpId, rfl, hlease⟩
  · intro s _ m n l l' hm hn
    rw [(honly m l hm).1, (honly n l' hn).1]
  · exact fun hne => absurd (hs.guarded.flag_eq_zero (by simp [hidle])) hne
  · intro s hop
    cases hop
    exact .inl rfl

theorem Kept.refreshMarkets {markets : List Nat}
    (h : c.refreshMarkets env markets = .ok (c', p)) : c.Kept c' p := by
  obtain ⟨hidle, ⟨rfl, rfl⟩ | ⟨plan, m, hm, rfl, rfl⟩ | ⟨rfl, rfl⟩⟩ := refreshMarkets_eq_ok h
  · exact .quiet hs
  · exact .frame hs (fun _ => rfl) rfl (.of_none (hs.guarded.leases_of_idle hidle)
      (hs.guarded.flag_eq_zero (by simp [hidle])) (by simp)) (by simp) (by simp [Callback.Sent])
  · exact .frame hs (fun _ => rfl) rfl (.idle (hs.guarded.leases_of_idle hidle)
      (hs.guarded.flag_eq_zero (by simp [hidle]))) (by simp) (by simp)

theorem Kept.resyncIdleBalance (h : c.resyncIdleBalance env = .ok (c', p)) :
    c.Kept c' p := by
  obtain ⟨hidle, -, ledger, t, rfl, rfl⟩ := resyncIdleBalance_eq_ok h
  have hnone := hs.guarded.leases_of_idle hidle
  refine .frame hs (fun _ => rfl) rfl ⟨?_, ?_, by simp, fun _ => ⟨rfl, hnone⟩, by simp⟩ ?_
    (by simp [Callback.Sent])
  · intro m l hm
    rw [hnone] at hm
    cases hm
  · intro s _ m n l l' hm
    rw [hnone] at hm
    cases hm
  · intro s hop
    cases hop
    exact .inl rfl

/-- A supply is planned for one known market, and leases none. -/
theorem Kept.allocate {delta : AllocationDelta}
    (h : c.allocate env delta = .ok (c', p)) : c.Kept c' p := by
  obtain ⟨hidle, ledger, t, ⟨rfl, hp⟩ | ⟨market, amount, sent, -, -, -, -, hknown, rfl, rfl⟩⟩ :=
    allocate_eq_ok h
  · refine .frame hs (fun _ => rfl) rfl hs.guarded hs.plan ?_
    rcases hp with rfl | ⟨m, n, rfl⟩
    · simp
    · simp [Callback.Sent]
  · refine .frame hs (fun _ => rfl) rfl (.of_none (hs.guarded.leases_of_idle hidle)
      (hs.guarded.flag_eq_zero (by simp [hidle])) (by simp)) ?_ (by simpa [Callback.Sent] using hknown)
    intro s hop
    cases hop
    exact .inr ⟨rfl, _, rfl⟩

end

end Contract

theorem settled_eq_ok {x : Outcome (Contract A)} :
    settled x = .ok (c', p) ↔ x = .ok c' ∧ p = none := by
  simp only [settled, do_ok]
  constructor
  · rintro ⟨c, h, rfl, rfl⟩
    exact ⟨h, rfl⟩
  · rintro ⟨h, rfl⟩
    exact ⟨c', h, rfl, rfl⟩

namespace Contract

variable {c : Contract A} {env : Env A} [DecidableEq A]

/-- No call breaks this. -/
theorem Kept.call {call : Call A} (hs : c.Sound) (h : call.run env c = .ok (c', p)) :
    c.Kept c' p := by
  cases call with
  | ftTransfer receiver amount =>
    obtain ⟨hrun, rfl⟩ := settled_eq_ok.mp h
    obtain ⟨ledger, rfl⟩ := transfer_eq_ok hrun
    exact .frame hs (fun _ => rfl) rfl hs.guarded hs.plan (by simp)
  | ftOnTransfer sender amount =>
    simp only [Call.run, ftOnTransfer, do_ok] at h
    obtain ⟨⟨c₁, refund⟩, ⟨-, h⟩, rfl, rfl⟩ := h
    obtain ⟨-, -, ⟨-, -, ledger, t, rfl⟩ | ⟨accepted, ledger, -, -, -, -, -, -, rfl⟩⟩ :=
      executeSupply_eq_ok h
    · exact .frame hs (fun _ => rfl) rfl hs.guarded hs.plan (by simp)
    · exact .frame hs (fun _ => rfl) rfl hs.guarded hs.plan (by simp)
  | withdraw amount receiver =>
    obtain ⟨hrun, rfl⟩ := settled_eq_ok.mp h
    obtain ⟨-, ledger, queue, t, rfl⟩ := withdraw_eq_ok hrun
    exact .frame hs (fun _ => rfl) rfl hs.guarded hs.plan (by simp)
  | redeem shares receiver =>
    obtain ⟨hrun, rfl⟩ := settled_eq_ok.mp h
    obtain ⟨-, ledger, queue, t, rfl⟩ := redeem_eq_ok hrun
    exact .frame hs (fun _ => rfl) rfl hs.guarded hs.plan (by simp)
  | executeWithdrawal route => exact .executeWithdrawal hs h
  | executeMarketWithdrawal opId market => exact .executeMarketWithdrawal hs h
  | executeRebalanceWithdrawal market => exact .executeRebalanceWithdrawal hs h
  | refreshMarkets markets => exact .refreshMarkets hs h
  | resyncIdleBalance => exact .resyncIdleBalance hs h
  | unbrick =>
    simp only [Call.run, unbrick_eq] at h
    exact .stopped hs (stopAndExit_eq_ok h)
  | allocate delta => exact .allocate hs h
  | setSupplyQueue markets =>
    obtain ⟨hrun, rfl⟩ := settled_eq_ok.mp h
    exact .reconfigured hs (setSupplyQueue_eq_ok hs.numbered hrun)
  | submitCap market =>
    obtain ⟨hrun, rfl⟩ := settled_eq_ok.mp h
    exact .reconfigured hs (submitCap_eq_ok hs.numbered hrun)
  | applyChange action =>
    obtain ⟨hrun, rfl⟩ := settled_eq_ok.mp h
    rcases applyImmediately_eq_ok hs.numbered hrun with
      ⟨fees, ledger, anchor, -, rfl, -⟩ | ⟨gate, rfl⟩ | hconf
    · exact .frame hs (fun _ => rfl) rfl hs.guarded hs.plan (by simp)
    · exact .frame hs (fun _ => rfl) rfl hs.guarded hs.plan (by simp)
    · exact .reconfigured hs hconf

omit [DecidableEq A] in
theorem new_sound {configuration : VaultConfiguration A} (h : new env configuration = .ok c) :
    c.Sound := by
  simp only [new, do_ok] at h
  obtain ⟨-, -, rfl⟩ := h
  refine ⟨.idle (fun _ => rfl) rfl, ?_, by simp⟩
  intro k hk
  cases hk

end Contract

theorem Callback.Sent.kept {c : Contract A} (hk : c.Kept c' p) {callback : Callback A}
    (h : callback.Sent c) : callback.Sent c' := by
  cases callback with
  | supply01HandleTransfer | supply02PositionRead => exact ⟨h.1, hk.known _ h.2⟩
  | withdraw01HandleCreateRequest => exact h
  | _ => exact trivial

variable [DecidableEq A]

/-- In every run the contract is sound and the promises on their way fit it. -/
theorem System.Reachable.sound {s : System A} (h : s.Reachable) :
    s.contract.Sound ∧ ∀ callback ∈ s.pending, callback.Sent s.contract := by
  refine h.induct (fun _ _ _ => Contract.new_sound) ?_ ?_
  · intro env call c c' p hs hrun
    have hk := Contract.Kept.call hs hrun
    exact ⟨hk.sound, hk.sent, fun _ hsent => hsent.kept hk⟩
  · intro env callback reply c c' p hs hsent hrun
    have hk := Contract.Kept.callback hs hsent hrun
    exact ⟨hk.sound, hk.sent, fun _ hsent => hsent.kept hk⟩

/-- However calls and callbacks interleave, each lease is held by the operation in progress. An
allocation holds at most one, a refresh, a resync and a vault at rest hold none, and the marker of a
resync stands for an allocation of nothing. -/
theorem leases_follow_operation (s : System A) (h : s.Reachable) :
    let c := s.contract
    (∀ m lease, c.marketExecutionLock.get m = some lease →
        ∃ k, c.opState.opId = some k ∧ lease.opId = some k) ∧
      (∀ a, c.opState = .allocating a → ∀ m n, (c.marketExecutionLock.get m).isSome →
        (c.marketExecutionLock.get n).isSome → m = n) ∧
      (c.opState = .idle ∨ (∃ f, c.opState = .refreshing f) ∨ c.idleResyncInflightOpId ≠ 0 →
        ∀ m, c.marketExecutionLock.get m = none) ∧
      (c.idleResyncInflightOpId ≠ 0 →
        c.opState = .allocating ⟨c.idleResyncInflightOpId, 0, 0, []⟩) := by
  intro c
  have hg := h.sound.1.guarded
  refine ⟨hg.owned, ?_, ?_, fun hflag => (hg.resync hflag).1⟩
  · intro a ha m n hm hn
    obtain ⟨lease, hm⟩ := Option.isSome_iff_exists.mp hm
    obtain ⟨other, hn⟩ := Option.isSome_iff_exists.mp hn
    exact hg.single a ha m n lease other hm hn
  · rintro (hidle | ⟨f, hf⟩ | hflag)
    · exact hg.leases_of_idle hidle
    · exact hg.refreshing f hf
    · exact (hg.resync hflag).2

/-- A market is asked for what a withdrawal lacks. -/
theorem leases_follow_operation_withdrawal : ∃ (s : System Nat) (lease : MarketLease) (k : Nat),
    s.Reachable ∧ s.contract.marketExecutionLock.get 0 = some lease ∧
      s.contract.opState.opId = some k ∧ lease.opId = some k := by
  obtain ⟨s, hs, hP⟩ : ∃ s : System Nat, s.Reachable ∧
      (s.contract.marketExecutionLock.get 0).isSome :=
    System.exists_reachable (sampleEnv 8 0) sampleConfiguration
      (sampleSupplied ++ [.call (sampleEnv 1 4) (.redeem 50 1),
        .call (sampleEnv 8 5) (.executeWithdrawal [0]),
        .call (sampleEnv 8 6) (.executeMarketWithdrawal 2 0)]) (by decide +kernel) (by decide)
  obtain ⟨lease, hlease⟩ := Option.isSome_iff_exists.mp hP
  obtain ⟨k, hk⟩ := (leases_follow_operation s hs).1 0 lease hlease
  exact ⟨s, lease, k, hs, hlease, hk⟩

end Templar.Near
