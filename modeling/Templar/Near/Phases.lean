import Templar.Near.Backing

/-!
# The steps of the NEAR vault through the phases

The steps of the contract itself, followed through the phases of an operation. A callback takes
the phase it was waiting in to the next one, a call begins an operation in an idle vault or goes
on with a withdrawal that waits, and what remains only carries the phase along.
-/

namespace Templar.Near

open Checked Vault Curator Contract MarketRecord Callback Table

variable {A : Type}

namespace Reply

variable {reply : Reply}

theorem asAmount_eq_ok {o : Option Nat} (h : reply.asAmount = .ok o) :
    (o = none → Progress.answered reply = .answered .failed) ∧
      ∀ n, o = some n → Progress.answered reply = .answered (.amount n) := by
  cases reply with
  | failed | amount => cases h; simp
  | _ => cases h

theorem asPosition_eq_ok {o : Option (Option Nat)} (h : reply.asPosition = .ok o) :
    (o = none → Progress.answered reply = .answered .failed) ∧
      ∀ t, o = some t → Progress.answered reply = .answered (.position t) := by
  cases reply with
  | failed | position => cases h; simp
  | _ => cases h

end Reply

/-- A write of a principal changes that of its market at most. -/
theorem Contract.Rewrites.part {markets markets' : Table Nat (MarketRecord A)} {m n : Nat}
    (h : Contract.Rewrites markets markets' m n) (k : Nat) :
    part principal markets' k = part principal markets k ∨
      k = m ∧ part principal markets' k = n := by
  by_cases hk : k = m
  · subst hk
    cases hlookup : markets.lookup k with
    | none => exact .inl (by rw [h.unknown hlookup])
    | some rec => exact .inr ⟨rfl, h.same (by rw [hlookup]; rfl)⟩
  · exact .inl (h.other k hk)

namespace Scene

variable {x : Prop} {s : Scene A} {m n r b : Nat} {markets : Table Nat (MarketRecord A)}
  {op : AllocatingState}

/-- The principal of a market is set to the position that was read. -/
theorem Settled.rewrite {t : Nat} (h : s.Settled x)
    (hrw : Contract.Rewrites s.contract.markets markets m t) (ht : s.Stake x m t 0) (k : Nat) :
    s.Stake x k (part principal markets k) 0 := by
  rcases hrw.part k with hsame | ⟨rfl, hnew⟩
  · rw [hsame]
    exact h.stakes k
  · rw [hnew]
    exact ht

theorem Supplying.stop (h : s.Supplying x m op.remaining 0 0) (hb : s.balance < 2 ^ 128) :
    ({ s with contract := s.contract.stopAndExitAllocating op } : Scene A).Settled x := by
  have hfits : s.contract.idleBalance + op.remaining < 2 ^ 128 := by
    have hle := h.cash.1
    omega
  refine ⟨?_, ?_⟩
  · change s.Cash x (saturatingAdd 128 s.contract.idleBalance op.remaining) 0
    rw [saturatingAdd_of_lt hfits]
    exact h.cash
  · intro k
    by_cases hk : k = m
    · subst hk
      exact h.stake
    · exact h.others k hk

/-- A supply is booked by the growth of the position, and what is left of the reserved amount
becomes idle again. -/
theorem Supplying.book {a total : Nat} {c : Contract A} (h : s.Supplying x m op.remaining a a)
    (hb : s.balance < 2 ^ 128) (hknown : (s.contract.markets.lookup m).isSome = true)
    (hread : s.Stake x m total 0) (hgrown : Backed x (s.contract.principalOf m + a) total)
    (hle : total - s.contract.principalOf m ≤ op.remaining)
    (hrw : Contract.Rewrites s.contract.markets c.markets m total)
    (hidle : c.idleBalance = saturatingAdd 128 s.contract.idleBalance
      (op.remaining - (total - s.contract.principalOf m))) :
    ({ s with contract := c } : Scene A).Settled x := by
  have hcash := h.cash
  simp only [Cash, Backed] at hcash hgrown
  refine ⟨?_, ?_⟩
  · change s.Cash x c.idleBalance 0
    rw [hidle, saturatingAdd_of_lt (by omega)]
    refine ⟨by omega, fun hex => ?_⟩
    have := hcash.2 hex
    have := hgrown.2 hex
    omega
  · intro k
    change s.Stake x k (part principal c.markets k) 0
    by_cases hk : k = m
    · subst hk
      rw [hrw.same hknown]
      exact hread
    · rw [hrw.other k hk]
      exact h.others k hk

/-- A market withdrawal is booked by what the position and the balance show. -/
theorem After.book {after : Nat} (h : s.After x m r b n (.answered (.amount after)))
    (hrw : Contract.Rewrites s.contract.markets markets m (s.contract.principalOf m -
      min (s.contract.principalOf m - r) (after - b))) (k : Nat) :
    s.Stake x k (part principal markets k) 0 := by
  by_cases hk : k = m
  · subst hk
    have hstake := h.moved.stake
    have hreported := h.reported
    have hdrop := h.drop
    have hafter := (h.read after rfl).2
    simp only [Stake, Backed] at hstake hreported hdrop hafter ⊢
    cases hlookup : s.contract.markets.lookup k with
    | none =>
      rw [hrw.unknown hlookup, part_of_none hlookup]
      refine ⟨by omega, fun hex => ?_⟩
      have := hstake.2 hex
      rw [principalOf, part_of_none hlookup] at this
      omega
    | some rec =>
      rw [hrw.same (by rw [hlookup]; rfl)]
      refine ⟨by omega, fun hex => ?_⟩
      have := hreported.2 hex
      have := hdrop.2 hex
      have := hafter.2 hex
      omega
  · rw [hrw.other k hk]
    exact h.moved.others k hk

/-- A market that has paid nothing has left everything as it was. -/
theorem Moved.settled (h : s.Moved x m n) (hn : n = 0) : s.Settled x := by
  subst hn
  refine ⟨h.cash, ?_⟩
  intro k
  by_cases hk : k = m
  · subst hk
    exact h.stake
  · exact h.others k hk

theorem Before.during (h : s.Before x (.answered (.amount b))) : s.During x m b 0 .scheduled :=
  ⟨⟨h.settled.cash, h.settled.stakes m, fun k _ => h.settled.stakes k⟩, h.read b rfl, fun _ => rfl,
    by simp, by simp, by simp⟩

theorem During.settled (h : s.During x m b n (.answered .failed)) : s.Settled x :=
  h.moved.settled (h.failed rfl)

theorem During.after {t : Option Nat} (h : s.During x m b n (.answered (.position t))) :
    s.After x m (t.getD 0) b n .scheduled := by
  obtain ⟨hpaid, hstake, hdrop⟩ := h.read t rfl
  exact ⟨h.moved, h.before, hpaid, hstake, hdrop, by simp, by simp⟩

theorem After.settled (h : s.After x m r b n (.answered .failed)) : s.Settled x :=
  h.moved.settled (h.failed rfl)

/-- The idle funds are set to a balance that was read. -/
theorem After.idle {after idle : Nat} (h : s.After x m r b n (.answered (.amount after)))
    (hb : s.balance < 2 ^ 128) (hidle : after < 2 ^ 128 → idle = after) : s.Cash x idle 0 := by
  have hcash := (h.read after rfl).1
  have hle := hcash.1
  rw [hidle (by omega)]
  exact hcash

end Scene

/-- The callback that is on its way after a step. One that belongs to no operation does not count. -/
def joined (o : Option (Receipt A)) : Option (Callback A) → Option (Receipt A)
  | some callback => if callback.opId.isSome then some ⟨callback, .scheduled⟩ else o
  | none => o

namespace Phase

variable {x : Prop} {s : Scene A} {c c₁ : Contract A} {p : Option (Callback A)}
  {r : Receipt A} {env : Env A} {k m token remaining b n : Nat}
  {position : Option (Option Nat)} {op : AllocatingState} {balance : Option Nat} {g : Progress}

/-- The phase after a step that found no callback on its way. -/
abbrev Next (x : Prop) (s : Scene A) (c : Contract A) (p : Option (Callback A)) : Prop :=
  Phase x { s with contract := c } (joined none p)

/-- A callback that is lost, or that does nothing, leaves the operation where it is. -/
theorem die (hp : Phase x s (some r)) : Phase x s none := by
  cases hp with
  | refresh hop hs hread | resync hop hs hread | supply01 hop hs hle | supply02 hop hs hfail hread =>
    exact .dead (by simp [hop]) (by simp [hop])
  | execute01 hop hl hs => exact .dead (by simp [hop]) (fun _ _ => ⟨_, hl.1⟩)
  | execute02 hat hl hs | execute03 hat hl hs =>
    obtain ⟨w, hop⟩ := hat.withdrawing
    exact .dead (by simp [hop]) (fun _ _ => ⟨_, hl.1⟩)
  | rebalance01 hop hl hs | rebalance02 hop hl hs | rebalance03 hop hl hs | payout hop hcash hs =>
    exact .dead (by simp [hop]) (by simp [hop])

theorem refresh01Settle {op : RefreshingState} {i : Nat} (hop : s.contract.opState = .refreshing op)
    (hs : s.Settled x) (hread : ∀ t, position = some t → s.Stake x m (t.getD 0) 0)
    (h : s.contract.refresh01Settle env position m k i = .ok (c, p)) : Next x s c p := by
  rcases refresh01Settle_eq_ok h with ⟨rfl, rfl⟩ | ⟨op', hop', hid, hend⟩
  · exact .dead (by simp [hop]) (by simp [hop])
  rcases hend with ⟨rfl, rfl⟩ | ⟨markets, groups, hbooks, hend⟩
  · exact .idle rfl ⟨hs.cash, hs.stakes⟩
  have hstakes : ∀ j, s.Stake x j (part principal markets j) 0 := by
    rcases hbooks with ⟨rfl, -⟩ | ⟨total, rfl, hrw⟩
    · exact hs.stakes
    · exact hs.rewrite hrw (hread (some total) rfl)
  rcases hend with ⟨t, rfl, rfl⟩ | ⟨m', next, -, -, rfl, rfl⟩
  · exact .idle rfl ⟨hs.cash, hstakes⟩
  · exact .refresh rfl ⟨hs.cash, hstakes⟩ (by simp)

/-- A withdrawal that is called off while the money is where the books say. -/
theorem stopWithdrawing {op : WithdrawingState A} (hop : s.contract.opState = .withdrawing op)
    (hs : s.Settled x) (h : s.contract.Stopped c p) : Next x s c p := by
  cases h with
  | withdrawing ledger queue hop' => exact .idle rfl ⟨hs.cash, hs.stakes⟩
  | idle hop' | allocating hop' | refreshing hop' | payout hop' => cases hop.symm.trans hop'

/-- A withdrawal goes on from books that are settled, and without a lease. -/
theorem continued (h : c₁.Continued k c p) (hl : ¬ c₁.Leased) (hcash : s.Cash x c₁.idleBalance 0)
    (hstakes : ∀ j, s.Stake x j (c₁.principalOf j) 0) : Next x s c p := by
  cases h with
  | waiting w hid hrem => exact .waiting rfl hl ⟨hcash, hstakes⟩
  | paying q hid hle =>
    subst hid
    refine .payout rfl ?_ hstakes
    change s.Cash x (c₁.idleBalance - q.amount + q.amount) 0
    rw [Nat.sub_add_cancel hle]
    exact hcash

/-- The only lease is given back. -/
theorem unleased {registry : MarketLeaseRegistry} (hl : s.contract.LeasedOnly m)
    (h : registry.leasesByTarget = s.contract.marketExecutionLock.leasesByTarget.erase m)
    (hc : c.marketExecutionLock = registry) : ¬ c.Leased := by
  rintro ⟨j, hj⟩
  rw [hc, h] at hj
  obtain ⟨lease, hlease⟩ := Option.isSome_iff_exists.mp hj
  obtain ⟨hne, hold⟩ := lookup_of_erase hlease
  exact hne (hl.2 j (by rw [hold]; rfl))

theorem endRebalance (h : c₁.endRebalance m k token = .ok (c, p))
    (hcash : s.Cash x c₁.idleBalance 0) (hstakes : ∀ j, s.Stake x j (c₁.principalOf j) 0) :
    Next x s c p := by
  obtain ⟨rfl, rfl⟩ := endRebalance_eq_ok h
  exact .idle rfl ⟨hcash, hstakes⟩

theorem ctxAllocating_ne_none (hop : s.contract.opState = .allocating op) :
    s.contract.ctxAllocating op.opId ≠ none := by
  rw [ctxAllocating_eq_some.mpr ⟨hop, rfl⟩]
  simp

/-- What a callback of a withdrawal leaves behind, where a reading is acted upon. Without its lease
it does nothing, and what makes it stop has left the money where the books say. -/
theorem reads {α : Type} {r : Option α} {acts : WithdrawingState A → α → Prop}
    (hop : ∃ w, s.contract.opState = .withdrawing w) (hl : s.contract.LeasedOnly m)
    (hstop : ¬ s.contract.AtMarket k m ∨ r = none → s.Settled x)
    (h : s.contract.Reads k m r c p acts)
    (hacts : ∀ w y, s.contract.AtMarket k m → r = some y → acts w y → Next x s c p) :
    Next x s c p := by
  obtain ⟨w, hop⟩ := hop
  rcases h with ⟨rfl, rfl⟩ | ⟨hstopped, hwhy⟩ | ⟨w', y, -, -, hat, hy, hacted⟩
  · exact .dead (by simp [hop]) (fun _ _ => ⟨m, hl.1⟩)
  · exact stopWithdrawing hop (hstop hwhy) hstopped
  · exact hacts w' y hat hy hacted

theorem rebalances {α : Type} {r : Option α} {acts : α → Prop}
    (hop : s.contract.opState = .allocating ⟨k, 0, 0, []⟩) (hnone : r = none → s.Settled x)
    (h : s.contract.Rebalances env k m token r c p acts)
    (hacts : ∀ y, r = some y → acts y → Next x s c p) : Next x s c p := by
  rcases h with ⟨rfl, rfl⟩ | ⟨-, hctx⟩ | ⟨op, -, -, ⟨hr, hend⟩ | ⟨y, hy, hacted⟩⟩
  · exact .dead (by simp [hop]) (by simp [hop])
  · exact absurd hctx (ctxAllocating_ne_none hop)
  · exact endRebalance hend (hnone hr).cash (hnone hr).stakes
  · exact hacts y hy hacted

variable [DecidableEq A]

theorem resyncIdleBalance01Settle {before : Nat}
    (hop : s.contract.opState = .allocating ⟨k, 0, 0, []⟩) (hs : s.Settled x)
    (hb : s.balance < 2 ^ 128) (hread : ∀ n, balance = some n → s.Cash x n 0)
    (h : s.contract.resyncIdleBalance01Settle balance k before = (c, p)) : Next x s c p := by
  rcases s.contract.resyncIdleBalance01Settle_cases balance k before with
    heq | ⟨-, -, heq⟩ | ⟨actual, idle, -, -, rfl, hactual, heq⟩
  · cases heq.symm.trans h
    exact .dead (by simp [hop]) (by simp [hop])
  · cases heq.symm.trans h
    exact .idle rfl ⟨hs.cash, hs.stakes⟩
  · cases heq.symm.trans h
    have hcash := hread actual rfl
    have hle := hcash.1
    obtain rfl := hactual (by omega)
    exact .idle rfl ⟨hcash, hs.stakes⟩

theorem supply01HandleTransfer {accepted : Option Nat} {sent : Nat}
    (hop : s.contract.opState = .allocating op) (hs : s.Supplying x m op.remaining g.out g.grown)
    (hb : s.balance < 2 ^ 128) (hnone : accepted = none → g.out = 0 ∧ g.grown = 0)
    (hsome : ∀ a, accepted = some a → g.out = a ∧ g.grown = a)
    (h : s.contract.supply01HandleTransfer env accepted m op.opId op.index sent remaining =
      .ok (c, p)) : Next x s c p := by
  rcases supply01HandleTransfer_eq_ok h with
    ⟨hstop, hwhy⟩ | ⟨op', a, hop', -, rfl, rfl, rfl⟩
  · have hfailed : accepted = none := by
      rcases hwhy with hctx | hfailed
      · rw [ctxAllocating_eq_some.mpr ⟨hop, rfl⟩] at hctx
        cases hctx
      · exact hfailed
    obtain ⟨hout, hgrown⟩ := hnone hfailed
    rw [hout, hgrown] at hs
    obtain ⟨rfl, rfl⟩ := hstop.of_allocating hop
    exact .idle rfl (hs.stop hb)
  · obtain ⟨hout, hgrown⟩ := hsome a rfl
    rw [hout, hgrown] at hs
    exact .supply02 hop hs (by simp) (by simp)

theorem supply02PositionRead {a : Nat} (hop : s.contract.opState = .allocating op)
    (hs : s.Supplying x m op.remaining a a) (hsound : s.contract.Sound) (hb : s.balance < 2 ^ 128)
    (hknown : (s.contract.markets.lookup m).isSome = true) (hfail : position = none → a = 0)
    (hread : ∀ t, position = some t → s.Stake x m (t.getD 0) 0 ∧
      Backed x (s.contract.principalOf m + a) (t.getD 0))
    (h : s.contract.supply02PositionRead env position m op.opId op.index (s.contract.principalOf m)
      remaining = .ok (c, p)) : Next x s c p := by
  rcases supply02PositionRead_eq_ok hsound.plan h with
    ⟨hstop, hwhy⟩ | ⟨op', total, markets, groups, hop', rfl, hrw, hle, rfl, rfl⟩
  · -- the market has kept nothing: the read failed, or there is no position
    have hzero : a = 0 := by
      rcases hwhy with hctx | ⟨op', hop', hindex⟩ | hnone | hmissing
      · rw [ctxAllocating_eq_some.mpr ⟨hop, rfl⟩] at hctx
        cases hctx
      · cases hop.symm.trans hop'
        exact absurd rfl hindex
      · exact hfail hnone
      · have hgrown := (hread none hmissing).2.1
        simp only [Option.getD_none] at hgrown
        omega
    subst hzero
    obtain ⟨rfl, rfl⟩ := hstop.of_allocating hop
    exact .idle rfl (hs.stop hb)
  · cases hop.symm.trans hop'
    obtain ⟨hstake, hgrown⟩ := hread (some total) rfl
    exact .idle rfl (hs.book hb hknown hstake hgrown hle hrw rfl)

theorem payment01ReconcileIdleOrRefund {succeeded : Bool} {op : PayoutState A}
    {receiver : A} (hop : s.contract.opState = .payout op)
    (hcash : s.Cash x (s.contract.idleBalance + g.owed op.amount) 0)
    (hstakes : ∀ j, s.Stake x j (s.contract.principalOf j) 0) (hb : s.balance < 2 ^ 128)
    (howed : g.owed op.amount = if succeeded then 0 else op.amount)
    (h : s.contract.payment01ReconcileIdleOrRefund env succeeded k receiver = .ok (c, p)) :
    Next x s c p := by
  rcases payment01ReconcileIdleOrRefund_eq_ok h with
    ⟨rfl, rfl⟩ | ⟨op', ledger, queue, hop', -, rfl, rfl⟩
  · exact .dead (by simp [hop]) (by simp [hop])
  · cases hop.symm.trans hop'
    rw [howed] at hcash
    refine .idle rfl ⟨?_, hstakes⟩
    cases succeeded with
    | true => exact hcash
    | false =>
      change s.Cash x (saturatingAdd 128 s.contract.idleBalance op.amount) 0
      have hfits : s.contract.idleBalance + op.amount < 2 ^ 128 := by
        have hle := hcash.1
        simp only [Bool.false_eq_true, if_false] at hle
        omega
      rw [saturatingAdd_of_lt hfits]
      exact hcash

/-- A callback takes its phase to the next one. -/
theorem callback {callback : Callback A} {reply : Reply}
    (hp : Phase x s (some ⟨callback, .answered reply⟩)) (hsound : s.contract.Sound)
    (hsent : callback.Sent s.contract) (hb : s.balance < 2 ^ 128)
    (h : callback.run env s.contract reply = .ok (c, p)) : Next x s c p := by
  cases hp with
  | refresh hop hs hread =>
    obtain ⟨position, hpos, h⟩ := bind_eq_ok.mp h
    exact refresh01Settle hop hs (fun t ht => hread t ((Reply.asPosition_eq_ok hpos).2 t ht)) h
  | resync hop hs hread =>
    simp only [run, do_ok] at h
    obtain ⟨balance, hbal, h⟩ := h
    exact resyncIdleBalance01Settle hop hs hb
      (fun n hn => hread n ((Reply.asAmount_eq_ok hbal).2 n hn)) h.symm
  | supply01 hop hs hle =>
    obtain ⟨accepted, hacc, h⟩ := bind_eq_ok.mp h
    obtain ⟨hfail, hread⟩ := Reply.asAmount_eq_ok hacc
    refine supply01HandleTransfer hop hs hb ?_ ?_ h
    · intro hnone
      rw [hfail hnone]
      exact ⟨rfl, rfl⟩
    · intro a ha
      rw [hread a ha]
      exact ⟨rfl, rfl⟩
  | supply02 hop hs hfail hread =>
    obtain ⟨position, hpos, h⟩ := bind_eq_ok.mp h
    obtain ⟨hnone, hsome⟩ := Reply.asPosition_eq_ok hpos
    exact supply02PositionRead hop hs hsound hb hsent.2 (fun hn => hfail (hnone hn))
      (fun t ht => hread t (hsome t ht)) h
  | execute01 hop hl hs =>
    obtain ⟨balance, hbal, h⟩ := bind_eq_ok.mp h
    refine reads ⟨_, hop⟩ hl (fun _ => hs.settled) (executeWithdraw01_eq_ok h) ?_
    rintro w b hat rfl ⟨rfl, rfl⟩
    rw [(Reply.asAmount_eq_ok hbal).2 b rfl] at hs
    exact .execute02 hat hl hs.during
  | execute02 hat hl hs =>
    obtain ⟨position, hpos, h⟩ := bind_eq_ok.mp h
    obtain ⟨hfail, hread⟩ := Reply.asPosition_eq_ok hpos
    refine reads hat.withdrawing hl (fun hwhy => ?_) (executeWithdraw02_eq_ok h) ?_
    · rw [hfail (hwhy.resolve_left (not_not_intro hat))] at hs
      exact hs.settled
    · rintro w t - rfl ⟨rfl, rfl⟩
      rw [hread t rfl] at hs
      exact .execute03 hat hl hs.after
  | execute03 hat hl hs =>
    obtain ⟨balance, hbal, h⟩ := bind_eq_ok.mp h
    obtain ⟨hfail, hread⟩ := Reply.asAmount_eq_ok hbal
    refine reads hat.withdrawing hl (fun hwhy => ?_)
      (executeWithdraw03_eq_ok hsound.guarded.wanting h) ?_
    · rw [hfail (hwhy.resolve_left (not_not_intro hat))] at hs
      exact hs.settled
    · rintro w after - rfl ⟨markets, groups, idle, hrw, hidle, hgo⟩
      rw [hread after rfl] at hs
      exact continued hgo (unleased hl rfl rfl) (hs.idle hb hidle) (hs.book hrw)
  | rebalance01 hop hl hs =>
    obtain ⟨balance, hbal, h⟩ := bind_eq_ok.mp h
    refine rebalances hop (fun _ => hs.settled) (rebalanceWithdraw01_eq_ok h) ?_
    rintro b rfl ⟨rfl, rfl⟩
    rw [(Reply.asAmount_eq_ok hbal).2 b rfl] at hs
    exact .rebalance02 hop hl hs.during
  | rebalance02 hop hl hs =>
    obtain ⟨position, hpos, h⟩ := bind_eq_ok.mp h
    obtain ⟨hfail, hread⟩ := Reply.asPosition_eq_ok hpos
    refine rebalances hop (fun hnone => ?_) (rebalanceWithdraw02_eq_ok h) ?_
    · rw [hfail hnone] at hs
      exact hs.settled
    · rintro t rfl ⟨rfl, rfl⟩
      rw [hread t rfl] at hs
      exact .rebalance03 hop hl hs.after
  | @rebalance03 _ m _ r b _ _ hop hl hs =>
    obtain ⟨balance, hbal, h⟩ := bind_eq_ok.mp h
    obtain ⟨hfail, hread⟩ := Reply.asAmount_eq_ok hbal
    refine rebalances hop (fun hnone => ?_) (rebalanceWithdraw03_eq_ok h) ?_
    · rw [hfail hnone] at hs
      exact hs.settled
    · rintro after rfl hend
      obtain ⟨markets, groups, idle, hset, hrw, hidle⟩ :=
        s.contract.settleMarketPrincipalAndIdle_eq m (s.contract.principalOf m) r after b
      rw [hset] at hend
      rw [hread after rfl] at hs
      exact endRebalance hend (hs.idle hb hidle) (hs.book hrw)
  | payout hop hcash hs =>
    obtain ⟨succeeded, hdone, h⟩ := bind_eq_ok.mp h
    refine payment01ReconcileIdleOrRefund hop hcash hs hb ?_ h
    cases reply with
    | failed => cases hdone; rfl
    | done => cases hdone; rfl
    | _ => cases hdone

end Phase

/-- A recovery, or a further market call of a withdrawal, where no market is leased. -/
def Call.Orderly (c : Contract A) : Call A → Prop
  | .unbrick => c.opState = .idle ∨ c.opState.isWithdrawing = true ∧ ¬ c.Leased
  | .executeMarketWithdrawal _ _ => ¬ c.Leased
  | _ => True

/-- A step that touches neither the operation nor the books. -/
theorem Scene.Carries.quiet {x : Prop} {s : Scene A} {c : Contract A}
    (hop : c.opState = s.contract.opState) (hlock : c.marketExecutionLock = s.contract.marketExecutionLock)
    (hroute : c.withdrawRoute = s.contract.withdrawRoute)
    (hidle : c.idleBalance = s.contract.idleBalance) (hmarkets : c.markets = s.contract.markets) :
    s.Carries x { s with contract := c } where
  cash := ⟨0, rfl, fun _ => rfl⟩
  positions k := .refl x _
  paid := rfl
  op := hop
  leases := by rw [hlock]
  route := hroute
  idle := hidle
  principal k := by rw [principalOf, principalOf, hmarkets]
  known k hk := by rwa [hmarkets]

namespace Phase

variable {x : Prop} {s : Scene A} {c : Contract A} {p : Option (Callback A)}
  {o : Option (Receipt A)} {env : Env A} {k m : Nat}

theorem of_idle (hp : Phase x s o) (hop : s.contract.opState = .idle) : o = none ∧ s.Settled x := by
  cases hp with
  | idle _ hs => exact ⟨rfl, hs⟩
  | waiting hop' => cases hop.symm.trans hop'
  | dead hne => exact absurd hop hne
  | refresh hop' | resync hop' | supply01 hop' | supply02 hop' | execute01 hop' =>
    cases hop.symm.trans hop'
  | execute02 hat | execute03 hat =>
    obtain ⟨w, hop'⟩ := hat.withdrawing
    cases hop.symm.trans hop'
  | rebalance01 hop' | rebalance02 hop' | rebalance03 hop' | payout hop' => cases hop.symm.trans hop'

/-- A withdrawal without a lease waits for its next market. -/
theorem of_waiting {w : WithdrawingState A} (hp : Phase x s o)
    (hop : s.contract.opState = .withdrawing w) (hl : ¬ s.contract.Leased) :
    o = none ∧ s.Settled x := by
  cases hp with
  | idle hop' => cases hop.symm.trans hop'
  | waiting _ _ hs => exact ⟨rfl, hs⟩
  | dead _ hleased => exact absurd (hleased w hop) hl
  | refresh hop' | resync hop' | supply01 hop' | supply02 hop' => cases hop.symm.trans hop'
  | execute01 _ honly | execute02 _ honly | execute03 _ honly => exact absurd ⟨_, honly.1⟩ hl
  | rebalance01 hop' | rebalance02 hop' | rebalance03 hop' | payout hop' => cases hop.symm.trans hop'

theorem unleased_of_idle (hsound : s.contract.Sound) (hop : s.contract.opState = .idle) :
    ¬ s.contract.Leased := by
  rintro ⟨j, hj⟩
  rw [hsound.guarded.leases_of_idle hop] at hj
  cases hj

theorem reconfigured (hs : s.Settled x) (h : s.contract.Reconfigured c) :
    Phase x { s with contract := c } none := by
  obtain ⟨hidle, -, next, ids, markets, groups, queue, hlist, rfl⟩ := h
  refine .idle hidle ⟨hs.cash, ?_⟩
  intro j
  change s.Stake x j (part principal markets j) 0
  rw [hlist.same j]
  exact hs.stakes j

/-- A supply sends the money after the amount is reserved. -/
theorem supplying {op : AllocatingState} {sent r : Nat} (hop : c.opState = .allocating op)
    (hcash : s.Cash x (c.idleBalance + op.remaining) 0)
    (hstakes : ∀ j, s.Stake x j (c.principalOf j) 0)
    (hp : p = some (.supply01HandleTransfer m op.opId op.index sent r)) : Next x s c p := by
  subst hp
  exact .supply01 hop ⟨hcash, hstakes m, fun j _ => hstakes j⟩ (by simp)

/-- The market that is leased where none was. -/
theorem leasedOnly {registry : MarketLeaseRegistry} {lease : MarketLease} {now : Nat}
    (hl : ¬ s.contract.Leased)
    (hreg : registry.leasesByTarget = (s.contract.marketExecutionLock.leasesByTarget.retain
      (fun old => !old.isExpired now)).insert m lease) (hc : c.marketExecutionLock = registry) :
    c.LeasedOnly m := by
  unfold Contract.LeasedOnly
  rw [hc]
  refine ⟨?_, ?_⟩
  · rw [hreg, AList.lookup_insert]
    rfl
  · intro j hj
    obtain ⟨l, hlookup⟩ := Option.isSome_iff_exists.mp hj
    rcases lookup_leased hreg hlookup with ⟨hjm, -⟩ | hold
    · exact hjm
    · exact absurd ⟨j, by rw [hold]; rfl⟩ hl

variable [DecidableEq A]

section

variable (hs : s.Settled x)
include hs

theorem executeWithdrawal {route : List Nat} (hsound : s.contract.Sound)
    (h : s.contract.executeWithdrawal env route = .ok (c, p)) : Next x s c p := by
  obtain ⟨hidle, ledger, t, queue, ⟨rfl, rfl⟩ | hgo | ⟨rfl, rfl⟩⟩ := executeWithdrawal_eq_ok h
  · exact .idle hidle ⟨hs.cash, hs.stakes⟩
  · exact continued hgo (unleased_of_idle hsound hidle) hs.cash hs.stakes
  · exact .idle hidle ⟨hs.cash, hs.stakes⟩

theorem executeMarketWithdrawal (hl : ¬ s.contract.Leased)
    (h : s.contract.executeMarketWithdrawal env k m = .ok (c, p)) : Next x s c p := by
  obtain ⟨w, hop, -, hstop | ⟨i, lease, registry, -, -, hreg, rfl, rfl⟩⟩ :=
    executeMarketWithdrawal_eq_ok h
  · exact stopWithdrawing hop hs hstop
  · exact .execute01 rfl (leasedOnly hl hreg rfl) ⟨⟨hs.cash, hs.stakes⟩, by simp⟩

theorem executeRebalanceWithdrawal (hsound : s.contract.Sound)
    (h : s.contract.executeRebalanceWithdrawal env m = .ok (c, p)) : Next x s c p := by
  obtain ⟨hidle, ⟨rfl, rfl⟩ | ⟨ledger, t, lease, registry, -, -, hreg, rfl, rfl⟩⟩ :=
    executeRebalanceWithdrawal_eq_ok h
  · exact .idle hidle hs
  · exact .rebalance01 rfl (leasedOnly (unleased_of_idle hsound hidle) hreg rfl)
      ⟨⟨hs.cash, hs.stakes⟩, by simp⟩

theorem refreshMarkets {markets : List Nat}
    (h : s.contract.refreshMarkets env markets = .ok (c, p)) : Next x s c p := by
  obtain ⟨hidle, ⟨rfl, rfl⟩ | ⟨plan, m, -, rfl, rfl⟩ | ⟨rfl, rfl⟩⟩ := refreshMarkets_eq_ok h
  · exact .idle hidle hs
  · exact .refresh rfl ⟨hs.cash, hs.stakes⟩ (by simp)
  · exact .idle rfl ⟨hs.cash, hs.stakes⟩

theorem resyncIdleBalance (h : s.contract.resyncIdleBalance env = .ok (c, p)) : Next x s c p := by
  obtain ⟨-, -, ledger, t, rfl, rfl⟩ := resyncIdleBalance_eq_ok h
  exact .resync rfl ⟨hs.cash, hs.stakes⟩ (by simp)

theorem allocate {delta : AllocationDelta}
    (h : s.contract.allocate env delta = .ok (c, p)) : Next x s c p := by
  obtain ⟨hidle, ledger, t, ⟨rfl, hp⟩ | ⟨market, amount, sent, -, -, hle, -, -, rfl, rfl⟩⟩ :=
    allocate_eq_ok h
  · have hjoin : joined none p = none := by
      rcases hp with rfl | ⟨m, n, rfl⟩
      · rfl
      · rfl
    rw [Next, hjoin]
    exact .idle hidle ⟨hs.cash, hs.stakes⟩
  · refine supplying (m := market) rfl ?_ hs.stakes rfl
    change s.Cash x (s.contract.idleBalance - min amount (2 ^ 128 - 1) + min amount (2 ^ 128 - 1)) 0
    rw [Nat.sub_add_cancel (by omega)]
    exact hs.cash

end

/-- The phase after a call. A call that sends a callback has found none on its way. -/
theorem call {call : Call A} (hp : Phase x s o) (hsound : s.contract.Sound)
    (hd : call.isDeposit = false) (hok : call.Orderly s.contract)
    (h : call.run env s.contract = .ok (c, p)) :
    Phase x { s with contract := c } (joined o p) ∧
      ∀ callback ∈ p, callback.opId.isSome = true → o = none := by
  -- an operation that is begun, and a withdrawal that goes on, find nothing on its way
  have start (hs : o = none ∧ s.Settled x)
      (hnext : s.Settled x → Next x s c p) :
      Phase x { s with contract := c } (joined o p) ∧
        ∀ callback ∈ p, callback.opId.isSome = true → o = none := by
    obtain ⟨rfl, hs⟩ := hs
    exact ⟨hnext hs, fun _ _ _ => rfl⟩
  cases call with
  | ftTransfer receiver amount =>
    obtain ⟨hrun, rfl⟩ := settled_eq_ok.mp h
    obtain ⟨ledger, rfl⟩ := transfer_eq_ok hrun
    exact ⟨hp.carry (.quiet rfl rfl rfl rfl rfl), by simp⟩
  | ftOnTransfer sender amount => cases hd
  | withdraw amount receiver =>
    obtain ⟨hrun, rfl⟩ := settled_eq_ok.mp h
    obtain ⟨-, ledger, queue, t, rfl⟩ := withdraw_eq_ok hrun
    exact ⟨hp.carry (.quiet rfl rfl rfl rfl rfl), by simp⟩
  | redeem shares receiver =>
    obtain ⟨hrun, rfl⟩ := settled_eq_ok.mp h
    obtain ⟨-, ledger, queue, t, rfl⟩ := redeem_eq_ok hrun
    exact ⟨hp.carry (.quiet rfl rfl rfl rfl rfl), by simp⟩
  | executeWithdrawal route =>
    have hidle := (executeWithdrawal_eq_ok h).1
    exact start (hp.of_idle hidle) (fun hs => executeWithdrawal hs hsound h)
  | executeMarketWithdrawal opId market =>
    obtain ⟨w, hop, -⟩ := executeMarketWithdrawal_eq_ok h
    exact start (hp.of_waiting hop hok) (fun hs => executeMarketWithdrawal hs hok h)
  | executeRebalanceWithdrawal market =>
    have hidle := (executeRebalanceWithdrawal_eq_ok h).1
    exact start (hp.of_idle hidle) (fun hs => executeRebalanceWithdrawal hs hsound h)
  | refreshMarkets markets =>
    have hidle := (refreshMarkets_eq_ok h).1
    exact start (hp.of_idle hidle) (fun hs => refreshMarkets hs h)
  | resyncIdleBalance =>
    have hidle := (resyncIdleBalance_eq_ok h).1
    exact start (hp.of_idle hidle) (fun hs => resyncIdleBalance hs h)
  | unbrick =>
    simp only [Call.run, unbrick_eq] at h
    have hstop := stopAndExit_eq_ok h
    rcases hok with hidle | ⟨hwith, hl⟩
    · obtain ⟨rfl, rfl⟩ := hstop.of_idle hidle
      exact ⟨hp, by simp⟩
    · obtain ⟨w, hop⟩ := OpState.isWithdrawing_iff.mp hwith
      exact start (hp.of_waiting hop hl) (fun hs => stopWithdrawing hop hs hstop)
  | allocate delta =>
    have hidle := (allocate_eq_ok h).1
    exact start (hp.of_idle hidle) (fun hs => allocate hs h)
  | setSupplyQueue markets =>
    obtain ⟨hrun, rfl⟩ := settled_eq_ok.mp h
    have hconf := setSupplyQueue_eq_ok hsound.numbered hrun
    exact start (hp.of_idle hconf.1) (fun hs => reconfigured hs hconf)
  | submitCap market =>
    obtain ⟨hrun, rfl⟩ := settled_eq_ok.mp h
    have hconf := submitCap_eq_ok hsound.numbered hrun
    exact start (hp.of_idle hconf.1) (fun hs => reconfigured hs hconf)
  | applyChange action =>
    obtain ⟨hrun, rfl⟩ := settled_eq_ok.mp h
    rcases applyImmediately_eq_ok hsound.numbered hrun with
      ⟨fees, ledger, anchor, -, rfl, -⟩ | ⟨gate, rfl⟩ | hconf
    · exact ⟨hp.carry (.quiet rfl rfl rfl rfl rfl), by simp⟩
    · exact ⟨hp.carry (.quiet rfl rfl rfl rfl rfl), by simp⟩
    · exact start (hp.of_idle hconf.1) (fun hs => reconfigured hs hconf)

end Phase

end Templar.Near
