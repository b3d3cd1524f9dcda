import Templar.Near.World

/-!
# What backs the books of the NEAR vault

Between calls the idle funds are backed by the vault's balance and every principal by the
position in its market. While an operation is under way a part of the money is elsewhere, and
where it is depends on how far the operation has come. `Phase` says this for each of its states,
together with the one callback that is on its way.

The statements come in two strengths: `Backed x a b` bounds `a` by `b`, and makes them equal
where the run is exact, that is where nobody sends tokens or earns interest and markets pay what
they take off the position.
-/

namespace Templar.Near

open Checked Vault Curator Function

variable {A : Type}

/-- `a` is covered by `b`, to the unit in an exact run. -/
def Backed (x : Prop) (a b : Nat) : Prop := a ≤ b ∧ (x → a = b)

theorem Backed.refl (x : Prop) (a : Nat) : Backed x a a := ⟨Nat.le_refl a, fun _ => rfl⟩

/-- A world without the queues of messages. -/
structure Scene (A : Type) where
  contract : Contract A
  balance : Nat
  transit : Nat
  positions : Nat → Nat
  paid : Nat

def World.scene (w : World A) : Scene A := ⟨w.contract, w.balance, w.transit, w.positions, w.paid⟩

namespace Progress

/-- Tokens of a supply that are not in the vault. -/
def out : Progress → Nat
  | .held amount => amount
  | .accepted amount _ => amount
  | .answered (.amount kept) => kept
  | _ => 0

/-- What the position has grown by, in a supply. -/
def grown : Progress → Nat
  | .accepted _ kept => kept
  | .answered (.amount kept) => kept
  | _ => 0

/-- What is still to be paid, of a payout. -/
def owed (amount : Nat) : Progress → Nat
  | .answered .done => 0
  | _ => amount

/-- What a market has paid before the position is read. -/
def paidOut : Progress → Nat
  | .paid amount => amount
  | _ => 0

end Progress

namespace Scene

variable (x : Prop) (s : Scene A)

/-- The vault's own tokens, with `out` of them elsewhere, cover `a`. -/
def Cash (a out : Nat) : Prop := Backed x (a + s.transit) (s.balance + out)

/-- The position in a market, with `short` less in it than before, covers `a`. -/
def Stake (market a short : Nat) : Prop := Backed x a (s.positions market + short)

/-- The books are backed as they stand. -/
structure Settled : Prop where
  cash : s.Cash x s.contract.idleBalance 0
  stakes : ∀ k, s.Stake x k (s.contract.principalOf k) 0

/-- A supply to a market, with an amount reserved for it. -/
structure Supplying (market reserved out grown : Nat) : Prop where
  cash : s.Cash x (s.contract.idleBalance + reserved) out
  stake : s.Stake x market (s.contract.principalOf market + grown) 0
  others : ∀ k, k ≠ market → s.Stake x k (s.contract.principalOf k) 0

/-- A market has paid, and the books do not know yet. -/
structure Moved (market amount : Nat) : Prop where
  cash : s.Cash x (s.contract.idleBalance + amount) 0
  stake : s.Stake x market (s.contract.principalOf market) amount
  others : ∀ k, k ≠ market → s.Stake x k (s.contract.principalOf k) 0

/-- The balance is read before the market is called. -/
structure Before (g : Progress) : Prop where
  settled : s.Settled x
  read : ∀ b, g = .answered (.amount b) → s.Cash x b 0

/-- The market is called and then asked for the position. -/
structure During (market b n : Nat) (g : Progress) : Prop where
  moved : s.Moved x market n
  before : s.Cash x (b + n) 0
  scheduled : g = .scheduled → n = 0
  paid : ∀ k, g = .paid k → k = n ∧ n = s.paid
  failed : g = .answered .failed → n = 0
  read : ∀ t, g = .answered (.position t) → n = s.paid ∧ s.Stake x market (t.getD 0) 0 ∧
    Backed x (s.contract.principalOf market) (t.getD 0 + n)

/-- The balance is read after the market has been called. -/
structure After (market r b n : Nat) (g : Progress) : Prop where
  moved : s.Moved x market n
  before : s.Cash x (b + n) 0
  paid : n = s.paid
  reported : s.Stake x market r 0
  drop : Backed x (s.contract.principalOf market) (r + n)
  failed : g = .answered .failed → n = 0
  read : ∀ a, g = .answered (.amount a) → s.Cash x a 0 ∧ Backed x (b + n) a

end Scene

namespace Contract

/-- Some market is leased. -/
def Leased (c : Contract A) : Prop :=
  ∃ m, (c.marketExecutionLock.leasesByTarget.lookup m).isSome = true

/-- This market is leased, and no other. -/
def LeasedOnly (c : Contract A) (market : Nat) : Prop :=
  (c.marketExecutionLock.leasesByTarget.lookup market).isSome = true ∧
    ∀ m, (c.marketExecutionLock.leasesByTarget.lookup m).isSome = true → m = market

end Contract

/-- The operation in progress, the callback on its way, and where the money is. An operation
without a callback on its way, other than a withdrawal that waits, never goes on. -/
inductive Phase (x : Prop) (s : Scene A) : Option (Receipt A) → Prop
  | idle : s.contract.opState = .idle → s.Settled x → Phase x s none
  | waiting {op} :
      s.contract.opState = .withdrawing op → ¬ s.contract.Leased → s.Settled x → Phase x s none
  | dead : s.contract.opState ≠ .idle →
      (∀ op, s.contract.opState = .withdrawing op → s.contract.Leased) → Phase x s none
  | refresh {op m k i before g} :
      s.contract.opState = .refreshing op → s.Settled x →
      (∀ t, g = .answered (.position t) → s.Stake x m (t.getD 0) 0) →
      Phase x s (some ⟨.refresh01Settle m k i before, g⟩)
  | resync {k t a g} :
      s.contract.opState = .allocating ⟨k, 0, 0, []⟩ → s.Settled x →
      (∀ n, g = .answered (.amount n) → s.Cash x n 0) →
      Phase x s (some ⟨.resyncIdleBalance01Settle k a s.contract.idleBalance t, g⟩)
  | supply01 {op : AllocatingState} {m sent r} {g : Progress} :
      s.contract.opState = .allocating op → s.Supplying x m op.remaining g.out g.grown →
      (∀ n a, g = .accepted n a → a ≤ n) →
      Phase x s (some ⟨.supply01HandleTransfer m op.opId op.index sent r, g⟩)
  | supply02 {op : AllocatingState} {m sent a r g} :
      s.contract.opState = .allocating op → s.Supplying x m op.remaining a a →
      (g = .answered .failed → a = 0) →
      (∀ t, g = .answered (.position t) → s.Stake x m (t.getD 0) 0 ∧
        Backed x (s.contract.principalOf m + a) (t.getD 0)) →
      Phase x s (some ⟨.supply02PositionRead m op.opId op.index (s.contract.principalOf m) sent a r, g⟩)
  | execute01 {op k m token g} :
      s.contract.opState = .withdrawing op → s.contract.LeasedOnly m → s.Before x g →
      Phase x s (some ⟨.executeWithdraw01 k m token, g⟩)
  | execute02 {k m token b n g} :
      s.contract.AtMarket k m → s.contract.LeasedOnly m → s.During x m b n g →
      Phase x s (some ⟨.executeWithdraw02 k m token (s.contract.principalOf m) b, g⟩)
  | execute03 {k m token r b n g} :
      s.contract.AtMarket k m → s.contract.LeasedOnly m → s.After x m r b n g →
      Phase x s (some ⟨.executeWithdraw03 k m token (s.contract.principalOf m) r b, g⟩)
  | rebalance01 {k m token g} :
      s.contract.opState = .allocating ⟨k, 0, 0, []⟩ → s.contract.LeasedOnly m → s.Before x g →
      Phase x s (some ⟨.rebalanceWithdraw01 k m token (s.contract.principalOf m), g⟩)
  | rebalance02 {k m token b n g} :
      s.contract.opState = .allocating ⟨k, 0, 0, []⟩ → s.contract.LeasedOnly m → s.During x m b n g →
      Phase x s (some ⟨.rebalanceWithdraw02 k m token (s.contract.principalOf m) b, g⟩)
  | rebalance03 {k m token r b n g} :
      s.contract.opState = .allocating ⟨k, 0, 0, []⟩ → s.contract.LeasedOnly m →
      s.After x m r b n g →
      Phase x s (some ⟨.rebalanceWithdraw03 k m token (s.contract.principalOf m) r b, g⟩)
  | payout {op : PayoutState A} {receiver} {g : Progress} :
      s.contract.opState = .payout op → s.Cash x (s.contract.idleBalance + g.owed op.amount) 0 →
      (∀ k, s.Stake x k (s.contract.principalOf k) 0) →
      Phase x s (some ⟨.payment01ReconcileIdleOrRefund op.opId receiver op.amount, g⟩)

/-- The books are the same, and the vault holds no less. -/
structure Scene.Carries (x : Prop) (s s' : Scene A) : Prop where
  cash : ∃ e, s'.balance + s.transit = s.balance + s'.transit + e ∧ (x → e = 0)
  positions : ∀ k, Backed x (s.positions k) (s'.positions k)
  paid : s'.paid = s.paid
  op : s'.contract.opState = s.contract.opState
  leases : s'.contract.marketExecutionLock.leasesByTarget = s.contract.marketExecutionLock.leasesByTarget
  route : s'.contract.withdrawRoute = s.contract.withdrawRoute
  idle : s'.contract.idleBalance = s.contract.idleBalance
  principal : ∀ k, s'.contract.principalOf k = s.contract.principalOf k
  known : ∀ k, (s.contract.markets.lookup k).isSome = true → (s'.contract.markets.lookup k).isSome = true

namespace Scene.Carries

variable {x : Prop} {s s' : Scene A} {a k m n b : Nat} {g : Progress}

section

variable (h : s.Carries x s')
include h

theorem cash_of {out : Nat} (ha : s.Cash x a out) : s'.Cash x a out := by
  obtain ⟨e, he, hx⟩ := h.cash
  refine ⟨?_, ?_⟩
  · have := ha.1
    omega
  · intro hex
    have := ha.2 hex
    have := hx hex
    omega

theorem stake_of {short : Nat} (ha : s.Stake x k a short) : s'.Stake x k a short := by
  have hk := h.positions k
  refine ⟨?_, ?_⟩
  · have := ha.1
    have := hk.1
    omega
  · intro hex
    have := ha.2 hex
    have := hk.2 hex
    omega

theorem settled_of (hs : s.Settled x) : s'.Settled x where
  cash := by
    rw [h.idle]
    exact h.cash_of hs.cash
  stakes k := by
    rw [h.principal k]
    exact h.stake_of (hs.stakes k)

theorem supplying_of {reserved out grown : Nat}
    (hs : s.Supplying x m reserved out grown) : s'.Supplying x m reserved out grown where
  cash := by
    rw [h.idle]
    exact h.cash_of hs.cash
  stake := by
    rw [h.principal m]
    exact h.stake_of hs.stake
  others k hk := by
    rw [h.principal k]
    exact h.stake_of (hs.others k hk)

theorem moved_of (hs : s.Moved x m n) : s'.Moved x m n where
  cash := by
    rw [h.idle]
    exact h.cash_of hs.cash
  stake := by
    rw [h.principal m]
    exact h.stake_of hs.stake
  others k hk := by
    rw [h.principal k]
    exact h.stake_of (hs.others k hk)

theorem before_of (hs : s.Before x g) : s'.Before x g :=
  ⟨h.settled_of hs.settled, fun b hb => h.cash_of (hs.read b hb)⟩

theorem during_of (hs : s.During x m b n g) : s'.During x m b n g where
  moved := h.moved_of hs.moved
  before := h.cash_of hs.before
  scheduled := hs.scheduled
  paid k hk := by
    rw [h.paid]
    exact hs.paid k hk
  failed := hs.failed
  read t ht := by
    obtain ⟨hn, hstake, hdrop⟩ := hs.read t ht
    rw [h.paid, h.principal m]
    exact ⟨hn, h.stake_of hstake, hdrop⟩

theorem after_of {r : Nat} (hs : s.After x m r b n g) : s'.After x m r b n g where
  moved := h.moved_of hs.moved
  before := h.cash_of hs.before
  paid := by
    rw [h.paid]
    exact hs.paid
  reported := h.stake_of hs.reported
  drop := by
    rw [h.principal m]
    exact hs.drop
  failed := hs.failed
  read a ha := by
    obtain ⟨hcash, hdrop⟩ := hs.read a ha
    exact ⟨h.cash_of hcash, hdrop⟩

theorem leased_iff : s'.contract.Leased ↔ s.contract.Leased := by
  unfold Contract.Leased
  rw [h.leases]

theorem leasedOnly_of (hm : s.contract.LeasedOnly m) : s'.contract.LeasedOnly m := by
  unfold Contract.LeasedOnly
  rw [h.leases]
  exact hm

theorem atMarket_of (hm : s.contract.AtMarket k m) : s'.contract.AtMarket k m := by
  obtain ⟨op, hop, hid, hroute, hknown⟩ := hm
  exact ⟨op, h.op.trans hop, hid, by rw [h.route]; exact hroute, h.known m hknown⟩

end

end Scene.Carries

/-- What only adds to the vault's means leaves the phase. -/
theorem Phase.carry {x : Prop} {s s' : Scene A} {o : Option (Receipt A)}
    (hp : Phase x s o) (h : s.Carries x s') : Phase x s' o := by
  cases hp with
  | idle hop hs => exact .idle (h.op.trans hop) (h.settled_of hs)
  | waiting hop hl hs => exact .waiting (h.op.trans hop) (fun hl' => hl (h.leased_iff.mp hl')) (h.settled_of hs)
  | dead hop hl =>
    refine .dead (by rw [h.op]; exact hop) ?_
    intro op hop'
    exact h.leased_iff.mpr (hl op (h.op.symm.trans hop'))
  | refresh hop hs hread =>
    exact .refresh (h.op.trans hop) (h.settled_of hs) (fun t ht => h.stake_of (hread t ht))
  | resync hop hs hread =>
    rw [← h.idle]
    exact .resync (h.op.trans hop) (h.settled_of hs) (fun n hn => h.cash_of (hread n hn))
  | supply01 hop hs hle => exact .supply01 (h.op.trans hop) (h.supplying_of hs) hle
  | supply02 hop hs hfail hread =>
    rw [← h.principal]
    refine .supply02 (h.op.trans hop) (h.supplying_of hs) hfail ?_
    intro t ht
    obtain ⟨hstake, hgrown⟩ := hread t ht
    rw [h.principal]
    exact ⟨h.stake_of hstake, hgrown⟩
  | execute01 hop hl hs => exact .execute01 (h.op.trans hop) (h.leasedOnly_of hl) (h.before_of hs)
  | execute02 hat hl hs =>
    rw [← h.principal]
    exact .execute02 (h.atMarket_of hat) (h.leasedOnly_of hl) (h.during_of hs)
  | execute03 hat hl hs =>
    rw [← h.principal]
    exact .execute03 (h.atMarket_of hat) (h.leasedOnly_of hl) (h.after_of hs)
  | rebalance01 hop hl hs =>
    rw [← h.principal]
    exact .rebalance01 (h.op.trans hop) (h.leasedOnly_of hl) (h.before_of hs)
  | rebalance02 hop hl hs =>
    rw [← h.principal]
    exact .rebalance02 (h.op.trans hop) (h.leasedOnly_of hl) (h.during_of hs)
  | rebalance03 hop hl hs =>
    rw [← h.principal]
    exact .rebalance03 (h.op.trans hop) (h.leasedOnly_of hl) (h.after_of hs)
  | payout hop hcash hs =>
    refine .payout (h.op.trans hop) ?_ ?_
    · rw [h.idle]
      exact h.cash_of hcash
    · intro k
      rw [h.principal k]
      exact h.stake_of (hs k)

/-- What has moved already, and is not booked if the read behind a callback fails. -/
def World.unseen (w : World A) (r : Receipt A) : Nat :=
  match r.callback with
  | .supply02PositionRead _ _ _ _ _ accepted _ => accepted
  | .executeWithdraw02 _ _ _ _ _ => r.progress.paidOut
  | .executeWithdraw03 _ _ _ _ _ _ => w.paid
  | .rebalanceWithdraw02 _ _ _ _ _ => r.progress.paidOut
  | .rebalanceWithdraw03 _ _ _ _ _ _ => w.paid
  | _ => 0

namespace Scene

variable {x : Prop} {s : Scene A} {m b n r : Nat} {g : Progress}

/-- With no transfer on its way the balance covers itself. -/
theorem Cash.of_balance (h : s.transit = 0) : s.Cash x s.balance 0 := by
  unfold Cash
  rw [h]
  exact .refl x _

/-- A call that fails with nothing paid leaves nothing unseen. -/
theorem During.fail (h : s.During x m b n g) (hg : g = .scheduled ∨ ∃ k, g = .paid k)
    (hsafe : g.paidOut = 0) : s.During x m b 0 (.answered .failed) := by
  have hn : n = 0 := by
    rcases hg with hg | ⟨k, rfl⟩
    · exact h.scheduled hg
    · rw [← (h.paid k rfl).1]
      exact hsafe
  subst hn
  exact ⟨h.moved, h.before, by simp, by simp, fun _ => rfl, by simp⟩

theorem After.fail (h : s.After x m r b n g) (hsafe : s.paid = 0) :
    s.After x m r b n (.answered .failed) :=
  ⟨h.moved, h.before, h.paid, h.reported, h.drop, fun _ => h.paid.trans hsafe, by simp⟩

theorem Before.read_balance (h : s.Before x g) (ht : s.transit = 0) :
    s.Before x (.answered (.amount s.balance)) := by
  refine ⟨h.settled, ?_⟩
  rintro b ⟨⟩
  exact .of_balance ht

/-- The balance shows at least what the market has paid. -/
theorem After.read_balance (h : s.After x m r b n g) (ht : s.transit = 0) :
    s.After x m r b n (.answered (.amount s.balance)) := by
  refine ⟨h.moved, h.before, h.paid, h.reported, h.drop, by simp, ?_⟩
  rintro a ⟨⟩
  refine ⟨.of_balance ht, ?_⟩
  have hbefore := h.before
  unfold Cash at hbefore
  rw [ht] at hbefore
  exact hbefore

/-- A market pays for what it takes off the position. -/
theorem During.pay {amount d : Nat} (h : s.During x m b n .scheduled) (hd : d ≤ s.positions m)
    (hle : d ≤ amount) (hx : x → amount = d) : ({ s with
      balance := s.balance + amount
      positions := update s.positions m (s.positions m - d)
      paid := amount } : Scene A).During x m b amount (.paid amount) := by
  have hn := h.scheduled rfl
  subst hn
  have hcash := h.moved.cash
  have hstake := h.moved.stake
  have hbefore := h.before
  simp only [Cash, Stake, Backed] at hcash hstake hbefore
  refine ⟨⟨?_, ?_, ?_⟩, ?_, by simp, ?_, by simp, by simp⟩
  · simp only [Cash, Backed]
    exact ⟨by omega, fun hex => by have := hcash.2 hex; omega⟩
  · simp only [Stake, Backed, update_self]
    refine ⟨by omega, fun hex => ?_⟩
    have := hstake.2 hex
    have := hx hex
    omega
  · intro k hk
    simp only [Stake, update_of_ne hk]
    exact h.moved.others k hk
  · simp only [Cash, Backed]
    exact ⟨by omega, fun hex => by have := hbefore.2 hex; omega⟩
  · rintro k ⟨⟩
    exact ⟨rfl, rfl⟩

end Scene

namespace World

variable {x : Prop} {w w' : World A} {place : Nat} {r : Receipt A}

/-- The position that is reported. -/
theorem report_eq (w : World A) (m : Nat) :
    ∃ t, w.report m = .position t ∧ t.getD 0 = w.positions m := by
  refine ⟨_, rfl, ?_⟩
  split
  · rename_i h
    exact h.symm
  · rfl

/-- The position is reported after the payment. -/
theorem during_report {m b n k : Nat} (h : w.scene.During x m b n (.paid k)) :
    w.scene.During x m b n (.answered (w.report m)) := by
  obtain ⟨t, ht, hpos⟩ := w.report_eq m
  rw [ht]
  refine ⟨h.moved, h.before, by simp, by simp, by simp, ?_⟩
  rintro t' ⟨⟩
  rw [hpos]
  exact ⟨(h.paid k rfl).2, .refl x _, h.moved.stake⟩

end World

namespace Phase

variable {x : Prop} {w w' : World A} {place m n k attempted : Nat} {r : Receipt A}

section

variable (hp : Phase x w.scene (some r))
include hp

/-- A failed answer keeps the phase if nothing has moved unseen. -/
theorem failed (hg : r.progress = .scheduled ∨ ∃ n, r.progress = .paid n) (hsafe : w.unseen r = 0) :
    Phase x w.scene (some ⟨r.callback, .answered .failed⟩) := by
  cases hp with
  | refresh hop hs hread => exact .refresh hop hs (by simp)
  | resync hop hs hread => exact .resync hop hs (by simp)
  | supply01 hop hs hle =>
    refine .supply01 hop ?_ (by simp)
    rcases hg with hg | ⟨n, hg⟩
    · cases hg
      exact hs
    · cases hg
      exact hs
  | supply02 hop hs hfail hread => exact .supply02 hop hs (fun _ => hsafe) (by simp)
  | execute01 hop hl hs => exact .execute01 hop hl ⟨hs.settled, by simp⟩
  | execute02 hat hl hs => exact .execute02 hat hl (hs.fail hg hsafe)
  | execute03 hat hl hs => exact .execute03 hat hl (hs.fail hsafe)
  | rebalance01 hop hl hs => exact .rebalance01 hop hl ⟨hs.settled, by simp⟩
  | rebalance02 hop hl hs => exact .rebalance02 hop hl (hs.fail hg hsafe)
  | rebalance03 hop hl hs => exact .rebalance03 hop hl (hs.fail hsafe)
  | payout hop hcash hs =>
    refine .payout hop ?_ hs
    rcases hg with hg | ⟨n, hg⟩
    · cases hg
      exact hcash
    · cases hg
      exact hcash

/-- The vault reads its balance. -/
theorem balanceRead (hg : r.progress = .scheduled)
    (ho : r.callback.outgoing = .readBalance) (ht : w.transit = 0) :
    Phase x w.scene (some ⟨r.callback, .answered (.amount w.balance)⟩) := by
  cases hp with
  | resync hop hs hread =>
    refine .resync hop hs ?_
    rintro n ⟨⟩
    exact .of_balance ht
  | execute01 hop hl hs => exact .execute01 hop hl (hs.read_balance ht)
  | execute03 hat hl hs => exact .execute03 hat hl (hs.read_balance ht)
  | rebalance01 hop hl hs => exact .rebalance01 hop hl (hs.read_balance ht)
  | rebalance03 hop hl hs => exact .rebalance03 hop hl (hs.read_balance ht)
  | _ => cases ho

/-- A position is read in a refresh or after a supply. -/
theorem positionRead (hg : r.progress = .scheduled)
    (ho : r.callback.outgoing = .readPosition m) :
    Phase x w.scene (some ⟨r.callback, .answered (w.report m)⟩) := by
  obtain ⟨t, ht, hpos⟩ := w.report_eq m
  rw [ht]
  cases hp with
  | refresh hop hs hread =>
    cases ho
    refine .refresh hop hs ?_
    rintro t' ⟨⟩
    rw [hpos]
    exact .refl x _
  | supply02 hop hs hfail hread =>
    cases ho
    refine .supply02 hop hs (by simp) ?_
    rintro t' ⟨⟩
    rw [hpos]
    exact ⟨.refl x _, hs.stake⟩
  | _ => cases ho

/-- The vault reads the position that a market has paid from. -/
theorem paidRead (hg : r.progress = .paid n)
    (ho : r.callback.outgoing = .executeWithdrawal m) :
    Phase x w.scene (some ⟨r.callback, .answered (w.report m)⟩) := by
  cases hp with
  | execute02 hat hl hs =>
    cases ho
    cases hg
    exact .execute02 hat hl (World.during_report hs)
  | rebalance02 hop hl hs =>
    cases ho
    cases hg
    exact .rebalance02 hop hl (World.during_report hs)
  | _ => cases ho

/-- Tokens leave for a market. -/
theorem sent (hg : r.progress = .scheduled)
    (ho : r.callback.outgoing = .transferCall m n) (hn : n ≤ w.balance) :
    Phase x { w.scene with balance := w.balance - n } (some ⟨r.callback, .held n⟩) := by
  cases hp with
  | supply01 hop hs hle =>
    cases ho
    cases hg
    refine .supply01 hop ⟨?_, hs.stake, hs.others⟩ (by simp)
    have hcash := hs.cash
    simp only [Scene.Cash, Backed, Progress.out, World.scene] at hcash ⊢
    exact ⟨by omega, fun hex => by have := hcash.2 hex; omega⟩
  | _ => cases ho

/-- The market keeps a part of them. -/
theorem kept (hg : r.progress = .held n)
    (ho : r.callback.outgoing = .transferCall m attempted) (hk : k ≤ n) :
    Phase x { w.scene with positions := update w.positions m (w.positions m + k) }
      (some ⟨r.callback, .accepted n k⟩) := by
  cases hp with
  | supply01 hop hs hle =>
    cases ho
    cases hg
    refine .supply01 hop ⟨hs.cash, ?_, ?_⟩ ?_
    · have hstake := hs.stake
      simp only [Scene.Stake, Backed, Progress.grown, World.scene, update_self] at hstake ⊢
      exact ⟨by omega, fun hex => by have := hstake.2 hex; omega⟩
    · intro j hj
      simp only [Scene.Stake, update_of_ne hj]
      exact hs.others j hj
    · rintro n' a ⟨⟩
      exact hk
  | _ => cases ho

/-- The rest comes back. -/
theorem returned (hg : r.progress = .accepted n k)
    (ho : r.callback.outgoing = .transferCall m attempted) :
    Phase x { w.scene with balance := w.balance + (n - k) }
      (some ⟨r.callback, .answered (.amount k)⟩) := by
  cases hp with
  | supply01 hop hs hle =>
    cases hg
    have hkn := hle n k rfl
    refine .supply01 hop ⟨?_, hs.stake, hs.others⟩ (by simp)
    have hcash := hs.cash
    simp only [Scene.Cash, Backed, Progress.out, World.scene] at hcash ⊢
    exact ⟨by omega, fun hex => by have := hcash.2 hex; omega⟩
  | _ => cases ho

/-- A payout reaches its receiver. -/
theorem transferred (hg : r.progress = .scheduled)
    (ho : r.callback.outgoing = .transfer n) (hn : n ≤ w.balance) :
    Phase x { w.scene with balance := w.balance - n } (some ⟨r.callback, .answered .done⟩) := by
  cases hp with
  | payout hop hcash hs =>
    cases ho
    cases hg
    refine .payout hop ?_ hs
    simp only [Scene.Cash, Backed, Progress.owed, World.scene] at hcash ⊢
    exact ⟨by omega, fun hex => by have := hcash.2 hex; omega⟩
  | _ => cases ho

end

/-- A market pays a withdrawal. -/
theorem paid {d : Nat} (hp : Phase x w.scene (some r)) (hg : r.progress = .scheduled)
    (ho : r.callback.outgoing = .executeWithdrawal m) (hd : d ≤ w.positions m) (hle : d ≤ n)
    (hx : x → n = d) : Phase x { w.scene with
      balance := w.balance + n
      positions := update w.positions m (w.positions m - d)
      paid := n } (some ⟨r.callback, .paid n⟩) := by
  cases hp with
  | execute02 hat hl hs =>
    cases ho
    cases hg
    exact .execute02 hat hl (hs.pay hd hle hx)
  | rebalance02 hop hl hs =>
    cases ho
    cases hg
    exact .rebalance02 hop hl (hs.pay hd hle hx)
  | _ => cases ho

end Phase

end Templar.Near
