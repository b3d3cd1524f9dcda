import Templar.Lending.Execution
import Templar.Lib.Load

/-!
# Borrow aggregates agree with positions

Every operation on a borrow position writes the position and the market's totals. The
totals are sums over the positions in every run, and each position still has in flight at
least what its unsettled transfers carry, however they interleave; so no settlement and
no repayment takes more from a total or a position than is there.
-/

namespace Templar.Lending

open Checked BorrowPositionGuard Flight Table Within

variable {A : Type} [DecidableEq A]

namespace Flight

/-- The amount a flight lends to an account. -/
def lends (a : A) : Flight A → Nat
  | .borrow b initialBorrow => if b = a then initialBorrow.amount else 0
  | _ => 0

/-- The collateral a flight carries to an account. -/
def releases (a : A) : Flight A → Nat
  | .collateral b amount => if b = a then amount else 0
  | _ => 0

end Flight

/-- The books change, and nothing on the borrow side does, except that flights can get lost. -/
structure Books.SameBorrow (b b' : Books A) : Prop where
  configuration : b'.market.configuration = b.market.configuration
  positions : b'.market.borrowPositions = b.market.borrowPositions
  borrowed : b'.market.borrowAssetBorrowed = b.market.borrowAssetBorrowed
  inFlight : b'.market.borrowAssetBorrowedInFlight = b.market.borrowAssetBorrowedInFlight
  collateral : b'.market.collateralAssetDeposited = b.market.collateralAssetDeposited
  lends : ∀ a, load (lends a) b'.flights ≤ load (lends a) b.flights
  releases : ∀ a, load (releases a) b'.flights ≤ load (releases a) b.flights

section Moves

variable {C : Conditions A} {b b' : Books A} {t : Nat}
variable {F F' : Multiset (Flight A)}

theorem SupplyOp.loads {g g' : SupplyPositionGuard A} (op : SupplyOp C t g F g' F')
    {w : Flight A → Nat} (hw : ∀ x, w (.withdrawal x) = 0) : load w F' = load w F := by
  cases op with
  | accumulate h => rfl
  | deposit hg h => rfl
  | withdraw hg hr hc h hw' | settle ha h => rw [load_cons, hw, Nat.zero_add]

/-- A move leaves the borrow side alone, takes out a position, applies an operation to
one, or removes an empty one. -/
theorem Move.borrow_cases (hs : b.Sound) (hm : Move C b b') : b.SameBorrow b' ∨
      (∃ m a p F t, (m.borrowPositions.lookup a = some p ∨
          m.borrowPositions.lookup a = none ∧ p = BorrowPosition.new m.finalizedSnapshots.length) ∧
        b = ⟨m, F, t⟩ ∧ b' = ⟨drop ⟨m, a, p⟩, F, t⟩) ∨
      (∃ g g' F F' t, BorrowOp C t g F g' F' ∧ b = ⟨g.drop, F, t⟩ ∧ b' = ⟨g'.drop, F', t⟩) ∨
      ∃ m a p F t, m.borrowPositions.lookup a = some p ∧ p.exists' = .ok false ∧
        b = ⟨m, F, t⟩ ∧ b' = ⟨{ m with borrowPositions := m.borrowPositions.erase a }, F, t⟩ := by
  cases hm with
  | tick h ht => exact Or.inl ⟨rfl, rfl, rfl, rfl, rfl, fun _ => le_rfl, fun _ => le_rfl⟩
  | lose h => exact Or.inl ⟨rfl, rfl, rfl, rfl, rfl, fun _ => load_mono _ h, fun _ => load_mono _ h⟩
  | snapshot h =>
    refine Or.inl ?_
    rcases Market.snapshot_eq_ok h with rfl | ⟨now, s, active, incoming, -, -, -, rfl⟩
    all_goals exact ⟨rfl, rfl, rfl, rfl, rfl, fun _ => le_rfl, fun _ => le_rfl⟩
  | queue h => exact Or.inl ⟨rfl, rfl, rfl, rfl, rfl, fun _ => le_rfl, fun _ => le_rfl⟩
  | openSupply h =>
    exact Or.inl ⟨rfl, rfl, rfl, rfl, rfl, fun _ => le_rfl, fun _ => le_rfl⟩
  | @createSupply m a g₁ g₂ amount F t h h₁ h₂ =>
    obtain ⟨hfresh, op₁, hagrees, op₂⟩ := Booked.created (C := C) hs h h₁ h₂
    obtain ⟨hk₁, -, -⟩ := op₁.keeps hfresh
    obtain ⟨hk₂, -, -⟩ := op₂.keeps hagrees
    exact Or.inl ⟨hk₂.configuration.trans hk₁.configuration, hk₂.positions.trans hk₁.positions,
      hk₂.borrowed.trans hk₁.borrowed, hk₂.inFlight.trans hk₁.inFlight,
      hk₂.collateral.trans hk₁.collateral, fun _ => le_rfl, fun _ => le_rfl⟩
  | supply op =>
    obtain ⟨hk, -, -⟩ := op.keeps hs.supply
    exact Or.inl ⟨hk.configuration, hk.positions, hk.borrowed, hk.inFlight, hk.collateral,
      fun _ => (op.loads fun _ => rfl).le, fun _ => (op.loads fun _ => rfl).le⟩
  | cleanupSupply h hp =>
    exact Or.inl ⟨rfl, rfl, rfl, rfl, rfl, fun _ => le_rfl, fun _ => le_rfl⟩
  | openBorrow h => exact Or.inr (Or.inl ⟨_, _, _, _, _, h, rfl, rfl⟩)
  | borrow op => exact Or.inr (Or.inr (Or.inl ⟨_, _, _, _, _, op, rfl, rfl⟩))
  | cleanupBorrow h hp => exact Or.inr (Or.inr (Or.inr ⟨_, _, _, _, _, h, hp, rfl, rfl⟩))
  | accumulateStaticYield h =>
    obtain ⟨numerator, before, after, stop, entries, -, -, -, -, -, -, -, rfl⟩ :=
      Market.accumulateStaticYield_eq_ok h
    exact Or.inl ⟨rfl, rfl, rfl, rfl, rfl, fun _ => le_rfl, fun _ => le_rfl⟩
  | withdrawStaticYield h =>
    obtain ⟨record, sent, -, -, -, he⟩ := Market.withdrawStaticYield_eq_ok h
    cases he
    refine Or.inl ⟨rfl, rfl, rfl, rfl, rfl, ?_, ?_⟩
    all_goals
      intro a
      rw [load_cons]
      exact (Nat.zero_add _).le
  | settleStaticYield h =>
    refine Or.inl ?_
    rcases Market.withdrawStaticYield01Finalize_eq_ok h with he | ⟨record, -, he⟩
    all_goals
      cases he
      exact ⟨rfl, rfl, rfl, rfl, rfl, fun _ => load_mono _ (Multiset.le_cons_self _ _),
        fun _ => load_mono _ (Multiset.le_cons_self _ _)⟩

/-- Induction over a run for what only the borrow side can change. -/
theorem Booked.borrow_induction {P : Books A → Prop} (h : Booked C b)
    (new : ∀ {configuration : MarketConfiguration A} {m : Market A} {time : Nat},
      Market.new configuration time = .ok m → P ⟨m, 0, time⟩)
    (same : ∀ {b b' : Books A}, b.SameBorrow b' → P b → P b')
    (opened : ∀ {m : Market A} {a : A} {p : BorrowPosition}
      {F : Multiset (Flight A)} {t : Nat}, (m.borrowPositions.lookup a = some p ∨
        m.borrowPositions.lookup a = none ∧ p = BorrowPosition.new m.finalizedSnapshots.length) →
      P ⟨m, F, t⟩ → P ⟨drop ⟨m, a, p⟩, F, t⟩)
    (op : ∀ {g g' : BorrowPositionGuard A} {F F' : Multiset (Flight A)} {t : Nat},
      BorrowOp C t g F g' F' → P ⟨g.drop, F, t⟩ → P ⟨g'.drop, F', t⟩)
    (cleanup : ∀ {m : Market A} {a : A} {p : BorrowPosition}
      {F : Multiset (Flight A)} {t : Nat}, m.borrowPositions.lookup a = some p →
      p.exists' = .ok false → P ⟨m, F, t⟩ →
      P ⟨{ m with borrowPositions := m.borrowPositions.erase a }, F, t⟩) : P b := by
  induction h with
  | new ht h => exact new h
  | move hb hm ih =>
    rcases hm.borrow_cases hb.sound with hsame | ⟨m, a, p, F, t, hp, rfl, rfl⟩ |
      ⟨g, g', F, F', t, hop, rfl, rfl⟩ | ⟨m, a, p, F, t, hp, hremove, rfl, rfl⟩
    · exact same hsame ih
    · exact opened hp ih
    · exact op hop ih
    · exact cleanup hp hremove ih

end Moves

section Operations

variable {C : Conditions A} {t : Nat} {g g' : BorrowPositionGuard A}
variable {F F' : Multiset (Flight A)}

omit [DecidableEq A] in
/-- The market's totals change by what the position changes by. -/
theorem BorrowOp.totals (op : BorrowOp C t g F g' F') :
    g'.market.borrowAssetBorrowed + g.position.borrowAssetPrincipal =
        g.market.borrowAssetBorrowed + g'.position.borrowAssetPrincipal ∧
      g'.market.borrowAssetBorrowedInFlight + g.position.borrowAssetInFlight =
        g.market.borrowAssetBorrowedInFlight + g'.position.borrowAssetInFlight ∧
      g'.market.collateralAssetDeposited + g.position.collateralAssetDeposit =
        g.market.collateralAssetDeposited + g'.position.collateralAssetDeposit := by
  cases op.effect with
  | interest _ _ _ _ => exact ⟨rfl, rfl, rfl⟩
  | deposit | withdraw _ _ | settleWithdrawal _ _ =>
    refine ⟨rfl, rfl, ?_⟩
    simp only
    omega
  | borrow _ _ _ _ _ =>
    refine ⟨rfl, ?_, rfl⟩
    simp only
    omega
  | settleBorrow _ _ _ hm hp =>
    refine ⟨?_, ?_, rfl⟩
    all_goals
      simp only
      omega
  | pay _ _ hcollateral hp hb _ _ =>
    have hle := hp.trans_le (amountToPrincipal_le _ _ _)
    refine ⟨?_, rfl, hcollateral⟩
    simp only
    omega

/-- What is in flight in the position changes by what the flights change by. -/
theorem BorrowOp.flights (op : BorrowOp C t g F g' F') :
    load (lends g.accountId) F' + g.position.borrowAssetInFlight =
        load (lends g.accountId) F + g'.position.borrowAssetInFlight ∧
      load (releases g.accountId) F' + g.position.collateralAssetInFlight =
        load (releases g.accountId) F + g'.position.collateralAssetInFlight ∧
      ∀ b, b ≠ g.accountId → load (lends b) F' = load (lends b) F ∧
        load (releases b) F' = load (releases b) F := by
  cases op.effect with
  | interest _ _ _ _ | deposit | pay _ _ _ _ _ _ _ => exact ⟨rfl, rfl, fun _ _ => ⟨rfl, rfl⟩⟩
  | withdraw _ _ | settleWithdrawal _ hle =>
    refine ⟨?_, ?_, fun b hb => ?_⟩
    · simp [lends]
    · simp only [load_cons, releases, ↓reduceIte]
      omega
    · simp [lends, releases, hb.symm]
  | borrow _ _ _ _ _ | settleBorrow _ _ _ _ hle =>
    refine ⟨?_, ?_, fun b hb => ?_⟩
    · simp only [load_cons, lends, ↓reduceIte]
      omega
    · simp [releases]
    · simp [lends, releases, hb.symm]

end Operations

/-- The totals of the market are sums over its borrow positions, and what is in flight is
in flight in its position. -/
structure Books.BorrowAgrees (b : Books A) : Prop where
  principal : total BorrowPosition.borrowAssetPrincipal b.market.borrowPositions =
    b.market.borrowAssetBorrowed
  inFlight : total BorrowPosition.borrowAssetInFlight b.market.borrowPositions =
    b.market.borrowAssetBorrowedInFlight
  collateral : total BorrowPosition.collateralAssetDeposit b.market.borrowPositions =
    b.market.collateralAssetDeposited
  lends : Covers BorrowPosition.borrowAssetInFlight b.market.borrowPositions lends b.flights
  releases : Covers BorrowPosition.collateralAssetInFlight b.market.borrowPositions releases
    b.flights

namespace Books.BorrowAgrees

variable {C : Conditions A} {m : Market A} {a : A} {p : BorrowPosition}
variable {F F' : Multiset (Flight A)} {t : Nat}

theorem new {configuration : MarketConfiguration A} {time : Nat}
    (h : Market.new configuration time = .ok m) :
    (⟨m, 0, time⟩ : Books A).BorrowAgrees := by
  obtain ⟨-, -, chunk, previous, maximumInterest, rfl⟩ := Market.new_eq_ok h
  exact ⟨rfl, rfl, rfl, Covers.empty _ _, Covers.empty _ _⟩

theorem same {b b' : Books A} (h : b.BorrowAgrees) (hs : b.SameBorrow b') : b'.BorrowAgrees := by
  obtain ⟨hp, hf, hc, hl, hr⟩ := h
  rw [← hs.positions] at hp hf hc hl hr
  exact ⟨hp.trans hs.borrowed.symm, hf.trans hs.inFlight.symm, hc.trans hs.collateral.symm,
    hl.mono hs.lends, hr.mono hs.releases⟩

/-- A position that is taken out, or a new one, counts as much as before. -/
theorem opened (h : (⟨m, F, t⟩ : Books A).BorrowAgrees)
    (hp : m.borrowPositions.lookup a = some p ∨
      m.borrowPositions.lookup a = none ∧ p = BorrowPosition.new m.finalizedSnapshots.length) :
    (⟨drop ⟨m, a, p⟩, F, t⟩ : Books A).BorrowAgrees := by
  have hpart : ∀ f : BorrowPosition → Nat, f (BorrowPosition.new m.finalizedSnapshots.length) = 0 →
      part f m.borrowPositions a = f p := by
    intro f hf
    rcases hp with hp | ⟨hp, rfl⟩
    · exact part_of_lookup hp
    · rw [hf]
      exact part_of_none hp
  have htotal : ∀ f : BorrowPosition → Nat, f (BorrowPosition.new m.finalizedSnapshots.length) = 0 →
      total f (m.borrowPositions.insert a p) = total f m.borrowPositions := by
    intro f hf
    have ht := total_insert f m.borrowPositions a p
    have hp := hpart f hf
    omega
  exact ⟨(htotal _ rfl).trans h.principal, (htotal _ rfl).trans h.inFlight,
    (htotal _ rfl).trans h.collateral, h.lends.insert (hpart _ rfl).le,
    h.releases.insert (hpart _ rfl).le⟩

theorem op {g g' : BorrowPositionGuard A}
    (h : (⟨g.drop, F, t⟩ : Books A).BorrowAgrees) (op : BorrowOp C t g F g' F') :
    (⟨g'.drop, F', t⟩ : Books A).BorrowAgrees := by
  obtain ⟨hk, ha⟩ := op.keeps
  obtain ⟨hprincipal, hinFlight, hcollateral⟩ := op.totals
  obtain ⟨hlends, hreleases, hother⟩ := op.flights
  have hd : g'.drop.borrowPositions = g.market.borrowPositions.insert g.accountId g'.position := by
    rw [← hk.stored, ← ha]
    rfl
  have htotal : ∀ {f : BorrowPosition → Nat} {x x' : Nat}, total f g.drop.borrowPositions = x →
      x' + f g.position = x + f g'.position → total f g'.drop.borrowPositions = x' := by
    intro f x x' hx hx'
    have ht := total_replace f g.market.borrowPositions g.accountId g.position g'.position
    rw [hd]
    simp only [drop] at hx
    omega
  refine ⟨htotal h.principal hprincipal, htotal h.inFlight hinFlight,
    htotal h.collateral hcollateral, ?_, ?_⟩
  · simp only [hd]
    exact h.lends.replace hlends.le fun b hb => (hother b hb).1.le
  · simp only [hd]
    exact h.releases.replace hreleases.le fun b hb => (hother b hb).2.le

theorem cleanup (h : (⟨m, F, t⟩ : Books A).BorrowAgrees)
    (hp : m.borrowPositions.lookup a = some p) (hremove : p.exists' = .ok false) :
    (⟨{ m with borrowPositions := m.borrowPositions.erase a }, F, t⟩ : Books A).BorrowAgrees := by
  obtain ⟨hc, hb, hf, hcf⟩ := BorrowPosition.exists_eq_false hremove
  have hpart : ∀ f : BorrowPosition → Nat, f p = 0 → part f m.borrowPositions a = 0 :=
    fun f hf => (part_of_lookup hp).trans hf
  have htotal : ∀ f : BorrowPosition → Nat, f p = 0 →
      total f (m.borrowPositions.erase a) = total f m.borrowPositions := by
    intro f hf
    have ht := total_erase f m.borrowPositions a
    have hz := hpart f hf
    omega
  exact ⟨(htotal _ hb).trans h.principal, (htotal _ hf).trans h.inFlight,
    (htotal _ hc).trans h.collateral, h.lends.erase (hpart _ hf), h.releases.erase (hpart _ hcf)⟩

end Books.BorrowAgrees

theorem Booked.borrowAgrees {C : Conditions A} {b : Books A} (h : Booked C b) : b.BorrowAgrees :=
  h.borrow_induction .new (fun hs ih => ih.same hs) (fun hp ih => ih.opened hp)
    (fun op ih => ih.op op) fun hp hremove ih => ih.cleanup hp hremove

namespace BorrowPositionGuard

variable {g : BorrowPositionGuard A}

section

omit [DecidableEq A]

/-- A payment never exceeds what it pays off, if the market has lent the principal. -/
theorem onlyOverflow_reduceBorrowAssetLiability {amount : Nat}
    (h : g.position.borrowAssetPrincipal ≤ g.market.borrowAssetBorrowed) :
    OnlyOverflow (g.reduceBorrowAssetLiability amount) := by
  have hamount : ∀ rest, amountToPrincipal g.position.borrowAssetPrincipal
      g.market.configuration.borrowRange.minimum rest ≤ rest := by
    intro rest
    unfold amountToPrincipal
    split <;> omega
  have hprincipal := amountToPrincipal_le g.position.borrowAssetPrincipal
    g.market.configuration.borrowRange.minimum
  refine (within_unwrapSub (Nat.min_le_right _ _)).bind fun rest₁ _ => ?_
  refine (within_unwrapSub (Nat.min_le_left _ _)).bind fun fees _ => ?_
  refine (within_unwrapSub (Nat.min_le_right _ _)).bind fun rest₂ _ => ?_
  refine ((within_sub (Nat.min_le_left _ _)).bind fun _ _ => within_ok _).bind fun interest _ => ?_
  refine (onlyOverflow_add _ _ _).bind fun paid _ => ?_
  refine (onlyOverflow_add _ _ _).bind fun paidToFees _ => ?_
  refine (within_unwrapSub (hamount _)).bind fun rest₃ _ => ?_
  refine (within_unwrapSub (hprincipal _)).bind fun principal _ => ?_
  exact (within_unwrapSub (Nat.le_trans (hprincipal _) h)).bind fun _ _ => within_ok _

theorem onlyOverflow_recordRepay {amount : Nat}
    (h : g.position.borrowAssetPrincipal ≤ g.market.borrowAssetBorrowed) :
    OnlyOverflow (g.recordRepay amount) := by
  refine (onlyOverflow_add _ _ _).bind fun balance hbalance => ?_
  obtain ⟨-, rfl⟩ := Checked.add_eq_ok.mp hbalance
  refine bind (onlyOverflow_reduceBorrowAssetLiability h) fun reduced hreduced => ?_
  obtain ⟨reduction, g₁⟩ := reduced
  obtain ⟨startedAt, hsum, -, -, rfl⟩ := reduceBorrowAssetLiability_eq_ok hreduced
  refine bind ?_ fun liability _ => ?_
  · exact (onlyOverflow_add _ _ _).bind fun _ _ => (onlyOverflow_add _ _ _).bind fun _ _ =>
      onlyOverflow_add _ _ _
  · exact (within_sub (by simp only; omega)).bind fun _ _ => within_ok _

/-- A liquidation takes collateral before it pays: only there can it underflow. -/
theorem within_settleLiquidation {liquidated recovered : Nat}
    (h : g.position.borrowAssetPrincipal ≤ g.market.borrowAssetBorrowed) :
    Within (fun e => e = .overflow ∨ e = .underflow) (g.settleLiquidation liquidated recovered) := by
  have hover : ∀ {β : Type} {x : Outcome β}, OnlyOverflow x →
      Within (fun e => e = .overflow ∨ e = .underflow) x :=
    fun hx => of_onlyOverflow hx (Or.inl rfl)
  refine bind ?_ fun g₁ hg₁ => ?_
  · exact (within_sub_or (Or.inl (Or.inr rfl))).bind fun _ _ =>
      (within_sub_or (Or.inl (Or.inr rfl))).bind fun _ _ => within_ok _
  obtain ⟨-, -, rfl⟩ := recordCollateralAssetWithdrawal_eq_ok hg₁
  refine bind (hover (onlyOverflow_reduceBorrowAssetLiability h)) fun reduced _ => ?_
  refine bind ?_ fun market _ => ?_
  · exact ite (fun _ => within_ok _) fun _ =>
      (hover (onlyOverflow_add _ _ _)).bind fun _ _ => within_ok _
  · exact (hover (onlyOverflow_add _ _ _)).bind fun _ _ => within_ok _

theorem onlyOverflow_recordBorrowFinal {borrow : InitialBorrow} {success : Bool} {now : Nat}
    (hm : borrow.amount ≤ g.market.borrowAssetBorrowedInFlight)
    (hp : borrow.amount ≤ g.position.borrowAssetInFlight) :
    OnlyOverflow (g.recordBorrowFinal borrow success now) := by
  refine (within_sub hm).bind fun marketInFlight _ => (within_sub hp).bind fun inFlight _ => ?_
  refine ite (fun _ => ?_) fun _ => ?_
  · refine bind ?_ fun position _ => (onlyOverflow_add _ _ _).bind fun _ _ => within_ok _
    have hliability : ∀ p : BorrowPosition, OnlyOverflow p.getTotalBorrowAssetLiability := fun p =>
      (onlyOverflow_add _ _ _).bind fun _ _ => (onlyOverflow_add _ _ _).bind fun _ _ =>
        onlyOverflow_add _ _ _
    simp only [BorrowPosition.increaseBorrowAssetPrincipal]
    split
    · exact (within_ok _).bind fun _ _ => (onlyOverflow_add _ _ _).bind fun _ _ => within_ok _
    · exact (hliability _).bind fun _ _ => (within_ok _).bind fun _ _ =>
        (onlyOverflow_add _ _ _).bind fun _ _ => within_ok _
  · exact (onlyOverflow_add _ _ _).bind fun _ _ => within_ok _

theorem onlyOverflow_recordCollateralAssetWithdrawalFinal {amount : Nat} {success : Bool}
    (h : amount ≤ g.position.collateralAssetInFlight) :
    OnlyOverflow (g.recordCollateralAssetWithdrawalFinal amount success) := by
  refine (within_unwrapSub h).bind fun inFlight _ => ite (fun _ => within_ok _) fun _ => ?_
  exact (onlyOverflow_add _ _ _).bind fun _ _ => (onlyOverflow_add _ _ _).bind fun _ _ => within_ok _

end

end BorrowPositionGuard

section Results

variable {s : System A}

omit [DecidableEq A] in
theorem mem_flightsOf {pending : List (Receipt A)} {r : Receipt A}
    {φ : Flight A} (hr : r ∈ pending) (hφ : φ ∈ r.flights) : φ ∈ flightsOf pending :=
  Multiset.mem_coe.mpr (List.mem_flatMap.mpr ⟨r, hr, hφ⟩)

/-- The totals agree with the positions in every run. So in a guard of the next operation
on any account, no payment, no settled borrow and no settled withdrawal of collateral takes
more than is there. -/
theorem borrow_aggregates_agree (h : s.Reachable) :
    total BorrowPosition.borrowAssetPrincipal s.market.borrowPositions =
        s.market.borrowAssetBorrowed ∧
      total BorrowPosition.borrowAssetInFlight s.market.borrowPositions =
        s.market.borrowAssetBorrowedInFlight ∧
      total BorrowPosition.collateralAssetDeposit s.market.borrowPositions =
        s.market.collateralAssetDeposited ∧
      ∀ time a g, s.time ≤ time → time < 2 ^ 64 → s.market.Borrower time a g →
        (∀ amount, OnlyOverflow (g.reduceBorrowAssetLiability amount) ∧
          OnlyOverflow (g.recordRepay amount)) ∧
        (∀ liquidated recovered, Within (fun e => e = .overflow ∨ e = .underflow)
          (g.settleLiquidation liquidated recovered)) ∧
        (∀ initialBorrow success, .borrow02 a initialBorrow ∈ s.pending →
          OnlyOverflow (g.recordBorrowFinal initialBorrow success time)) ∧
        ∀ amount success, .withdrawCollateral02 a amount ∈ s.pending →
          OnlyOverflow (g.recordCollateralAssetWithdrawalFinal amount success) := by
  have hagrees := h.booked.borrowAgrees
  refine ⟨hagrees.principal, hagrees.inFlight, hagrees.collateral, ?_⟩
  intro time a g ht hlt hg
  obtain ⟨hb, -, rfl⟩ := (h.booked_at ht hlt).borrower hg
  have hagrees := hb.borrowAgrees
  have hlook : g.drop.borrowPositions.lookup g.accountId = some g.position := AList.lookup_insert _
  have hprincipal : g.position.borrowAssetPrincipal ≤ g.market.borrowAssetBorrowed :=
    (le_total hlook).trans_eq hagrees.principal
  have hinFlight : g.position.borrowAssetInFlight ≤ g.market.borrowAssetBorrowedInFlight :=
    (le_total hlook).trans_eq hagrees.inFlight
  refine ⟨fun amount => ⟨?_, ?_⟩, fun liquidated recovered => ?_, ?_, ?_⟩
  · exact onlyOverflow_reduceBorrowAssetLiability hprincipal
  · exact onlyOverflow_recordRepay hprincipal
  · exact within_settleLiquidation hprincipal
  · intro initialBorrow success hr
    have hle := hagrees.lends.le_of_mem (mem_flightsOf hr (List.mem_singleton_self _))
    simp only [lends, ↓reduceIte] at hle
    exact onlyOverflow_recordBorrowFinal (Nat.le_trans hle hinFlight) hle
  · intro amount success hr
    have hle := hagrees.releases.le_of_mem (mem_flightsOf hr (List.mem_singleton_self _))
    simp only [releases, ↓reduceIte] at hle
    exact onlyOverflow_recordCollateralAssetWithdrawalFinal hle

/-- Two borrows of one account in flight at once. -/
theorem borrow_aggregates_agree_sample :
    ∃ s : System Nat, s.Reachable ∧ s.market.borrowAssetBorrowedInFlight = 50 ∧
      total BorrowPosition.borrowAssetInFlight s.market.borrowPositions = 50 := by
  obtain ⟨s, hs, hinFlight⟩ : ∃ s : System Nat, s.Reachable ∧
      s.market.borrowAssetBorrowedInFlight = 50 :=
    System.exists_reachable sampleConfiguration 1000
      (activeSupply ++ collateralActions 2000 2 1000 ++
        borrowActions 2000 2 30 0 ++ borrowActions 2000 2 20 1)
      (by decide +kernel) (by decide) (by decide)
  exact ⟨s, hs, hinFlight, (borrow_aggregates_agree hs).2.1.trans hinFlight⟩

end Results

end Templar.Lending
