import Templar.Lending.Traces

/-!
# Executing the withdrawal queue

An execution takes a snapshot and visits the head of the queue again and again: it
accrues the position behind a request, attempts the withdrawal and takes the request off
the queue or shortens it. Each step can abort, and an abort at the head blocks the queue.
Here every step is shown to abort on an overflow only, except for two subtractions in the
attempt: of the borrowed amount from the funds, and of the payment from the balance.
-/

namespace Templar.Lending

open Checked SupplyPositionGuard Within SupplyPosition Lending.System Table

variable {A : Type}

section Snapshot

variable {active borrowed t : Nat} {m : Market A}

theorem usageRatio_le_one {u : Decimal} (hb : borrowed < 2 ^ 128) (ha : active < 2 ^ 128)
    (h : usageRatio active borrowed = .ok u) : u ≤ Decimal.one := by
  unfold usageRatio at h
  split at h
  · cases h
    exact Nat.zero_le _
  · split at h
    · cases h
      exact Nat.le_refl _
    · rename_i hne hle
      have hb' : (Decimal.ofUInt borrowed).repr = borrowed * 2 ^ 128 :=
        Decimal.ofUInt_repr (hb.trans (by decide))
      have ha' : (Decimal.ofUInt active).repr = active * 2 ^ 128 :=
        Decimal.ofUInt_repr (ha.trans (by decide))
      have hpos : (Decimal.ofUInt active).repr ≠ 0 := by
        rw [ha']
        exact Nat.mul_ne_zero (by omega) (Nat.two_pow_pos 128).ne'
      have hlt : (Decimal.ofUInt borrowed).repr < 2 ^ 256 := by
        rw [hb']
        calc borrowed * 2 ^ 128 < 2 ^ 128 * 2 ^ 128 :=
              Nat.mul_lt_mul_of_pos_right hb (Nat.two_pow_pos 128)
          _ = 2 ^ 256 := by decide
      obtain ⟨c, hc, hrepr⟩ := Decimal.div_of_lt (hlt.trans (by decide)) hpos
      obtain rfl : c = u := Except.ok.inj (hc.symm.trans h)
      -- The quotient of the smaller amount by the larger one.
      have hquot : c.repr ≤ Decimal.one.repr := by
        rw [hrepr, hb', ha', Decimal.one_repr]
        apply Nat.div_le_of_le_mul
        have hba : borrowed ≤ active := by omega
        exact Nat.mul_le_mul_right _ (Nat.mul_le_mul_right _ hba)
      exact hquot

theorem onlyOverflow_usageRatio (ha : active < 2 ^ 128) :
    OnlyOverflow (usageRatio active borrowed) := by
  refine ite (fun _ => within_ok _) fun hne => ite (fun _ => within_ok _) fun _ => ?_
  apply Decimal.onlyOverflow_div
  rw [Decimal.ofUInt_repr (ha.trans (by decide))]
  exact Nat.mul_ne_zero (by omega) (Nat.two_pow_pos 128).ne'

theorem Market.onlyOverflow_activateAt (index active : Nat) (l : List IncomingDeposit) :
    OnlyOverflow (Market.activateAt index active l) := by
  induction l with
  | nil => exact within_ok _
  | cons d l ih =>
    refine ite (fun _ => ?_) fun _ => ?_
    · exact (onlyOverflow_add _ _ _).bind fun _ _ => within_ok _
    · exact ih.bind fun _ _ => within_ok _

theorem Market.onlyOverflow_currentSnapshot [DecidableEq A]
    (h : m.configuration.validate = .ok (.ok ())) : OnlyOverflow (m.currentSnapshot t) := by
  refine (onlyOverflow_fit _ _).bind fun index _ => ?_
  refine (onlyOverflow_add _ _ _).bind fun active hactive => ?_
  refine (onlyOverflow_add _ _ _).bind fun borrowed hborrowed => ?_
  obtain ⟨ha, rfl⟩ := add_eq_ok.mp hactive
  obtain ⟨hb, rfl⟩ := add_eq_ok.mp hborrowed
  refine (onlyOverflow_usageRatio ha).bind fun usage hu => ?_
  have hrate := InterestRateStrategy.onlyOverflow_at (MarketConfiguration.sound_of_validate h)
    (usageRatio_le_one hb ha hu)
  exact hrate.bind fun rate _ => within_ok _

theorem Market.onlyOverflow_snapshot [DecidableEq A] {F : Multiset (Flight A)}
    (h : (⟨m, F, t⟩ : Books A).WellFormed) : OnlyOverflow (m.snapshot t) := by
  obtain ⟨duration, hd⟩ := h.chunk
  have hnow : Within (· = .overflow) (m.configuration.timeChunkConfiguration.now t) := by
    simp only at hd
    rw [TimeChunkConfiguration.now, hd]
    exact within_ok _
  refine hnow.bind fun now _ => ite (fun _ => within_ok _) fun _ => ?_
  refine (Market.onlyOverflow_currentSnapshot h.valid).bind fun s _ => ?_
  refine (onlyOverflow_fit _ _).bind fun index _ => ?_
  refine (onlyOverflow_add _ _ _).bind fun next _ => ?_
  exact (Market.onlyOverflow_activateAt _ _ _).bind fun _ _ => within_ok _

end Snapshot

section Accrual

variable {s : Snapshot} {prevEnd numerator denominator : Nat}

theorem Snapshot.onlyOverflow_interestPaidByBorrowers (h : prevEnd ≤ s.endTimestampMs) :
    OnlyOverflow (s.interestPaidByBorrowers prevEnd) := by
  refine (within_sub h).bind fun duration _ => ?_
  refine (Decimal.onlyOverflow_mul _ _).bind fun yearly _ => ?_
  exact (Decimal.onlyOverflow_mulInt _ _).bind fun scaled _ => Decimal.onlyOverflow_mul _ _

theorem Snapshot.onlyOverflow_yieldFor {amount : Nat} (h : prevEnd ≤ s.endTimestampMs)
    (ha : s.borrowAssetDepositedActive ≠ 0) (hd : denominator ≠ 0) :
    OnlyOverflow (s.yieldFor prevEnd amount numerator denominator) := by
  refine (Snapshot.onlyOverflow_interestPaidByBorrowers h).bind fun interest _ => ?_
  refine (Decimal.onlyOverflow_add _ _).bind fun yield _ => ?_
  refine (Decimal.onlyOverflow_mulInt _ _).bind fun scaled _ => ?_
  refine (Decimal.onlyOverflow_mulInt _ _).bind fun weighted _ => ?_
  exact (Decimal.onlyOverflow_divInt _ ha).bind fun share _ => Decimal.onlyOverflow_divInt _ hd

theorem onlyOverflow_yieldStep {a : A} {i : Nat} (x : YieldState A)
    (h : prevEnd ≤ s.endTimestampMs) (hd : denominator ≠ 0) :
    OnlyOverflow (yieldStep a numerator denominator i s prevEnd x) := by
  refine (onlyOverflow_takeIncoming _ _ _).bind fun taken _ => ?_
  refine ite (fun _ => within_ok _) fun hne => ?_
  refine (Snapshot.onlyOverflow_yieldFor h hne hd).bind fun credit _ => ?_
  exact (Decimal.onlyOverflow_add _ _).bind fun _ _ => within_ok _

theorem Accumulator.onlyOverflow_accumulate {a : Accumulator} {record : AccumulationRecord}
    (h : a.nextSnapshotIndex ≤ record.nextSnapshotIndex) : OnlyOverflow (a.accumulate record) := by
  refine (within_require h).bind fun _ _ => ?_
  simp only
  split
  · exact (onlyOverflow_add _ _ _).bind fun _ _ =>
      (onlyOverflow_add _ _ _).bind fun _ _ => within_ok _
  · exact (within_ok _).bind fun _ _ => (onlyOverflow_add _ _ _).bind fun _ _ => within_ok _

variable [DecidableEq A]

theorem SupplyPositionGuard.onlyOverflow_accumulateYield {g : SupplyPositionGuard A}
    {F : Multiset (Flight A)} {t : Nat} (h : (⟨g.drop, F, t⟩ : Books A).Sound) :
    OnlyOverflow g.accumulateYield := by
  have hp := position_of_drop h.supply
  obtain ⟨-, weight, hweight⟩ := h.started g.accountId g.position (AList.lookup_insert _)
  have hne : weight ≠ 0 := by
    have hpos := g.market.configuration.yieldWeights.supply_pos
    obtain ⟨-, rfl⟩ := YieldWeights.totalWeight_eq_ok.mp hweight
    simp only [drop]
    omega
  have hcalc : OnlyOverflow (g.calculateYield u32Max) := by
    refine (Market.within_previousEnd hp.next_pos hp.next_le).bind fun prevEnd hprev => ?_
    obtain ⟨-, -, hs₀⟩ := Market.previousEnd_eq_ok hprev
    have hw : g.market.configuration.yieldWeights.totalWeight = .ok weight := hweight
    rw [hw, ok_bind]
    have hloop : OnlyOverflow (accrueLoop
        (yieldStep g.accountId g.market.configuration.yieldWeights.supply weight)
        (g.market.pendingSnapshots g.position.borrowAssetYield.nextSnapshotIndex u32Max)
        g.position.borrowAssetYield.nextSnapshotIndex prevEnd
        ⟨g.position.borrowAssetDeposit.active, g.position.borrowAssetDeposit.incoming,
          Decimal.zero, []⟩) :=
      accrueLoop_within
        (fun k s prevEnd x hat => onlyOverflow_yieldStep x (h.wellFormed.ends k s prevEnd hat) hne)
        hp.next_pos hs₀
    exact hloop.bind fun state _ => (onlyOverflow_unwrapFit _).bind fun _ _ => within_ok _
  refine (within_require (by decide)).bind fun _ _ => hcalc.bind fun result hresult => ?_
  refine ((onlyOverflow_activateThrough _ _ _).bind fun _ _ => within_ok _).bind fun g₁ hg₁ => ?_
  -- The record starts at the position's own index, so it is never in the past.
  simp only [calculateYield, do_ok] at hresult
  obtain ⟨prevEnd, -, weight, -, state, -, amount, -, rfl⟩ := hresult
  obtain ⟨activated, -, rfl, rfl⟩ := bind_eq_ok.mp hg₁
  exact (Accumulator.onlyOverflow_accumulate (Nat.le_add_right _ _)).bind fun _ _ => within_ok _

end Accrual

namespace SupplyPositionGuard

variable {g : SupplyPositionGuard A} {amount now : Nat}

/-- What a position has waiting has an entry in the market that covers it. -/
theorem onlyOverflow_removeIncoming {k : Nat}
    (ho : Orderly k k g.position.borrowAssetDeposit.incoming)
    (hs : SingleEntry k g.market.borrowAssetDepositedIncoming)
    (hne : g.position.borrowAssetDeposit.incoming ≠ [] → g.market.borrowAssetDepositedIncoming ≠ [])
    (hle : waiting g.position.borrowAssetDeposit.incoming ≤
      waiting g.market.borrowAssetDepositedIncoming) : OnlyOverflow (g.removeIncoming amount) := by
  rcases ho.cases_one with hnil | ⟨v, hone⟩
  · rw [removeIncoming, hnil]
    exact within_ok _
  · rw [hone] at hne hle
    rcases hs with hnil | ⟨u, -, hentry⟩
    · exact absurd hnil (hne (by simp))
    · have hvu : v ≤ u := by simpa [hentry, waiting] using hle
      have hremove : removeFromMarket v k [⟨k, u⟩] = .ok [⟨k, u - v⟩] := by
        simp [removeFromMarket, unwrapSub, hvu]
      simp only [removeIncoming, hone, List.reverse_singleton, removeIncomingLoop, hentry, hremove,
        List.reverse_nil, ok_bind]
      refine (onlyOverflow_add _ _ _).bind fun total _ => ite (fun _ => within_ok _) fun _ => ?_
      refine ite (fun _ => ?_) fun _ => within_ok _
      have hposition : OnlyOverflow (addToPosition [] (total - amount) k) :=
        (within_require (by decide)).bind fun _ _ => within_ok _
      have hmarket : OnlyOverflow (addToMarket (total - amount) k [⟨k, u - v⟩]) := by
        refine ite (fun _ => ?_) fun hk => absurd rfl hk
        exact (onlyOverflow_add _ _ _).bind fun _ _ => within_ok _
      exact hposition.bind fun _ _ => hmarket.bind fun _ _ => within_ok _

/-- What a request takes out: no more than the position is entitled to, nor than is idle. -/
def withdrawable (g : SupplyPositionGuard A) (requested : Nat) : Nat :=
  min (min requested g.entitled) (min g.entitled (g.market.borrowAssetDepositedActive +
    g.market.borrowAssetPaidToFees - g.market.borrowAssetBorrowed +
    waiting g.position.borrowAssetDeposit.incoming))

/-- What of an amount goes to the account, unless its fee does not fit. -/
def payment (g : SupplyPositionGuard A) (now amount : Nat) : Option Nat :=
  g.position.startedAtBlockTimestampMs.bind fun startedAt =>
    match g.market.configuration.supplyWithdrawalFee.of amount (now - startedAt) with
    | .ok (some fee) => some (amount - min fee amount)
    | _ => none

/-- A request can be served or refused without an underflow: no more is lent than active
funds and fees together, and the balance covers what goes to the account. -/
def Payable (g : SupplyPositionGuard A) (now requested : Nat) : Prop :=
  g.entitled = 0 ∨
    g.market.borrowAssetBorrowed ≤
        g.market.borrowAssetDepositedActive + g.market.borrowAssetPaidToFees ∧
      ∀ n ∈ g.payment now (g.withdrawable requested), n ≤ g.market.borrowAssetBalance

theorem le_of_payment {n : Nat} (h : n ∈ g.payment now amount) : n ≤ amount := by
  obtain ⟨startedAt, -, h⟩ := Option.bind_eq_some_iff.mp h
  split at h
  · cases h
    exact Nat.sub_le _ _
  · cases h

theorem payWithdrawal_payment {r : Withdrawal A × SupplyPositionGuard A}
    (h : g.payWithdrawal amount now = .ok r) :
    ∃ n ≤ g.market.borrowAssetBalance, g.payment now amount = some n := by
  simp only [payWithdrawal, do_ok] at h
  obtain ⟨startedAt, hstart, _, hof, fee, rfl, _, ⟨hle, -⟩, -⟩ := h
  exact ⟨_, hle, by simp only [payment, hstart, Option.bind_some, hof]⟩

variable {E : Panic → Prop}

theorem within_payWithdrawal (hover : E .overflow) (hfee : E (.message feeOverflowText))
    (hstart : g.position.startedAtBlockTimestampMs.isSome)
    (hbal : E .underflow ∨ ∀ n ∈ g.payment now amount, n ≤ g.market.borrowAssetBalance) :
    Within E (g.payWithdrawal amount now) := by
  refine (within_expect hstart).bind fun startedAt hstarted => ?_
  refine (of_onlyOverflow (TimeBasedFee.onlyOverflow_of _ _ _) hover).bind fun fee hof => ?_
  refine (within_expect_or fee hfee).bind fun fee hfee => ?_
  obtain rfl := expect_eq_ok.mp hfee
  have hpaid : g.payment now amount = some (amount - min fee amount) := by
    simp only [payment, expect_eq_ok.mp hstarted, Option.bind_some, hof]
  refine (within_sub_or (hbal.imp_right fun h => h _ hpaid)).bind fun balance _ => ?_
  exact (of_onlyOverflow (onlyOverflow_add _ _ _) hover).bind fun _ _ => within_ok _

variable [DecidableEq A]

/-- Nothing a position is entitled to is missing when it is removed. -/
theorem onlyOverflow_removeWithdrawal (h : g.drop.SupplyAgrees) (hg : g.Accrued)
    (ha : amount ≤ g.entitled) : OnlyOverflow (g.removeWithdrawal amount
      (min g.position.borrowAssetYield.total g.market.borrowAssetPaidToFees)
      (waiting g.position.borrowAssetDeposit.incoming)) := by
  have ho := orderly_of_accrued h hg
  have hp := position_of_drop h
  have hlook : g.drop.supplyPositions.lookup g.accountId = some g.position := AList.lookup_insert _
  have hwaiting := h.expectedAt_le hlook
  have hactive := h.heldAt_le hlook
  have hheld := heldAt_of_accrued h hg
  have hdue := ho.dueAt_eq_waiting
  simp only [expectedAt, drop, hdue] at hwaiting
  simp only [drop, hheld] at hactive
  have hne : g.position.borrowAssetDeposit.incoming ≠ [] →
      g.market.borrowAssetDepositedIncoming ≠ [] := by
    intro hne
    obtain ⟨d, hd⟩ := List.exists_mem_of_ne_nil _ hne
    have hb := ho.bounds d hd
    exact hp.entry d hd (by omega)
  unfold entitled at ha
  refine (onlyOverflow_add _ _ _).bind fun outgoing _ => ?_
  refine ((within_sub (by omega)).bind fun _ _ => within_ok _).bind fun yield _ => ?_
  refine (within_sub (by omega)).bind fun paidToFees _ => ?_
  refine (within_sub (by omega)).bind fun rest hrest => ?_
  obtain ⟨-, rfl⟩ := sub_eq_ok.mp hrest
  refine bind ?_ fun g₁ hg₁ => ?_
  · exact onlyOverflow_removeIncoming ho h.single hne hwaiting
  obtain ⟨incoming, entries, -, -, -, -, -, -, rfl⟩ :=
    removeIncoming_eq_ok hg₁ ho h.single (Nat.min_le_left _ _)
  refine (within_sub (by omega)).bind fun rest' hrest' => ?_
  obtain ⟨-, rfl⟩ := sub_eq_ok.mp hrest'
  refine ite (fun _ => within_ok _) fun _ => ?_
  exact (within_sub (by simp only; omega)).bind fun _ _ =>
    (within_sub (by simp only; omega)).bind fun _ _ => within_ok _

theorem removeWithdrawal_keeps {g' : SupplyPositionGuard A} (h : g.drop.SupplyAgrees)
    (hg : g.Accrued) (hr : g.removeWithdrawal amount
      (min g.position.borrowAssetYield.total g.market.borrowAssetPaidToFees)
      (waiting g.position.borrowAssetDeposit.incoming) = .ok g') :
    g'.position.startedAtBlockTimestampMs = g.position.startedAtBlockTimestampMs ∧
      (∀ now amount, g'.payment now amount = g.payment now amount) ∧
      g'.market.borrowAssetBalance = g.market.borrowAssetBalance := by
  obtain ⟨fy, fi, fa, incoming, entries, -, -, -, -, -, -, -, -, -, -, -, -, rfl⟩ :=
    removeWithdrawal_eq_ok hr (orderly_of_accrued h hg) h.single
  exact ⟨rfl, fun _ _ => rfl, rfl⟩

/-- An attempt aborts on an overflow, in the fee, or, unless the request is payable, on an
underflow. -/
theorem within_recordWithdrawalInitial {requested t : Nat} {F : Multiset (Flight A)}
    (hover : E .overflow) (hfee : E (.message feeOverflowText))
    (h : (⟨g.drop, F, t⟩ : Books A).Sound) (hg : g.Accrued)
    (hpay : E .underflow ∨ g.Payable now requested) :
    Within E (g.recordWithdrawalInitial requested now) := by
  have add_within : ∀ a b, Within E (add 128 a b) := fun a b =>
    of_onlyOverflow (onlyOverflow_add _ _ _) hover
  have hstart := (h.started g.accountId g.position (AList.lookup_insert _)).1
  refine (of_onlyOverflow (onlyOverflow_totalOf _ _) hover).bind fun myIncoming hin => ?_
  have hwaiting := totalOf_eq_ok hin
  rw [Nat.zero_add] at hwaiting
  subst hwaiting
  refine (add_within _ _).bind fun deposited hdep => (add_within _ _).bind fun ent hent => ?_
  obtain ⟨-, rfl⟩ := add_eq_ok.mp hdep
  obtain ⟨-, rfl⟩ := add_eq_ok.mp hent
  refine ite (fun _ => within_ok _) fun hne => ?_
  -- The position is entitled to something, so only the second case of payable is left.
  have hpay : E .underflow ∨ _ := hpay.imp_right fun hp => hp.resolve_left hne
  refine (add_within _ _).bind fun funds hfunds => ?_
  obtain ⟨-, rfl⟩ := add_eq_ok.mp hfunds
  refine (within_sub_or (hpay.imp_right And.left)).bind fun idle hidle => ?_
  obtain ⟨-, rfl⟩ := sub_eq_ok.mp hidle
  refine (add_within _ _).bind fun available havail => ?_
  obtain ⟨-, rfl⟩ := add_eq_ok.mp havail
  refine ite (fun _ => within_ok _) fun _ => ?_
  refine bind (of_onlyOverflow (onlyOverflow_removeWithdrawal h.supply hg ?_) hover)
    fun g₁ hg₁ => ?_
  · exact Nat.le_trans (Nat.min_le_left _ _) (Nat.min_le_right _ _)
  obtain ⟨hstart₁, hpayment₁, hbalance₁⟩ := removeWithdrawal_keeps h.supply hg hg₁
  rw [← hstart₁] at hstart
  refine (within_payWithdrawal hover hfee hstart ?_).bind fun result _ => ?_
  · refine hpay.imp_right fun hp => ?_
    rw [hbalance₁, hpayment₁]
    exact hp.2
  · exact ite (fun _ => within_ok _) fun _ => within_ok _

/-- An attempt that returns was for a payable request. -/
theorem payable_of_recordWithdrawalInitial {requested : Nat}
    {r : WithdrawalAttempt A × SupplyPositionGuard A} (h : g.drop.SupplyAgrees) (hg : g.Accrued)
    (hr : g.recordWithdrawalInitial requested now = .ok r) : g.Payable now requested := by
  simp only [recordWithdrawalInitial, do_ok] at hr
  obtain ⟨myIncoming, hin, _, ⟨-, rfl⟩, _, ⟨-, rfl⟩, hr⟩ := hr
  have hwaiting := totalOf_eq_ok hin
  rw [Nat.zero_add] at hwaiting
  subst hwaiting
  split at hr
  · exact .inl (by assumption)
  simp only [do_ok] at hr
  obtain ⟨_, ⟨-, rfl⟩, _, ⟨hlent, rfl⟩, _, ⟨-, rfl⟩, hr⟩ := hr
  refine .inr ⟨hlent, ?_⟩
  intro n hn
  split at hr
  · -- nothing is idle, so nothing is paid
    have := le_of_payment hn
    unfold withdrawable entitled at this
    omega
  · simp only [do_ok] at hr
    obtain ⟨g₁, hg₁, paid, hpaid, -⟩ := hr
    obtain ⟨-, hpayment, hbalance⟩ := removeWithdrawal_keeps h hg hg₁
    obtain ⟨n', hle, hn'⟩ := payWithdrawal_payment hpaid
    rw [hpayment] at hn'
    cases hn'.symm.trans hn
    exact hbalance ▸ hle

end SupplyPositionGuard

section Loop

variable [DecidableEq A] {E : Panic → Prop} {x : Market.Execution A}
variable {F : Multiset (Flight A)} {t : Nat}

theorem Market.Execution.onlyOverflow_popHead {requested : Nat}
    (h : x.market.withdrawalQueue.Sound) : OnlyOverflow (x.popHead requested) := by
  obtain ⟨head, q, hq⟩ := h.pop
  rw [popHead, hq, ok_bind]
  exact (onlyOverflow_add _ _ _).bind fun _ _ => within_ok _

namespace Booked

theorem within_visit {a : A} {requested : Nat} (hover : E .overflow)
    (hfee : E (.message feeOverflowText))
    (h : Booked Conditions.none ⟨x.market, F, t⟩) (hr : requested ≠ 0)
    (hc : ∀ g g', x.market.supplyPositionGuard a = some g → g.accumulateYield = .ok g' →
      E .underflow ∨ g'.Payable t requested) :
    Within E (x.visit t a requested) := by
  have pop_within : ∀ x' : Market.Execution A, x'.market.withdrawalQueue.Sound →
      Within E (x'.popHead requested) := fun x' hq =>
    of_onlyOverflow (Market.Execution.onlyOverflow_popHead hq) hover
  unfold Market.Execution.visit
  cases hg : x.market.supplyPositionGuard a with
  | none => exact (pop_within x h.sound.wellFormed.queue).bind fun _ _ => within_ok _
  | some g =>
    obtain ⟨h₁, -, -⟩ := h.openSupply hg
    refine (of_onlyOverflow (onlyOverflow_accumulateYield h₁.sound) hover).bind fun g₁ hg₁ => ?_
    obtain ⟨h₂, hacc, -⟩ := h₁.accumulateYield hg₁
    refine (within_recordWithdrawalInitial hover hfee h₂.sound hacc
      (hc g g₁ hg hg₁)).bind fun attempted hattempt => ?_
    obtain ⟨attempt, g₂⟩ := attempted
    have hidle := recordWithdrawalInitial_idle hattempt
    have hstarted : ∀ w, attempt.withdrawal = some w → g₂.drop.withdrawalQueue.Sound := fun w hw =>
      (h₂.move (.supply (.withdraw hacc hr trivial hattempt hw))).sound.wellFormed.queue
    cases attempt with
    | emptyPosition =>
      rw [hidle rfl]
      exact (pop_within _ h₂.sound.wellFormed.queue).bind fun _ _ => within_ok _
    | noLiquidity => exact within_ok _
    | full w => exact (pop_within _ (hstarted w rfl)).bind fun _ _ => within_ok _
    | partially w remaining =>
      obtain ⟨reply, q, hq⟩ := (hstarted w rfl).mutHead fun _ => ((), remaining)
      simp only [hq, ok_bind]
      refine (within_sub (remaining_bounds hattempt).2).bind fun cleared _ => ?_
      exact (of_onlyOverflow (onlyOverflow_add _ _ _) hover).bind fun _ _ => within_ok _

theorem within_executeLoop {remaining : Nat} (hover : E .overflow)
    (hfee : E (.message feeOverflowText))
    (h : Booked Conditions.none ⟨x.market, F, t⟩)
    (hc : LoopMeets (fun g requested => E .underflow ∨ g.Payable t requested) t remaining x) :
    Within E (Market.executeLoop t remaining x) := by
  induction remaining generalizing x F with
  | zero =>
    obtain ⟨head, hpeek⟩ := h.sound.wellFormed.queue.peek
    rw [Market.executeLoop, hpeek, ok_bind]
    exact within_ok _
  | succ remaining ih =>
    obtain ⟨head, hpeek⟩ := h.sound.wellFormed.queue.peek
    rw [Market.executeLoop, hpeek, ok_bind]
    cases head with
    | none => exact within_ok _
    | some request =>
      obtain ⟨a, requested⟩ := request
      obtain ⟨hcond, hnext⟩ := hc a requested hpeek
      obtain ⟨hr, l, hl⟩ := h.sound.wellFormed.queue.peek_some hpeek
      refine (h.within_visit hover hfee hr hcond).bind fun visited hvisit => ?_
      obtain ⟨continues, x₁⟩ := visited
      cases continues with
      | false => exact within_ok _
      | true =>
        obtain ⟨added, _, _, -, h₁, -⟩ := h.visit hr hl (fun _ _ _ _ => trivial) hvisit
        exact ih h₁ (hnext x₁ hvisit)

/-- A loop that returns has visited payable requests only. -/
theorem payable_of_executeLoop {remaining : Nat} {x' : Market.Execution A}
    (h : Booked Conditions.none ⟨x.market, F, t⟩)
    (hx : Market.executeLoop t remaining x = .ok x') :
    LoopMeets (fun g requested => g.Payable t requested) t remaining x := by
  induction remaining generalizing x F with
  | zero => trivial
  | succ remaining ih =>
    intro a requested hpeek
    rw [Market.executeLoop, hpeek, ok_bind] at hx
    obtain ⟨⟨continues, x₁⟩, hvisit, hx⟩ := bind_eq_ok.mp hx
    obtain ⟨hr, l, hl⟩ := h.sound.wellFormed.queue.peek_some hpeek
    obtain ⟨added, _, _, -, h₁, -⟩ := h.visit hr hl (fun _ _ _ _ => trivial) hvisit
    constructor
    · intro g g₁ hg hg₁
      obtain ⟨h₂, -, -⟩ := h.openSupply hg
      obtain ⟨h₃, hacc, -⟩ := h₂.accumulateYield hg₁
      simp only [Market.Execution.visit, hg, hg₁, ok_bind] at hvisit
      obtain ⟨attempt, hattempt, -⟩ := bind_eq_ok.mp hvisit
      exact payable_of_recordWithdrawalInitial h₃.sound.supply hacc hattempt
    · intro x₂ hx₂
      cases hvisit.symm.trans hx₂
      exact ih h₁ hx

theorem within_executeNext {m : Market A} {env : Env} {batchLimit : Option Nat}
    (hover : E .overflow) (hfee : E (.message feeOverflowText))
    (h : Booked Conditions.none ⟨m, F, env.blockTimestampMs⟩)
    (hc : ∀ m', m.snapshot env.blockTimestampMs = .ok m' →
      LoopMeets (fun g requested => E .underflow ∨ g.Payable env.blockTimestampMs requested)
        env.blockTimestampMs (batchLimit.getD 1) ⟨m', [], 0⟩) :
    Within E (m.executeNextSupplyWithdrawalRequest env batchLimit) := by
  refine (of_onlyOverflow (Market.onlyOverflow_snapshot h.sound.wellFormed) hover).bind
    fun m₁ hm₁ => ?_
  have h₁ := h.snapshot hm₁
  refine (within_executeLoop (x := ⟨m₁, [], 0⟩) hover hfee h₁ (hc m₁ hm₁)).bind fun x₁ hx₁ => ?_
  obtain ⟨f, hf, -⟩ := h₁.sound.wellFormed.queue
  obtain ⟨added, depth, l, -, -, -, hcleared, hl, -⟩ := h₁.executeLoop (x := ⟨m₁, [], 0⟩) ⟨f, hf, rfl⟩
    (loopMeets_none (fun _ _ => trivial) _ _ _) hx₁
  have hlen : x₁.market.withdrawalQueue.len ≤ m₁.withdrawalQueue.len := by
    rw [hl.len, (WithdrawalQueue.observes_of_refines hf).len]
    exact hcleared.length_le
  exact (within_sub hlen).bind fun _ _ => ite (fun _ => within_ok _) fun _ => within_ok _

end Booked

end Loop

section Results

variable [DecidableEq A] {s : System A} {m : Market A}

omit [DecidableEq A] in
theorem SingleEntry.incomingAt {n : Nat} (h : SingleEntry n m.borrowAssetDepositedIncoming)
    (k : Nat) : m.incomingAt k = dueAt k m.borrowAssetDepositedIncoming := by
  unfold Market.incomingAt
  rcases h with hl | ⟨v, -, hl⟩
  · rw [hl]
    rfl
  · rw [hl]
    by_cases hk : n = k <;> simp [dueAt, hk]

/-- What positions hold by the last snapshot is the market's active amount, and what they
expect at a later one is the market's entry for it. -/
theorem SupplyBooks.totals (h : m.SupplyAgrees) :
    total (heldAt m.finalizedSnapshots.length) m.supplyPositions =
        m.borrowAssetDepositedActive ∧
      ∀ k, m.finalizedSnapshots.length < k →
        total (expectedAt k) m.supplyPositions = m.incomingAt k := by
  refine ⟨h.active_eq, ?_⟩
  intro k hk
  rw [h.single.incomingAt, h.single.dueAt_eq]
  split
  · rename_i hnext
    rw [hnext]
    exact h.waiting_eq
  · apply total_eq_zero
    intro a p hp
    exact (h.position a p hp).orderly.dueAt_of_lt (Or.inr (by omega))

/-- An execution at a later time, in the books of the state it starts in. -/
theorem System.Reachable.booked_at (h : s.Reachable) {time : Nat} (ht : s.time ≤ time)
    (hlt : time < 2 ^ 64) : Booked Conditions.none ⟨s.market, flightsOf s.pending, time⟩ :=
  h.booked.move (.tick ht hlt)

/-- The totals agree with the positions in every run, and the two aborts that would
report a disagreement never happen. -/
theorem supply_aggregates_agree (h : s.Reachable) :
    total (heldAt s.market.finalizedSnapshots.length) s.market.supplyPositions =
        s.market.borrowAssetDepositedActive ∧
      (∀ k, s.market.finalizedSnapshots.length < k →
        total (expectedAt k) s.market.supplyPositions = s.market.incomingAt k) ∧
      ∀ env batchLimit, s.time ≤ env.blockTimestampMs →
        Within (fun e => e ≠ .message missingEntryText ∧
            e ≠ .message ("Arithmetic underflow: " ++ entryUnderflowText))
          (s.market.executeNextSupplyWithdrawalRequest env batchLimit) := by
  obtain ⟨hheld, hexpected⟩ := SupplyBooks.totals h.booked.sound.supply
  refine ⟨hheld, hexpected, ?_⟩
  intro env batchLimit ht
  have hwithin : Within (fun e => e = .overflow ∨ e = .underflow ∨ e = .message feeOverflowText)
      (s.market.executeNextSupplyWithdrawalRequest env batchLimit) :=
    Booked.within_executeNext (Or.inl rfl) (Or.inr (Or.inr rfl))
      (h.booked_at ht env.blockTimestampMs_lt)
      (fun m _ => loopMeets_none (fun _ _ => Or.inl (Or.inr (Or.inl rfl))) _ _ _)
  refine hwithin.mono ?_
  rintro e (rfl | rfl | rfl) <;> decide

/-- Two positions, of which the second has not accrued since its deposit became active. -/
theorem supply_aggregates_agree_sample : ∃ (s : System Nat) (p : SupplyPosition), s.Reachable ∧
      s.market.supplyPositions.lookup 2 = some p ∧ p.borrowAssetDeposit.active = 0 ∧
      total (heldAt s.market.finalizedSnapshots.length) s.market.supplyPositions = 150 := by
  obtain ⟨s, hs, hactive, p, hp, hidle⟩ : ∃ s : System Nat, s.Reachable ∧
      s.market.borrowAssetDepositedActive = 150 ∧
      ∃ p, s.market.supplyPositions.lookup 2 = some p ∧ p.borrowAssetDeposit.active = 0 :=
    exists_reachable sampleConfiguration 1000
      (activeSupply ++ [supplyAction 2000 2 50, .call (sampleEnv 3000) (.harvestYield 1 none none)])
      (by decide +kernel) (by decide) (by decide)
  exact ⟨s, p, hs, hp, hidle, (supply_aggregates_agree hs).1.trans hactive⟩

/-- An execution whose requests are all payable aborts on an overflow at most, and one that returns
has visited payable requests only. -/
theorem execution_completes_of_payable (h : s.Reachable) {env : Env} {batchLimit : Option Nat}
    (ht : s.time ≤ env.blockTimestampMs) :
    let AllPayable := ∀ m, s.market.snapshot env.blockTimestampMs = .ok m →
      LoopMeets (fun g requested => g.Payable env.blockTimestampMs requested) env.blockTimestampMs
        (batchLimit.getD 1) ⟨m, [], 0⟩
    (AllPayable → Within (fun e => e = .overflow ∨ e = .message feeOverflowText)
      (s.market.executeNextSupplyWithdrawalRequest env batchLimit)) ∧
    ((s.market.executeNextSupplyWithdrawalRequest env batchLimit).isOk = true → AllPayable) := by
  have hb := h.booked_at ht env.blockTimestampMs_lt
  constructor
  · intro hpay
    refine hb.within_executeNext (Or.inl rfl) (Or.inr rfl) ?_
    intro m hm
    exact (hpay m hm).mono fun _ _ hp => Or.inr hp
  · intro hok m hm
    cases hx : Market.executeLoop env.blockTimestampMs (batchLimit.getD 1) ⟨m, [], 0⟩ with
    | error e =>
      simp only [Market.executeNextSupplyWithdrawalRequest, hm, hx, ok_bind, error_bind] at hok
      cases hok
    | ok x => exact (hb.snapshot hm).payable_of_executeLoop hx

omit [DecidableEq A] in
instance SupplyPositionGuard.decidablePayable (g : SupplyPositionGuard A) (now requested : Nat) :
    Decidable (g.Payable now requested) := inferInstanceAs (Decidable (_ ∨ _ ∧ ∀ n ∈ _, _))

/-- With all funds idle the whole deposit can be withdrawn. -/
theorem execution_completes_of_payable_sample :
    ∃ s : System Nat, s.Reachable ∧ s.market.withdrawalQueue.len = 1 ∧
      Within (fun e => e = .overflow ∨ e = .message feeOverflowText)
        (s.market.executeNextSupplyWithdrawalRequest (sampleEnv 3000) none) := by
  obtain ⟨s, hs, ht, hlen, m', hm', htest⟩ : ∃ s : System Nat, s.Reachable ∧ s.time ≤ 3000 ∧
      s.market.withdrawalQueue.len = 1 ∧ ∃ m, s.market.snapshot 3000 = .ok m ∧
        loopTest (fun g requested => decide (g.Payable 3000 requested)) 3000 1 ⟨m, [], 0⟩ = true :=
    exists_reachable sampleConfiguration 1000 (activeSupply ++ [requestAction 2000 1 100])
      (by decide +kernel) (by decide) (by decide)
  refine ⟨s, hs, hlen, (execution_completes_of_payable hs ht).1 ?_⟩
  intro m hm
  cases hm'.symm.trans hm
  exact (loopMeets_of_test htest).mono fun _ _ hp => of_decide_eq_true hp

/-- While a borrow is in flight its amount has left the balance but still counts as idle:
the withdrawal of the whole deposit aborts, and with it the head of the queue is stuck. -/
theorem execution_aborts_on_balance : ∃ s : System Nat, s.Reachable ∧ s.time ≤ 3000 ∧
      s.market.executeNextSupplyWithdrawalRequest (sampleEnv 3000) none = .error .underflow := by
  exact exists_reachable sampleConfiguration 1000
    (activeSupply ++ collateralActions 2000 2 1000 ++
      borrowActions 2000 2 60 0 ++ [requestAction 2000 1 100])
    (by decide +kernel) (by decide) (by decide)

end Results

end Templar.Lending
