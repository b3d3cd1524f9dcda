import Templar.Vault.Invariant

/-!
# Settlements

What becomes of an escrow when fewer assets are there than were expected: shares are burned in
proportion to what is paid, rounded up, and the rest goes back to the owner. The kernel has several
copies of this rule, and two of the payout that follows it.
-/

namespace Templar.Vault

open Checked Number

/-- The escrow module's copy of `computeSettlement`. -/
def settleProportionalRaw (shares expectedAssets actualAssets : Nat) : EscrowSettlement :=
  if shares = 0 then ⟨0, 0⟩
  else if actualAssets = 0 then .refundAll shares
  else if expectedAssets = 0 then .refundAll shares
  else if expectedAssets ≤ actualAssets then .burnAll shares
  else
    let toBurn := asU128Trunc (mulDivCeil shares actualAssets expectedAssets)
    ⟨toBurn, shares - toBurn⟩

variable {e x a : Nat}

theorem ceilDiv_min_le (e x a : Nat) : (e * min a x) ⌈/⌉ x ≤ e := by
  rcases Nat.eq_zero_or_pos x with rfl | hx
  · simp
  · rw [ceilDiv_le_iff_le_mul hx, Nat.mul_comm x]
    exact Nat.mul_le_mul_left _ (Nat.min_le_right _ _)

theorem computeSettlement_eq (he : e < 2 ^ 128) (ha : a < 2 ^ 128) :
    computeSettlement e x a = ⟨(e * min a x) ⌈/⌉ x, e - (e * min a x) ⌈/⌉ x⟩ := by
  have hle := ceilDiv_min_le e x a
  unfold computeSettlement
  by_cases he0 : e = 0
  · simp [he0]
  rw [if_neg he0]
  by_cases ha0 : a = 0
  · simp [ha0, EscrowSettlement.refundAll]
  rw [if_neg ha0]
  by_cases hx0 : x = 0
  · simp [hx0, EscrowSettlement.refundAll]
  rw [if_neg hx0]
  by_cases hfull : x ≤ a
  · have hall : (e * x) ⌈/⌉ x = e := rounded_self_right e x true (Nat.pos_of_ne_zero hx0)
    rw [if_pos hfull, Nat.min_eq_right hfull, hall, Nat.sub_self]
    rfl
  · have hmin : min a x = a := Nat.min_eq_left (Nat.le_of_not_le hfull)
    rw [hmin] at hle ⊢
    have hceil : mulDivCeil e a x = (e * a) ⌈/⌉ x := mulDivWithRounding_of_lt he ha x true
    rw [if_neg hfull, hceil, asU128Trunc_of_lt (hle.trans_lt he)]

theorem computeSettlement_full (he : e < 2 ^ 128) (ha : a < 2 ^ 128) (hx : 0 < x) (hfull : x ≤ a) :
    computeSettlement e x a = .burnAll e := by
  have hall : (e * x) ⌈/⌉ x = e := rounded_self_right e x true hx
  rw [computeSettlement_eq he ha, Nat.min_eq_right hfull, hall, Nat.sub_self]
  rfl

theorem toBurn_mul_ge (he : e < 2 ^ 128) (ha : a < 2 ^ 128) :
    min a x * e ≤ (computeSettlement e x a).toBurn * x := by
  rw [computeSettlement_eq he ha]
  rcases Nat.eq_zero_or_pos x with rfl | hx
  · simp
  · have hle := (ceilDiv_le_iff_le_mul hx).mp (Nat.le_refl ((e * min a x) ⌈/⌉ x))
    rw [Nat.mul_comm x] at hle
    rw [Nat.mul_comm]
    exact hle

theorem computeIdleSettlement_eq_iff (he : e < 2 ^ 128) (ha : a < 2 ^ 128) :
    computeIdleSettlement e x a =
      (if a = 0 ∧ 0 < x then none else some ⟨min a x, computeSettlement e x a⟩) ↔
        0 < x ∨ e = 0 ∨ a = 0 := by
  unfold computeIdleSettlement
  rcases Nat.eq_zero_or_pos x with rfl | hx
  · -- one copy burns, the other refunds: the same only if there is no escrow or nothing to pay with
    rw [computeSettlement_eq he ha]
    by_cases ha0 : a = 0
    · simp [ha0, EscrowSettlement.refundAll]
    · simp [ha0, Nat.pos_of_ne_zero ha0, EscrowSettlement.burnAll, eq_comm]
  · simp only [hx.ne', hx, ↓reduceIte, and_true, true_or, iff_true]
    by_cases hfull : x ≤ a
    · have ha0 : a ≠ 0 := by omega
      rw [if_pos hfull, if_neg ha0, Nat.min_eq_right hfull, computeSettlement_full he ha hx hfull]
    · rw [if_neg hfull, Nat.min_eq_left (Nat.le_of_not_le hfull)]

section Payout

variable {A : Type} [DecidableEq A] {s : VaultState A} {p : PayoutState A} {selfId : A}
  {outcome : PayoutOutcome} {r : KernelResult A}

/-- The shares to burn exist, and the amount is idle. -/
def VaultState.CanPay (s : VaultState A) (p : PayoutState A) : Prop :=
  p.burnShares ≤ s.totalShares ∧ p.amount ≤ s.idleAssets ∧
    s.idleAssets - p.amount + s.externalAssets < 2 ^ 128

instance : Decidable (s.CanPay p) := inferInstanceAs (Decidable (_ ∧ _))

theorem handleSettlePayout_ok (hop : s.opState = .payout p) (hwf : s.withdrawQueue.Wf)
    (hhead : validateQueueHead s.withdrawQueue p.requestId p.owner p.receiver p.escrowShares = .ok ())
    (hle : p.burnShares ≤ p.escrowShares) (hpay : outcome = .success → s.CanPay p) :
    ∃ r, handleSettlePayout s selfId p.opId outcome = .ok r := by
  obtain ⟨w, hw, -⟩ := validateQueueHead_eq_ok.mp hhead
  obtain ⟨rest, he⟩ := hwf.entries_of_head hw
  obtain ⟨queue, hq, -⟩ := hwf.dequeue_of_cons he
  unfold handleSettlePayout
  split
  case h_2 hother => exact absurd hop (hother p)
  rename_i p' hop'
  cases hop.symm.trans hop'
  simp only [do_ok, checkOpId_eq_ok, applyPayoutSettlement, burnSettledShares_eq_ok, orAbort_eq_ok,
    true_and]
  cases outcome with
  | success =>
    obtain ⟨hshares, hidle, hfits⟩ := hpay rfl
    have hpaid : paySettledAssets { s with totalShares := s.totalShares - p.burnShares } p.amount true =
        .ok { s with
          totalShares := s.totalShares - p.burnShares
          idleAssets := s.idleAssets - p.amount
          totalAssets := s.idleAssets - p.amount + s.externalAssets } := by
      simp only [paySettledAssets, ↓reduceIte, do_ok, checkedSub_eq_some,
        VaultState.syncTotalAssets_eq_ok]
      exact ⟨_, ⟨hidle, rfl⟩, hfits, rfl⟩
    simp only [planPayoutSettlement, do_ok, checkedSub_eq_some]
    exact ⟨_, hhead, _, ⟨_, ⟨hle, rfl⟩, rfl⟩, _, ⟨_, ⟨hshares, rfl⟩, _, hpaid, rfl⟩, _, hq, rfl⟩
  | failure =>
    exact ⟨_, hhead, _, rfl, _, ⟨_, ⟨Nat.zero_le _, rfl⟩, _, rfl, rfl⟩, _, hq, rfl⟩

theorem payoutComplete_of_settled (hop : s.opState = .payout p)
    (h : handleSettlePayout s selfId p.opId outcome = .ok r) :
    payoutComplete s.opState (outcome = .success) p.opId selfId = .ok ⟨.idle, r.effects⟩ := by
  obtain ⟨p', o, queue, hop', -, -, hr⟩ := handleSettlePayout_eq_ok h
  cases hop.symm.trans hop'
  rw [hop]
  cases outcome with
  | success =>
    obtain ⟨hle, -, -, -, rfl⟩ := hr
    simp [payoutComplete, requirePayout, requireOpId, ensure, hle, ok_bind]
  | failure =>
    cases hr
    simp [payoutComplete, requirePayout, requireOpId, ensure]

omit [DecidableEq A] in
theorem payoutComplete_ok (hop : s.opState = .payout p) (hle : p.burnShares ≤ p.escrowShares) :
    ∃ effects, payoutComplete s.opState (outcome = .success) p.opId selfId = .ok ⟨.idle, effects⟩ := by
  cases outcome with
  | success => simp [hop, payoutComplete, requirePayout, requireOpId, ensure, hle, ok_bind]
  | failure => simp [hop, payoutComplete, requirePayout, requireOpId, ensure]

/-- Where the action settles a payout it emits what the transition emits. It refuses a success that
the vault cannot pay, which the transition does not look at. -/
theorem settled_effects_eq (hop : s.opState = .payout p) (hwf : s.withdrawQueue.Wf)
    (hhead : validateQueueHead s.withdrawQueue p.requestId p.owner p.receiver p.escrowShares = .ok ())
    (hle : p.burnShares ≤ p.escrowShares) :
    ∃ effects, payoutComplete s.opState (outcome = .success) p.opId selfId = .ok ⟨.idle, effects⟩ ∧
      (handleSettlePayout s selfId p.opId outcome).toOption.map KernelResult.effects =
        if outcome = .success ∧ ¬ s.CanPay p then none else some effects := by
  by_cases hrefused : outcome = .success ∧ ¬ s.CanPay p
  · have hcomplete : ∃ effects, payoutComplete s.opState (outcome = .success) p.opId selfId =
        .ok ⟨.idle, effects⟩ := payoutComplete_ok hop hle
    obtain ⟨effects, hcomplete⟩ := hcomplete
    refine ⟨effects, hcomplete, ?_⟩
    rw [if_pos hrefused]
    obtain ⟨rfl, hcannot⟩ := hrefused
    cases h : handleSettlePayout s selfId p.opId .success with
    | error fault => rfl
    | ok r =>
      obtain ⟨p', _, _, hop', -, -, -, hshares, hidle, hfits, -⟩ := handleSettlePayout_eq_ok h
      cases hop.symm.trans hop'
      exact absurd ⟨hshares, hidle, hfits⟩ hcannot
  · have hsettles : ∃ r, handleSettlePayout s selfId p.opId outcome = .ok r :=
      handleSettlePayout_ok hop hwf hhead hle fun hsuccess =>
        Decidable.not_not.mp fun hcannot => hrefused ⟨hsuccess, hcannot⟩
    obtain ⟨r, hr⟩ := hsettles
    refine ⟨r.effects, payoutComplete_of_settled hop hr, ?_⟩
    rw [if_neg hrefused, hr]
    rfl

end Payout

/-- The rule is written down three times, for the queue, for the escrow and for a payout from the idle
assets, and the payout itself twice. The copies agree, the idle one unless it burns an escrow that
expects nothing; what leaves is never cheaper than the requested rate. -/
theorem settlements_agree (he : e < 2 ^ 128) (ha : a < 2 ^ 128) :
    settleProportionalRaw e x a = computeSettlement e x a ∧
      (computeSettlement e x a).toBurn + (computeSettlement e x a).refund = e ∧
      (∀ b < 2 ^ 128, a ≤ b → (computeSettlement e x a).toBurn ≤ (computeSettlement e x b).toBurn) ∧
      (0 < x → x ≤ a → (computeSettlement e x a).toBurn = e) ∧
      (0 < e → 0 < a → 0 < x → 0 < (computeSettlement e x a).toBurn) ∧
      min a x * e ≤ (computeSettlement e x a).toBurn * x ∧
      (a * e ≤ (computeSettlement e x a).toBurn * x ↔ a ≤ x ∨ e = 0) ∧
      (computeIdleSettlement e x a =
        (if a = 0 ∧ 0 < x then none else some ⟨min a x, computeSettlement e x a⟩) ↔
          0 < x ∨ e = 0 ∨ a = 0) ∧
      ∀ {A : Type} [DecidableEq A] (s : VaultState A) (selfId : A) (p : PayoutState A)
        (outcome : PayoutOutcome), s.opState = .payout p → s.withdrawQueue.Wf →
        validateQueueHead s.withdrawQueue p.requestId p.owner p.receiver p.escrowShares = .ok () →
        p.burnShares ≤ p.escrowShares →
        ∃ effects, payoutComplete s.opState (outcome = .success) p.opId selfId = .ok ⟨.idle, effects⟩ ∧
          (handleSettlePayout s selfId p.opId outcome).toOption.map KernelResult.effects =
            if outcome = .success ∧ ¬ s.CanPay p then none else some effects := by
  have hburn := ceilDiv_min_le e x a
  have hrate := toBurn_mul_ge (x := x) he ha
  refine ⟨rfl, ?_, ?_, fun hx hfull => ?_, ?_, hrate, ?_, computeIdleSettlement_eq_iff he ha,
    fun s selfId p outcome hop hwf hhead hle => settled_effects_eq hop hwf hhead hle⟩
  · rw [computeSettlement_eq he ha]
    exact Nat.add_sub_cancel' hburn
  · intro b hb hab
    rw [computeSettlement_eq he ha, computeSettlement_eq he hb]
    have hmin : min a x ≤ min b x := by omega
    exact Nat.div_le_div_right (by have := Nat.mul_le_mul_left e hmin; omega)
  · rw [computeSettlement_full he ha hx hfull]
    rfl
  · intro he0 ha0 hx0
    rw [computeSettlement_eq he ha]
    have hprod : 0 < e * min a x := Nat.mul_pos he0 (by omega)
    by_contra hz
    have hle := (ceilDiv_le_iff_le_mul hx0).mp (Nat.le_of_not_lt hz)
    omega
  · constructor
    · intro hall
      by_contra hnot
      rw [not_or, Nat.not_le] at hnot
      -- more is there than expected, so all of the escrow is burned and no more
      have hle : (computeSettlement e x a).toBurn ≤ e := by
        rw [computeSettlement_eq he ha]
        exact hburn
      have hlt := Nat.mul_lt_mul_of_pos_right hnot.1 (Nat.pos_of_ne_zero hnot.2)
      have hmul := Nat.mul_le_mul_right x hle
      rw [Nat.mul_comm e x] at hmul
      omega
    · rintro (hax | rfl)
      · rwa [Nat.min_eq_left hax] at hrate
      · simp

/-- A request of ten shares for four assets of which three are there, and the settlement of a payout
that reaches its receiver. -/
theorem settlements_agree_partial :
    settleProportionalRaw 10 4 3 = ⟨8, 2⟩ ∧ computeIdleSettlement 10 4 3 = some ⟨3, ⟨8, 2⟩⟩ ∧
      ∃ effects, payoutComplete (runFrom .new payoutRun).opState true 0 0 = .ok ⟨.idle, effects⟩ ∧
        (handleSettlePayout (runFrom .new payoutRun) 0 0 .success).toOption.map KernelResult.effects =
          some effects := by
  have hvalue : computeSettlement 10 4 3 = ⟨8, 2⟩ := by decide
  have hop : (runFrom .new payoutRun).opState = .payout ⟨0, 0, 2, 40, 1, 40, 40⟩ := by decide +kernel
  have hsound : Sound 4 (runFrom .new payoutRun) := runFrom_sound (by decide)
  obtain ⟨hsame, -, -, -, -, -, -, hidle, hpayout⟩ :=
    settlements_agree (e := 10) (x := 4) (a := 3) (by decide) (by decide)
  refine ⟨hsame.trans hvalue, (hidle.mpr (by decide)).trans (by rw [hvalue]; rfl), ?_⟩
  obtain ⟨effects, hcomplete, hsettled⟩ := hpayout (runFrom .new payoutRun) 0
    ⟨0, 0, 2, 40, 1, 40, 40⟩ .success hop hsound.queue
    (hsound.validateQueueHead_eq (c := ⟨0, 1, 2, 40⟩) (by rw [hop]; rfl)) (by decide)
  have hpays : (runFrom .new payoutRun).CanPay ⟨0, 0, 2, 40, 1, 40, 40⟩ := by decide +kernel
  rw [if_neg (fun hrefused => hrefused.2 hpays)] at hsettled
  exact ⟨effects, hcomplete, hsettled⟩

/-- A request that expects nothing: one copy refunds its escrow, the other burns it for nothing. -/
theorem idle_settlement_burns_unpaid :
    computeSettlement 1 0 1 = ⟨0, 1⟩ ∧ computeIdleSettlement 1 0 1 = some ⟨0, ⟨1, 0⟩⟩ := by
  decide

end Templar.Vault
