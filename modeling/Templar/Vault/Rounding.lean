import Templar.Lib.Pool
import Templar.Vault.Invariant

/-!
# Rounding never pays the trader

Deposits and exits without fees, seen as trades with the pool of real and virtual totals. Each
quote is rounded against the account, so the price of a share never falls, and an account that
starts without shares takes out no more than it put in.
-/

namespace Templar.Vault

open Checked

variable {A : Type}

/-- The totals with their offsets. -/
def pool (config : VaultConfig A) (s : VaultState A) : Pool where
  assets := s.totalAssets + max config.virtualAssets 1
  shares := s.totalShares + max config.virtualShares 1

/-- Totals and offsets together stay within a machine word. -/
def Fits (config : VaultConfig A) (s : VaultState A) : Prop :=
  (pool config s).assets < 2 ^ 128 ∧ (pool config s).shares < 2 ^ 128

variable {s : VaultState A} {config : VaultConfig A} {amount : Nat}

theorem pool_shares_pos : 0 < (pool config s).shares := by
  unfold pool
  dsimp only
  omega

theorem pool_assets_pos : 0 < (pool config s).assets := by
  unfold pool
  dsimp only
  omega

section

variable (h : Fits config s)
include h

theorem effectiveTotals_eq :
    effectiveTotals s config = ⟨(pool config s).shares, (pool config s).assets⟩ := by
  rw [effectiveTotals, saturatingAdd_of_lt h.1, saturatingAdd_of_lt h.2]
  rfl

section

variable (ha : amount < 2 ^ 128)
include ha

theorem virtualBasisQuote_eq (toShares roundUp : Bool) :
    virtualBasisQuote s config amount toShares roundUp =
      if toShares then Number.rounded amount (pool config s).shares (pool config s).assets roundUp
      else Number.rounded amount (pool config s).assets (pool config s).shares roundUp := by
  rw [virtualBasisQuote, effectiveTotals_eq h]
  dsimp only
  rw [Number.mulDivWithRounding_of_lt ha h.2, Number.mulDivWithRounding_of_lt ha h.1]

/-- Shares for a deposit are rounded down. -/
theorem quoteShares_le : virtualBasisQuote s config amount true false * (pool config s).assets ≤
      amount * (pool config s).shares := by
  rw [virtualBasisQuote_eq h ha]
  exact Nat.div_mul_le_self _ _

/-- Assets for an exit are rounded down, and the real totals can only lower them. -/
theorem quoteAssets_le : dualBasisQuote s config amount false false * (pool config s).shares ≤
      amount * (pool config s).assets := by
  have hvirtual : virtualBasisQuote s config amount false false * (pool config s).shares ≤
      amount * (pool config s).assets := by
    rw [virtualBasisQuote_eq h ha]
    exact Nat.div_mul_le_self _ _
  simp only [dualBasisQuote, Bool.false_eq_true, ↓reduceIte]
  split
  · exact hvirtual
  · exact (Nat.mul_le_mul_right _ (Nat.min_le_left _ _)).trans hvirtual

/-- Shares burned for an exit are rounded up, and the real totals can only raise them. -/
theorem le_quoteShares : amount * (pool config s).shares ≤
      dualBasisQuote s config amount true true * (pool config s).assets := by
  have hvirtual : amount * (pool config s).shares ≤
      virtualBasisQuote s config amount true true * (pool config s).assets := by
    rw [virtualBasisQuote_eq h ha, Nat.mul_comm _ (pool config s).assets]
    exact le_smul_ceilDiv pool_assets_pos
  simp only [dualBasisQuote, ↓reduceIte]
  split
  · exact hvirtual
  · exact hvirtual.trans (Nat.mul_le_mul_right _ (Nat.le_max_left _ _))

/-- With real totals in play an exit pays no more than their pro-rata part. -/
theorem quoteAssets_le_real (hv : 0 < config.virtualAssets)
    (hs : s.totalShares ≠ 0) :
    dualBasisQuote s config amount false false ≤ amount * s.totalAssets / s.totalShares := by
  have htotal : s.totalAssets < 2 ^ 128 := by
    have := h.1
    unfold pool at this
    dsimp only at this
    omega
  have hactive : realBasisActive config s.totalShares = true := by
    simp [realBasisActive, hs]
    omega
  unfold dualBasisQuote
  simp only [Bool.false_eq_true, ↓reduceIte, hactive, Bool.not_true]
  rw [Number.mulDivWithRounding_of_lt ha htotal]
  exact Nat.min_le_right _ _

end

end

theorem pool_deposit {selfId owner receiver : A} {assetsIn shares nowNs : Nat} :
    pool config (depositResult s selfId owner receiver assetsIn shares nowNs).state =
      ⟨(pool config s).assets + assetsIn, (pool config s).shares + shares⟩ := by
  simp only [pool, depositResult, Pool.mk.injEq]
  omega

/-- A trade with the pool at a price that is not better for the account. -/
inductive Trade [DecidableEq A] (config : VaultConfig A) (selfId : A)
    (s : VaultState A) : KernelAction A → KernelResult A → Prop
  | deposit {owner receiver assetsIn minSharesOut nowNs shares}
      (price : shares * (pool config s).assets ≤ assetsIn * (pool config s).shares) :
      Trade config selfId s (.deposit owner receiver assetsIn minSharesOut nowNs)
        (depositResult s selfId owner receiver assetsIn shares nowNs)
  | withdraw {owner receiver operator assetsOut maxSharesBurned nowNs shares}
      (hshares : shares ≤ s.totalShares) (hidle : assetsOut ≤ s.idleAssets)
      (htotal : assetsOut ≤ s.totalAssets)
      (price : assetsOut * (pool config s).shares ≤ shares * (pool config s).assets) :
      Trade config selfId s (.atomicWithdraw owner receiver operator assetsOut maxSharesBurned nowNs)
        (exitResult s owner receiver operator shares assetsOut)
  | redeem {owner receiver operator assetsOut minAssetsOut nowNs shares}
      (hshares : shares ≤ s.totalShares) (hidle : assetsOut ≤ s.idleAssets)
      (htotal : assetsOut ≤ s.totalAssets)
      (price : assetsOut * (pool config s).shares ≤ shares * (pool config s).assets)
      (real : 0 < config.virtualAssets → assetsOut ≤ shares * s.totalAssets / s.totalShares) :
      Trade config selfId s (.atomicRedeem owner receiver operator shares minAssetsOut nowNs)
        (exitResult s owner receiver operator shares assetsOut)

def KernelAction.isTrade : KernelAction A → Bool
  | .deposit .. => true
  | .atomicWithdraw .. => true
  | .atomicRedeem .. => true
  | _ => false

section

variable [DecidableEq A] {restrictions : Option (Restrictions A)}
  {selfId account : A} {action : KernelAction A} {r : KernelResult A}

/-- Without fees every deposit and exit that succeeds is such a trade. -/
theorem applyAction_trade (hfees : config.fees.hasActiveSlotFees = false) (hfits : Fits config s)
    (hbalanced : s.Balanced) (htrade : action.isTrade = true)
    (h : applyAction s config restrictions selfId action = .ok r) :
    Trade config selfId s action r := by
  have hassets : s.totalAssets < 2 ^ 128 := by
    have := hfits.1
    unfold pool at this
    dsimp only at this
    omega
  have hshares : s.totalShares < 2 ^ 128 := by
    have := hfits.2
    unfold pool at this
    dsimp only at this
    omega
  unfold VaultState.Balanced at hbalanced
  cases action with
  | deposit owner receiver assetsIn minSharesOut nowNs =>
    obtain ⟨a, n, -, -, ha, hn, -, -, htotal, -, -, rfl⟩ := handleDeposit_eq_ok h
    cases (refreshFees_of_inactive hfees).symm.trans ha
    obtain ⟨rfl, -⟩ := boundedU128_exact (by omega) hn
    exact .deposit (quoteShares_le hfits (by dsimp only at htotal; omega))
  | atomicWithdraw owner receiver operator assetsOut maxSharesBurned nowNs =>
    obtain ⟨a, n, -, -, ha, hn, -, -, -, hpay⟩ := handleAtomicWithdraw_eq_ok h
    cases (refreshFees_of_inactive hfees).symm.trans ha
    obtain ⟨rfl, -⟩ := boundedU128_exact hshares hn
    obtain ⟨h₁, h₂, h₃, rfl⟩ := payAtomicExit_eq_ok.mp hpay
    dsimp only at h₂
    exact .withdraw h₁ h₂ h₃ (le_quoteShares hfits (by omega))
  | atomicRedeem owner receiver operator shares minAssetsOut nowNs =>
    obtain ⟨a, n, -, hne, ha, hn, -, -, hpay⟩ := handleAtomicRedeem_eq_ok h
    cases (refreshFees_of_inactive hfees).symm.trans ha
    dsimp only at hn
    obtain ⟨rfl, -⟩ := boundedU128_exact (by omega) hn
    obtain ⟨h₁, h₂, h₃, rfl⟩ := payAtomicExit_eq_ok.mp hpay
    dsimp only at h₁
    refine .redeem h₁ h₂ h₃ (quoteAssets_le hfits (by omega)) fun hv => ?_
    exact quoteAssets_le_real hfits (by omega) hv (by omega)
  | _ => cases htrade

theorem pool_exit {owner receiver operator : A} {shares assetsOut : Nat}
    (hshares : shares ≤ s.totalShares) (htotal : assetsOut ≤ s.totalAssets) :
    pool config (exitResult s owner receiver operator shares assetsOut).state =
      ⟨(pool config s).assets - assetsOut, (pool config s).shares - shares⟩ := by
  simp only [pool, exitResult, Pool.mk.injEq]
  omega

/-- No trade lowers the price of a share. -/
theorem Trade.priceLe (h : Trade config selfId s action r) :
    (pool config s).PriceLe (pool config r.state) := by
  have hexit : ∀ {owner receiver operator : A} {shares assetsOut : Nat},
      shares ≤ s.totalShares → assetsOut ≤ s.totalAssets →
      assetsOut * (pool config s).shares ≤ shares * (pool config s).assets →
      (pool config s).PriceLe (pool config (exitResult s owner receiver operator shares assetsOut).state) := by
    intro owner receiver operator shares assetsOut hshares htotal price
    rw [pool_exit hshares htotal]
    refine Pool.priceLe_leave ?_ ?_ price
    · exact htotal.trans (Nat.le_add_right _ _)
    · exact hshares.trans (Nat.le_add_right _ _)
  cases h with
  | deposit price =>
    rw [pool_deposit]
    exact Pool.priceLe_join price
  | withdraw hshares _ htotal price | redeem hshares _ htotal price => exact hexit hshares htotal price

/-- A deposit or exit that an account makes for itself. -/
def KernelAction.madeBy (account : A) : KernelAction A → Bool
  | .deposit owner receiver _ _ _ => owner = account ∧ receiver = account
  | .atomicWithdraw owner receiver _ _ _ _ => owner = account ∧ receiver = account
  | .atomicRedeem owner receiver _ _ _ _ => owner = account ∧ receiver = account
  | _ => false

theorem KernelAction.isTrade_of_madeBy (h : action.madeBy account = true) : action.isTrade = true := by
  cases action with
  | deposit => rfl
  | atomicWithdraw => rfl
  | atomicRedeem => rfl
  | _ => cases h

namespace KernelEffect

def minted (account : A) : KernelEffect A → Nat
  | mintShares owner shares => if owner = account then shares else 0
  | _ => 0

def burned (account : A) : KernelEffect A → Nat
  | burnShares owner shares => if owner = account then shares else 0
  | burnSharesFrom _ owner shares => if owner = account then shares else 0
  | _ => 0

def paid (account : A) : KernelEffect A → Nat
  | transferAssetsFrom source _ amount => if source = account then amount else 0
  | _ => 0

def received (account : A) : KernelEffect A → Nat
  | transferAssets target amount => if target = account then amount else 0
  | _ => 0

end KernelEffect

/-- What an account holds and has moved, by the effects of its actions. -/
structure Trader (A : Type) where
  vault : VaultState A
  holdings : Nat
  paid : Nat
  received : Nat

/-- An action that fails, or burns more shares than the account holds, changes nothing. -/
def Trader.next (config : VaultConfig A) (selfId account : A) (t : Trader A)
    (step : Option (Restrictions A) × KernelAction A) : Trader A :=
  match applyAction t.vault config step.1 selfId step.2 with
  | .error _ => t
  | .ok r =>
    if (r.effects.map (KernelEffect.burned account)).sum ≤ t.holdings then
      { vault := r.state
        holdings := t.holdings + (r.effects.map (KernelEffect.minted account)).sum -
          (r.effects.map (KernelEffect.burned account)).sum
        paid := t.paid + (r.effects.map (KernelEffect.paid account)).sum
        received := t.received + (r.effects.map (KernelEffect.received account)).sum }
    else t

def Trader.run (config : VaultConfig A) (selfId account : A) (t : Trader A)
    (steps : List (Option (Restrictions A) × KernelAction A)) : Trader A :=
  steps.foldl (Trader.next config selfId account) t

/-- Every state on the way keeps its totals within a machine word. -/
def Trader.StaysSmall (config : VaultConfig A) (selfId account : A) :
    Trader A → List (Option (Restrictions A) × KernelAction A) → Prop
  | t, [] => Fits config t.vault
  | t, step :: steps => Fits config t.vault ∧
      Trader.StaysSmall config selfId account (t.next config selfId account step) steps

/-- The pool has moved from `p` by what the account holds and has moved, at no worse a price. -/
structure Trader.Accounted (config : VaultConfig A) (p : Pool) (t : Trader A) : Prop where
  balanced : t.vault.Balanced
  price : p.PriceLe (pool config t.vault)
  shares : (pool config t.vault).shares = p.shares + t.holdings
  assets : (pool config t.vault).assets + t.received = p.assets + t.paid

namespace Trader

variable {p : Pool} {t : Trader A} {step : Option (Restrictions A) × KernelAction A}
  {steps : List (Option (Restrictions A) × KernelAction A)}

/-- What the effects of an exit by the account add up to. -/
theorem exit_flows (s : VaultState A) (account operator : A) (shares assetsOut : Nat) :
    let effects := (exitResult s account account operator shares assetsOut).effects
    (effects.map (KernelEffect.burned account)).sum = shares ∧
      (effects.map (KernelEffect.minted account)).sum = 0 ∧
      (effects.map (KernelEffect.paid account)).sum = 0 ∧
      (effects.map (KernelEffect.received account)).sum = assetsOut := by
  unfold exitResult atomicBurnShares
  split <;>
    simp [KernelEffect.burned, KernelEffect.minted, KernelEffect.paid, KernelEffect.received]

/-- An exit by the account leaves it accounted for. -/
theorem Accounted.exit {operator : A} {shares assetsOut : Nat} (h : Accounted config p t)
    (hshares : shares ≤ t.vault.totalShares) (hidle : assetsOut ≤ t.vault.idleAssets)
    (htotal : assetsOut ≤ t.vault.totalAssets) (hheld : shares ≤ t.holdings)
    (price : p.PriceLe
      (pool config (exitResult t.vault account account operator shares assetsOut).state)) :
    Accounted config p ⟨(exitResult t.vault account account operator shares assetsOut).state,
      t.holdings - shares, t.paid, t.received + assetsOut⟩ := by
  have hbalanced := h.balanced
  have hpool := h.shares
  have hassets := h.assets
  unfold VaultState.Balanced at hbalanced
  refine ⟨?_, price, ?_, ?_⟩
  · change t.vault.totalAssets - assetsOut = t.vault.idleAssets - assetsOut + t.vault.externalAssets
    omega
  · rw [pool_exit hshares htotal]
    dsimp only
    omega
  · rw [pool_exit hshares htotal]
    have hle : assetsOut ≤ (pool config t.vault).assets := htotal.trans (Nat.le_add_right _ _)
    dsimp only
    omega

theorem Accounted.next (hfees : config.fees.hasActiveSlotFees = false) (hfits : Fits config t.vault)
    (hstep : step.2.madeBy account = true) (h : Accounted config p t) :
    Accounted config p (t.next config selfId account step) := by
  unfold Trader.next
  split
  · exact h
  · rename_i r hr
    split
    · rename_i hburned
      have trade := applyAction_trade hfees hfits h.balanced (KernelAction.isTrade_of_madeBy hstep) hr
      have price := h.price.trans trade.priceLe pool_shares_pos
      have hbalanced := h.balanced
      unfold VaultState.Balanced at hbalanced
      obtain ⟨restrictions, action⟩ := step
      cases trade with
      | @deposit owner receiver assetsIn minSharesOut nowNs shares _ =>
        obtain ⟨rfl, rfl⟩ : owner = account ∧ receiver = account := by
          simpa [KernelAction.madeBy] using hstep
        have hpool := h.shares
        have hassets := h.assets
        refine ⟨?_, price, ?_, ?_⟩
        · change t.vault.totalAssets + assetsIn = t.vault.idleAssets + assetsIn + t.vault.externalAssets
          omega
        · rw [pool_deposit]
          simp [depositResult, KernelEffect.minted, KernelEffect.burned]
          omega
        · rw [pool_deposit]
          simp [depositResult, KernelEffect.paid, KernelEffect.received]
          omega
      | @withdraw owner receiver operator assetsOut maxSharesBurned nowNs shares hshares hidle htotal _
      | @redeem owner receiver operator assetsOut minAssetsOut nowNs shares hshares hidle htotal _ _ =>
        obtain ⟨rfl, rfl⟩ : owner = account ∧ receiver = account := by
          simpa [KernelAction.madeBy] using hstep
        obtain ⟨hb, hm, hp, hr⟩ := exit_flows t.vault receiver operator shares assetsOut
        rw [hb] at hburned
        rw [hb, hm, hp, hr]
        exact h.exit hshares hidle htotal hburned price
    · exact h

theorem Accounted.run (hfees : config.fees.hasActiveSlotFees = false)
    (hsmall : t.StaysSmall config selfId account steps)
    (hsteps : ∀ step ∈ steps, step.2.madeBy account = true) (h : Accounted config p t) :
    Accounted config p (t.run config selfId account steps) := by
  induction steps generalizing t with
  | nil => exact h
  | cons step steps ih =>
    apply ih hsmall.2
    · intro step' hmem
      exact hsteps step' (List.mem_cons_of_mem _ hmem)
    · exact h.next hfees hsmall.1 (hsteps step List.mem_cons_self)

end Trader

/-- Without fees no deposit or exit lowers the price of a share, no account takes out more than
it put in, and a redemption pays at most its part of the real assets. -/
theorem rounding_never_pays (hfees : config.fees.hasActiveSlotFees = false) :
    (∀ (s : VaultState A) restrictions selfId action r, s.opState = .idle → s.Balanced →
      Fits config s → action.isTrade = true →
      applyAction s config restrictions selfId action = .ok r →
      (s.totalAssets + max config.virtualAssets 1) * (r.state.totalShares + max config.virtualShares 1) ≤
        (r.state.totalAssets + max config.virtualAssets 1) *
          (s.totalShares + max config.virtualShares 1)) ∧
    (∀ (s : VaultState A) selfId account steps, s.opState = .idle → s.Balanced →
      Trader.StaysSmall config selfId account ⟨s, 0, 0, 0⟩ steps →
      (∀ step ∈ steps, step.2.madeBy account = true) →
      (Trader.run config selfId account ⟨s, 0, 0, 0⟩ steps).received ≤
        (Trader.run config selfId account ⟨s, 0, 0, 0⟩ steps).paid) ∧
    ∀ (s : VaultState A) restrictions selfId owner receiver operator shares minAssetsOut nowNs r,
      0 < config.virtualAssets → s.opState = .idle → s.Balanced → Fits config s →
      applyAction s config restrictions selfId
        (.atomicRedeem owner receiver operator shares minAssetsOut nowNs) = .ok r →
      s.totalAssets - r.state.totalAssets ≤ shares * s.totalAssets / s.totalShares ∧
        .transferAssets receiver (s.totalAssets - r.state.totalAssets) ∈ r.effects := by
  refine ⟨?_, ?_, ?_⟩
  · intro s restrictions selfId action r _ hbalanced hfits htrade h
    exact (applyAction_trade hfees hfits hbalanced htrade h).priceLe
  · intro s selfId account steps _ hbalanced hsmall hsteps
    have start : Trader.Accounted config (pool config s) ⟨s, 0, 0, 0⟩ :=
      ⟨hbalanced, .refl _, rfl, rfl⟩
    have h := start.run hfees hsmall hsteps
    exact Pool.received_le_paid h.price pool_shares_pos h.shares h.assets
  · intro s restrictions selfId owner receiver operator shares minAssetsOut nowNs r hv _ hbalanced
      hfits h
    have trade := applyAction_trade hfees hfits hbalanced rfl h
    cases trade with
    | @redeem _ _ _ assetsOut _ _ _ _ _ htotal _ real =>
      have hpaid : s.totalAssets - (s.totalAssets - assetsOut) = assetsOut := Nat.sub_sub_self htotal
      change s.totalAssets - (s.totalAssets - assetsOut) ≤ _ ∧ _
      rw [hpaid]
      refine ⟨real hv, ?_⟩
      simp [exitResult, hpaid]

end

/-- An account that deposits 10 into a vault with 6 assets and no shares, and redeems the one share
it got: 8 come back. -/
def sampleTrader : Trader Nat :=
  Trader.run plainConfig 0 1
    ⟨{ (VaultState.new : VaultState Nat) with totalAssets := 6, idleAssets := 6 }, 0, 0, 0⟩
    [(none, .deposit 1 1 10 0 5), (none, .atomicRedeem 1 1 1 1 0 6)]

theorem rounding_never_pays_sample :
    sampleTrader.paid = 10 ∧ sampleTrader.received = 8 ∧ sampleTrader.received ≤ sampleTrader.paid := by
  have hfees : plainConfig.fees.hasActiveSlotFees = false := rfl
  refine ⟨by decide +kernel, by decide +kernel, ?_⟩
  apply (rounding_never_pays hfees).2.1
  · rfl
  · rfl
  · simp only [Trader.StaysSmall, Fits]
    decide +kernel
  · decide

end Templar.Vault
