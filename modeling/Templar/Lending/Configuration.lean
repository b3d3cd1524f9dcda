import Templar.Lib.Table
import Templar.Lending.Rates
import Templar.Lending.Price

/-!
# Market configuration

The immutable parameters of a market, the check they pass before a market is
created, and the quantities computed from them alone: fees, time chunks, yield
weights and the status of a borrow position.
-/

namespace Templar.Lending

open Checked Decimal

def apyLimit : Nat := 100000

/-- Years in a millisecond. -/
def yearPerMs : Decimal := wrap (0x22D79641 * 2 ^ 64 + 0x40FCAB614AE4B2B5)

inductive Fee where
  | flat (amount : Nat)
  | proportional (factor : Decimal)
  deriving DecidableEq

def Fee.of (fee : Fee) (amount : Nat) : Outcome (Option Nat) :=
  match fee with
  | .flat f => .ok (some f)
  | .proportional factor => do
    let product ← factor.mulInt amount
    .ok product.toU128Ceil

inductive TimeBasedFeeFunction where
  | fixed
  | linear
  deriving DecidableEq, Repr

structure TimeBasedFee where
  fee : Fee
  duration : Nat
  behavior : TimeBasedFeeFunction
  duration_lt : duration < 2 ^ 64

def TimeBasedFee.zero : TimeBasedFee := ⟨.flat 0, 0, .fixed, by decide⟩

def TimeBasedFee.of (f : TimeBasedFee) (amount duration : Nat) : Outcome (Option Nat) := do
  match ← f.fee.of amount with
  | none => .ok none
  | some baseFee =>
    if f.duration = 0 then .ok (some 0)
    else
      match f.behavior with
      | .fixed => if f.duration ≤ duration then .ok (some 0) else .ok (some baseFee)
      | .linear =>
        let scaled ← (ofUInt (f.duration - duration)).mulInt baseFee
        let remaining ← scaled.div (ofUInt f.duration)
        .ok remaining.toU128Ceil

/-- The two versions of the setting; two forms of the first are no longer supported. -/
inductive TimeChunkConfiguration where
  | v0BlockHeight (divisor : Nat)
  | v0EpochHeight (divisor : Nat)
  | v0BlockTimestampMs (divisor : Nat)
  | v1 (durationMs : Nat)
  deriving DecidableEq

def TimeChunkConfiguration.durationMs : TimeChunkConfiguration → Outcome Nat
  | .v0BlockTimestampMs divisor => .ok divisor
  | .v1 durationMs => .ok durationMs
  | _ => .error (.message "Unsupported time chunk configuration")

def TimeChunkConfiguration.now (c : TimeChunkConfiguration) (blockTimestampMs : Nat) :
    Outcome Nat := do
  let duration ← c.durationMs
  .ok (if duration = 0 then blockTimestampMs else blockTimestampMs / duration)

def TimeChunkConfiguration.previous (c : TimeChunkConfiguration) (blockTimestampMs : Nat) :
    Outcome Nat := do
  let time ← c.now blockTimestampMs
  unwrap (if 1 ≤ time then some (time - 1) else none)

structure AmountRange where
  minimum : Nat
  maximum : Option Nat
  deriving DecidableEq

def AmountRange.contains (r : AmountRange) (amount : Nat) : Bool :=
  decide (r.minimum ≤ amount) && r.maximum.all (fun max => decide (amount ≤ max))

def AmountRange.isValid (r : AmountRange) : Bool :=
  r.maximum.all (fun max => decide (max ≠ 0) && decide (r.minimum ≤ max))

structure ValidAmountRange extends AmountRange where
  valid : toAmountRange.isValid = true
  deriving DecidableEq

theorem AmountRange.contains_iff {r : AmountRange} {amount : Nat} :
    r.contains amount = true ↔ r.minimum ≤ amount ∧ ∀ max, r.maximum = some max → amount ≤ max := by
  cases hm : r.maximum <;> simp [AmountRange.contains, hm]

/-- The supply weight is a nonzero 16-bit integer. -/
structure YieldWeights (A : Type) where
  supply : Nat
  static : Table A Nat
  supply_pos : 0 < supply

variable {A : Type}

def totalWeightText : String := "Total weight overflow"

/-- Unsigned partial sums fit whenever the whole sum does, in any order of the map. -/
def YieldWeights.totalWeight (w : YieldWeights A) : Outcome Nat :=
  let sum := w.supply + Table.total id w.static
  if sum < 2 ^ 16 then .ok sum else .error (.message totalWeightText)

theorem YieldWeights.totalWeight_eq_ok {w : YieldWeights A} {n : Nat} : w.totalWeight = .ok n ↔
      w.supply + Table.total id w.static < 2 ^ 16 ∧ n = w.supply + Table.total id w.static := by
  simp only [YieldWeights.totalWeight]
  split
  · rename_i h
    constructor
    · intro hn
      cases hn
      exact ⟨h, rfl⟩
    · rintro ⟨-, rfl⟩
      rfl
  · rename_i h
    constructor
    · intro hn
      cases hn
    · rintro ⟨hlt, -⟩
      exact absurd hlt h

inductive FungibleAsset (A : Type) where
  | nep141 (contractId : A)
  | nep245 (contractId : A) (tokenId : String)
  deriving DecidableEq

abbrev PriceIdentifier := BitVec 256

structure PriceOracleConfiguration where
  collateralAssetPriceId : PriceIdentifier
  collateralAssetDecimals : Int
  borrowAssetPriceId : PriceIdentifier
  borrowAssetDecimals : Int

abbrev OracleResponse := Table PriceIdentifier (Option PythPrice)

inductive RetrievalError where
  | missingPrice
  | priceData (error : PriceDataError)
  deriving DecidableEq

def RetrievalError.text : RetrievalError → String
  | .missingPrice => "Missing price"
  | .priceData error => error.text

def PriceOracleConfiguration.createPricePair (c : PriceOracleConfiguration)
    (response : OracleResponse) : Except RetrievalError PricePair :=
  match (response.lookup c.collateralAssetPriceId).join,
    (response.lookup c.borrowAssetPriceId).join with
  | some collateral, some borrow =>
    match PricePair.new collateral c.collateralAssetDecimals borrow c.borrowAssetDecimals with
    | .ok pair => .ok pair
    | .error e => .error (.priceData e)
  | _, _ => .error .missingPrice

structure MarketConfiguration (A : Type) where
  timeChunkConfiguration : TimeChunkConfiguration
  borrowAsset : FungibleAsset A
  collateralAsset : FungibleAsset A
  priceOracleConfiguration : PriceOracleConfiguration
  borrowMcrMaintenance : Decimal
  borrowMcrLiquidation : Decimal
  borrowAssetMaximumUsageRatio : Decimal
  borrowOriginationFee : Fee
  borrowInterestRateStrategy : InterestRateStrategy
  borrowMaximumDurationMs : Option Nat
  borrowRange : ValidAmountRange
  supplyRange : ValidAmountRange
  supplyWithdrawalRange : ValidAmountRange
  supplyWithdrawalFee : TimeBasedFee
  yieldWeights : YieldWeights A
  protocolAccountId : A
  liquidationMaximumSpread : Decimal

inductive InvalidFieldReason where
  | outOfBounds
  | mustNotEqual (other : String)
  deriving DecidableEq, Repr

def InvalidFieldReason.text : InvalidFieldReason → String
  | .outOfBounds => "out of bounds"
  | .mustNotEqual other => "must not equal `" ++ other ++ "`"

structure ConfigurationValidationError where
  field : String
  reason : InvalidFieldReason
  deriving DecidableEq, Repr

def ConfigurationValidationError.text (e : ConfigurationValidationError) : String :=
  "Invalid configuration field `" ++ e.field ++ "`: " ++ e.reason.text

def outOfBounds (field : String) : Except ConfigurationValidationError Unit :=
  .error ⟨field, .outOfBounds⟩

def mustNotEqual (field other : String) : Except ConfigurationValidationError Unit :=
  .error ⟨field, .mustNotEqual other⟩

def Fee.flatAbove (fee : Fee) (minimum : Nat) : Bool :=
  match fee with
  | .flat amount => decide (minimum < amount)
  | .proportional _ => false

namespace MarketConfiguration

variable [DecidableEq A]

/-- The check itself can abort, where it evaluates the curve or the spread. -/
def validate (c : MarketConfiguration A) : Outcome (Except ConfigurationValidationError Unit) :=
  if c.borrowAsset = c.collateralAsset then .ok (mustNotEqual "borrow_asset" "collateral_asset")
  else if c.borrowMcrMaintenance ≤ ofUInt 1 ∨ c.borrowMcrMaintenance < c.borrowMcrLiquidation then
    .ok (outOfBounds "borrow_mcr_maintenance")
  else if c.borrowMcrLiquidation ≤ ofUInt 1 then
    .ok (outOfBounds "borrow_mcr_liquidation")
  else if c.borrowAssetMaximumUsageRatio.isZero ∨ ofUInt 1 < c.borrowAssetMaximumUsageRatio then
    .ok (outOfBounds "borrow_asset_maximum_usage_ratio")
  else do
    let rate ← c.borrowInterestRateStrategy.at one
    if ofUInt apyLimit < rate then .ok (outOfBounds "borrow_interest_rate_strategy")
    else if c.supplyRange.minimum < c.supplyWithdrawalRange.minimum then
      .ok (outOfBounds "supply_withdrawal_range.minimum")
    else if c.supplyWithdrawalFee.fee.flatAbove c.supplyWithdrawalRange.minimum then
      .ok (outOfBounds "supply_withdrawal_fee.fee")
    else if ofUInt 1 ≤ c.liquidationMaximumSpread then
      .ok (outOfBounds "liquidation_maximum_spread")
    else
      let kept ← one.sub c.liquidationMaximumSpread
      let floor ← c.borrowMcrLiquidation.mul kept
      if floor ≤ one then .ok (outOfBounds "liquidation_maximum_spread")
      else .ok (.ok ())

end MarketConfiguration

inductive LiquidationReason where
  | undercollateralization
  | expiration
  deriving DecidableEq, Repr

inductive BorrowStatus where
  | healthy
  | maintenanceRequired
  | liquidation (reason : LiquidationReason)
  deriving DecidableEq, Repr

namespace MarketConfiguration

variable (c : MarketConfiguration A)

def isWithinMaximumBorrowDuration (startedAtBlockTimestampMs blockTimestampMs : Nat) : Bool :=
  match c.borrowMaximumDurationMs with
  | none => true
  | some maximumDurationMs =>
    decide (blockTimestampMs < startedAtBlockTimestampMs) ||
      decide (blockTimestampMs - startedAtBlockTimestampMs ≤ maximumDurationMs)

def borrowStatus (collateralizationRatio : Option Decimal) (startedAtBlockTimestampMs : Option Nat)
    (blockTimestampMs : Nat) : BorrowStatus :=
  if startedAtBlockTimestampMs.any
      (fun startedAt => !c.isWithinMaximumBorrowDuration startedAt blockTimestampMs) then
    .liquidation .expiration
  else
    match collateralizationRatio with
    | none => .healthy
    | some cr =>
      if cr < c.borrowMcrLiquidation then .liquidation .undercollateralization
      else if cr < c.borrowMcrMaintenance then .maintenanceRequired
      else .healthy

def singleSnapshotMaximumInterest : Outcome Decimal := do
  let rate ← c.borrowInterestRateStrategy.at one
  let duration ← c.timeChunkConfiguration.durationMs
  let scaled ← rate.mulInt duration
  scaled.mul yearPerMs

/-- A configuration that passes its check has a curve that can be evaluated. -/
theorem sound_of_validate [DecidableEq A] {c : MarketConfiguration A}
    (h : c.validate = .ok (.ok ())) : c.borrowInterestRateStrategy.Sound := by
  simp only [validate, outOfBounds, mustNotEqual, do_ok] at h
  obtain ⟨-, -, -, -, rate, hrate, -⟩ := h
  exact InterestRateStrategy.sound_of_at hrate

end MarketConfiguration

/-- A curve starts at its base and never falls, whichever rates it returns. If its rate at full
usage is within the limit of a configuration, it returns a rate at every usage, and none is
higher. -/
theorem rates_grow_with_usage (s : InterestRateStrategy) (hs : s.Accepted) :
    ((∀ curve, s = .piecewise curve → curve.params.optimal ≠ zero) → s.at zero = .ok s.base) ∧
    (∀ u v r r' : Decimal, u ≤ v → s.at u = .ok r → s.at v = .ok r' → r ≤ r') ∧
    ∀ top, s.at one = .ok top → top ≤ ofUInt apyLimit →
      ∀ u ≤ one, ∃ r, s.at u = .ok r ∧ r ≤ top := by
  refine ⟨InterestRateStrategy.at_zero hs.sound, fun u v r r' => InterestRateStrategy.at_mono, ?_⟩
  intro top htop hlimit u hu
  have hlt : top.repr < 2 ^ 200 := Nat.lt_of_le_of_lt hlimit (by decide)
  obtain ⟨r, hr⟩ := InterestRateStrategy.at_of_top htop hlt hu
  exact ⟨r, hr, InterestRateStrategy.at_mono hu hr htop⟩

theorem rates_grow_with_usage_linear :
    ∃ r, (Linear.mk zero one).at (wrap (2 ^ 127)) = .ok r ∧ r ≤ one :=
  (rates_grow_with_usage (.linear ⟨zero, one⟩) (by rfl)).2.2 one
    (by decide +kernel) (by decide) _ (by decide)

/-- A curve that its constructor accepts and no configuration would: one unit before full usage the
product has more than 512 bits. -/
theorem steep_curve_overflows : Linear.new zero maxValue = some ⟨zero, maxValue⟩ ∧
      (Linear.mk zero maxValue).at (wrap (2 ^ 128 - 1)) = .error .overflow := by
  decide +kernel

theorem Fee.onlyOverflow_of (fee : Fee) (amount : Nat) : OnlyOverflow (fee.of amount) := by
  cases fee with
  | flat f => exact within_ok _
  | proportional factor => exact (onlyOverflow_mulInt _ _).bind fun _ _ => within_ok _

theorem TimeBasedFee.onlyOverflow_of (f : TimeBasedFee) (amount duration : Nat) :
    OnlyOverflow (f.of amount duration) := by
  refine (Fee.onlyOverflow_of _ _).bind fun o _ => ?_
  cases o with
  | none => exact within_ok _
  | some baseFee =>
    refine Within.ite (fun _ => within_ok _) (fun hd => ?_)
    cases hb : f.behavior with
    | fixed => exact Within.ite (fun _ => within_ok _) (fun _ => within_ok _)
    | linear =>
      have hlt : f.duration < 2 ^ 256 := f.duration_lt.trans (by decide)
      have hne : (ofUInt f.duration).repr ≠ 0 := by
        rw [ofUInt_repr hlt]
        exact Nat.mul_ne_zero hd (Nat.two_pow_pos 128).ne'
      refine (onlyOverflow_mulInt _ _).bind fun scaled _ => ?_
      exact (onlyOverflow_div scaled hne).bind fun _ _ => within_ok _

end Templar.Lending
