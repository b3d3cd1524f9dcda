import Templar.Decimal

/-!
# Prices and valuations

An oracle price becomes a market price only when it is positive and its
confidence interval is smaller than the price itself. Debt is valued at the upper
end of that interval and collateral at the lower end, so a unit of either asset
has a nonzero value and conversions between the two never divide by zero there.
-/

namespace Templar.Lending

open Checked Decimal

/-- The fields of an oracle price that the market reads: `i64`, `u64` and `i32`. -/
structure PythPrice where
  price : Int
  conf : Nat
  expo : Int
  price_lt : price < 2 ^ 63
  deriving DecidableEq

inductive PriceDataError where
  | negativePrice
  | confidenceIntervalTooLarge
  | exponentOutOfBounds
  deriving DecidableEq, Repr

def PriceDataError.text : PriceDataError → String
  | .negativePrice => "Reported negative price"
  | .confidenceIntervalTooLarge => "Confidence interval too large"
  | .exponentOutOfBounds => "Exponent out of bounds"

def checkedSubI32 (a b : Int) : Option Int :=
  if -2 ^ 31 ≤ a - b ∧ a - b < 2 ^ 31 then some (a - b) else none

structure Price where
  price : Nat
  confidence : Nat
  exponent : Int
  price_lt : price < 2 ^ 64
  confidence_lt : confidence < price
  deriving DecidableEq

def fromPythPrice (p : PythPrice) (decimals : Int) : Except PriceDataError Price :=
  if 0 ≤ p.price then
    if hc : p.conf < p.price.toNat then
      match checkedSubI32 p.expo decimals with
      | none => .error .exponentOutOfBounds
      | some exponent =>
        .ok ⟨p.price.toNat, p.conf, exponent, by have := p.price_lt; omega, hc⟩
    else .error .confidenceIntervalTooLarge
  else .error .negativePrice

structure PricePair where
  collateral : Price
  borrow : Price
  deriving DecidableEq

def PricePair.new (collateralPrice : PythPrice) (collateralDecimals : Int)
    (borrowPrice : PythPrice) (borrowDecimals : Int) : Except PriceDataError PricePair := do
  let collateral ← fromPythPrice collateralPrice collateralDecimals
  let borrow ← fromPythPrice borrowPrice borrowDecimals
  .ok ⟨collateral, borrow⟩

/-- An amount times a price, a 256-bit integer, with a power of ten beside it. -/
structure Valuation where
  coefficient : Nat
  exponent : Int
  deriving DecidableEq

def Valuation.optimistic (amount : Nat) (price : Price) : Valuation :=
  ⟨amount * (price.price + price.confidence), price.exponent⟩

def Valuation.pessimistic (amount : Nat) (price : Price) : Valuation :=
  ⟨amount * (price.price - price.confidence), price.exponent⟩

/-- The binary logarithm of a valuation, through a rational close to `log2 10`. -/
def Valuation.log2 (v : Valuation) : Int :=
  (v.exponent * 345060773).tdiv 103873643 + bitLength v.coefficient

def pow2IntOf (n : Int) : Option Decimal :=
  if n < 2 ^ 32 then pow2Int n.toNat else none

/-- The power of two near the ratio, or an end of the range. The largest power in
the table is zero, and its reciprocal aborts. -/
def Valuation.approximateRatio (v rhs : Valuation) : Outcome Decimal :=
  let resultLog2 := v.log2 - rhs.log2
  if 0 ≤ resultLog2 then .ok ((pow2IntOf resultLog2).getD maxValue)
  else
    match pow2IntOf (-resultLog2) with
    | none => .ok minValue
    | some r => one.div r

def Valuation.combinedExponents (v rhs : Valuation) : Outcome (Option Decimal) :=
  match checkedSubI32 v.exponent rhs.exponent with
  | none => .ok none
  | some pow => (ofUInt v.coefficient).mulPow10 pow

def Valuation.ratio (v rhs : Valuation) : Outcome (Option Decimal) :=
  if rhs.coefficient = 0 then .ok none
  else do
    match ← v.combinedExponents rhs with
    | some combined =>
      let quotient ← combined.div (ofUInt rhs.coefficient)
      .ok (some quotient)
    | none =>
      let approximate ← v.approximateRatio rhs
      .ok (some approximate)

section

variable (p : PricePair) (amount : Nat)

def PricePair.borrowValuation : Valuation := Valuation.optimistic amount p.borrow

def PricePair.collateralValuation : Valuation := Valuation.pessimistic amount p.collateral

def PricePair.convertBorrow : Outcome Decimal := do
  let ratio ← (p.borrowValuation amount).ratio (p.collateralValuation 1)
  unwrap ratio

def PricePair.convertCollateral : Outcome Decimal := do
  let ratio ← (p.collateralValuation amount).ratio (p.borrowValuation 1)
  unwrap ratio

end

variable {amount : Nat}

end Templar.Lending
