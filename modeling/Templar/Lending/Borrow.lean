import Templar.Lending.Supply

/-!
# Borrow positions

A guard holds a borrow position out of the market; dropping it writes the position
back. A borrow is booked as in flight until its transfer is settled. A repayment or
a liquidation pays fees first, then interest, then principal, and never leaves a
principal between zero and the configured minimum behind: it stops at the minimum.
-/

namespace Templar.Lending

open Checked Decimal

variable {A : Type}

structure BorrowPositionGuard (A : Type) where
  market : Market A
  accountId : A
  position : BorrowPosition

structure LiabilityReduction where
  toFees : Nat
  toInterest : Nat
  toPrincipal : Nat
  toRefund : Nat
  deriving DecidableEq, Repr

structure Liquidation where
  liquidated : Nat
  refund : Nat
  deriving DecidableEq, Repr

structure InitialBorrow where
  amount : Nat
  fees : Nat
  deriving DecidableEq, Repr

inductive LiquidationError where
  | ineligible
  | excessiveLiquidation (requested available : Nat)
  | valueCalculationFailure
  | offerTooLow (offered minimumAcceptable : Nat)
  deriving DecidableEq, Repr

def LiquidationError.text : LiquidationError → String
  | .ineligible => "Borrow position is not eligible for liquidation"
  | .excessiveLiquidation requested available =>
    "Attempt to liquidate more collateral than is currently eligible: " ++ toString requested ++
      " requested > " ++ toString available ++ " available"
  | .valueCalculationFailure => "Failed to calculate value of collateral"
  | .offerTooLow offered minimumAcceptable =>
    "Liquidation offer too low: " ++ toString offered ++ " offered < " ++
      toString minimumAcceptable ++ " minimum acceptable"

inductive InitialBorrowError where
  | insufficientBorrowAssetAvailable
  | feeCalculationFailure
  | undercollateralization
  | outsideAllowableRange
  deriving DecidableEq, Repr

def InitialBorrowError.text : InitialBorrowError → String
  | .insufficientBorrowAssetAvailable => "Insufficient borrow asset available"
  | .feeCalculationFailure => "Fee calculation failed"
  | .undercollateralization => "Borrow position must be healthy after borrow"
  | .outsideAllowableRange => "New borrow position is outside of allowable range"

namespace BorrowPosition

/-- Absent when the liability is zero. -/
def collateralizationRatio (p : BorrowPosition) (pricePair : PricePair) : Outcome (Option Decimal) := do
  let liability ← p.getTotalBorrowAssetLiability
  if liability = 0 then .ok none
  else
    (Valuation.pessimistic p.collateralAssetDeposit pricePair.collateral).ratio
      (Valuation.optimistic liability pricePair.borrow)

def increaseBorrowAssetPrincipal (p : BorrowPosition) (amount blockTimestampMs : Nat) :
    Outcome BorrowPosition := do
  let restart ← if p.startedAtBlockTimestampMs.isNone then .ok true
    else do
      let liability ← p.getTotalBorrowAssetLiability
      .ok (decide (liability = 0))
  let principal ← add 128 p.borrowAssetPrincipal amount
  .ok { p with
    startedAtBlockTimestampMs :=
      if restart then some blockTimestampMs else p.startedAtBlockTimestampMs
    borrowAssetPrincipal := principal }

def liquidatableCollateral (p : BorrowPosition) (pricePair : PricePair)
    (mcr liquidatorSpread : Decimal) : Outcome Nat := do
  let liability ← p.getTotalBorrowAssetLiability
  if liability = 0 then .ok 0
  else
    let collateral := p.collateralAssetDeposit
    match ← (pricePair.collateralValuation collateral).ratio (pricePair.borrowValuation liability) with
    | none => .ok 0
    | some cr =>
      if cr ≤ one then .ok collateral
      else if mcr ≤ cr then .ok 0
      else
        let discount ← one.sub liquidatorSpread
        let converted ← pricePair.convertBorrow liability
        let required ← mcr.mul converted
        let missing ← required.sub (ofUInt collateral)
        let kept ← mcr.mul discount
        let margin ← kept.sub one
        let amount ← missing.div margin
        .ok (min (amount.toU128Ceil.getD collateral) collateral)

end BorrowPosition

def BorrowStatus.isHealthy : BorrowStatus → Bool
  | .healthy => true
  | _ => false

def BorrowStatus.isLiquidation : BorrowStatus → Bool
  | .liquidation _ => true
  | _ => false

def timestampDecreaseText (timeChunk : Nat) : String :=
  "Invariant violation: Snapshot timestamp decrease at time chunk #" ++ toString timeChunk ++ "."

/-- The interest of one snapshot on a principal. -/
def Snapshot.interestOn (s : Snapshot) (principal prevEndTimestampMs : Nat) : Outcome Decimal := do
  let duration ← expect (timestampDecreaseText s.timeChunk)
    (if prevEndTimestampMs ≤ s.endTimestampMs then some (s.endTimestampMs - prevEndTimestampMs)
      else none)
  let yearly ← (ofUInt principal).mul s.interestRate
  let scaled ← yearly.mul (ofUInt duration)
  scaled.mul yearPerMs

def interestStep (accountId : A) (principal i : Nat) (s : Snapshot)
    (prevEndTimestampMs : Nat) (state : Decimal × List (JournalEntry A)) :
    Outcome (Decimal × List (JournalEntry A)) := do
  let charge ← s.interestOn principal prevEndTimestampMs
  let accumulated ← state.1.add charge
  .ok (accumulated, state.2 ++ [.interestCharged accountId i principal charge.repr])

namespace BorrowPositionGuard

variable (g : BorrowPositionGuard A)

def calculateInterest (snapshotLimit : Nat) :
    Outcome (AccumulationRecord × List (JournalEntry A)) := do
  let principal ← g.position.getBorrowAssetPrincipal
  let next := g.position.interest.nextSnapshotIndex
  let prevEnd ← g.market.previousEnd next
  let pending := g.market.pendingSnapshots next snapshotLimit
  let (accumulated, entries) ← accrueLoop (interestStep g.accountId principal) pending next prevEnd
    (zero, [])
  let amount ← unwrapFit accumulated.toU128Floor
  .ok (⟨amount, accumulated.fractionalPartAsU128Dividend, next + pending.length⟩, entries)

def status (pricePair : PricePair) (blockTimestampMs : Nat) : Outcome BorrowStatus := do
  let ratio ← g.position.collateralizationRatio pricePair
  .ok (g.market.configuration.borrowStatus ratio g.position.startedAtBlockTimestampMs
    blockTimestampMs)

def withinAllowableBorrowRange : Outcome Bool := do
  let principal ← g.position.getBorrowAssetPrincipal
  .ok (g.market.configuration.borrowRange.contains principal)

def liquidatableCollateral (pricePair : PricePair) : Outcome Nat :=
  g.position.liquidatableCollateral pricePair g.market.configuration.borrowMcrMaintenance
    g.market.configuration.liquidationMaximumSpread

def minText : String := "Invariant violation: min() precludes underflow"

/-- How much of a payment goes to principal. A remainder below the minimum is not
left behind: the payment stops at the minimum instead. -/
def amountToPrincipal (principal minimum amount : Nat) : Nat :=
  if 0 < principal - amount ∧ principal - amount < minimum then principal - minimum
  else min principal amount

def reduceBorrowAssetLiability (amount : Nat) :
    Outcome (LiabilityReduction × BorrowPositionGuard A) := do
  let toFees := min g.position.fees amount
  let amount ← unwrapSub amount toFees minText
  let fees ← unwrapSub g.position.fees toFees minText
  let toInterest := min g.position.interest.total amount
  let amount ← unwrapSub amount toInterest minText
  let interest ← g.position.interest.remove toInterest
  let paid ← add 128 toFees toInterest
  let paidToFees ← add 128 g.market.borrowAssetPaidToFees paid
  let toPrincipal := amountToPrincipal g.position.borrowAssetPrincipal
    g.market.configuration.borrowRange.minimum amount
  let amount ← unwrapSub amount toPrincipal "Invariant violation: amount_to_principal > amount"
  let principal ← unwrapSub g.position.borrowAssetPrincipal toPrincipal
    "Invariant violation: amount_to_principal > borrow_asset_principal"
  let borrowed ← unwrapSub g.market.borrowAssetBorrowed toPrincipal
    "Invariant violation: amount_to_principal > market.borrow_asset_borrowed"
  .ok (⟨toFees, toInterest, toPrincipal, amount⟩, { g with
    position := { g.position with
      fees := fees
      interest := interest
      borrowAssetPrincipal := principal
      startedAtBlockTimestampMs :=
        if principal = 0 then none else g.position.startedAtBlockTimestampMs }
    market := { g.market with borrowAssetPaidToFees := paidToFees, borrowAssetBorrowed := borrowed } })

def recordCollateralAssetDeposit (amount : Nat) : Outcome (BorrowPositionGuard A) := do
  let deposit ← add 128 g.position.collateralAssetDeposit amount
  let deposited ← add 128 g.market.collateralAssetDeposited amount
  .ok { g with
    position := { g.position with collateralAssetDeposit := deposit }
    market := { g.market with collateralAssetDeposited := deposited } }

def recordCollateralAssetWithdrawal (amount : Nat) : Outcome (BorrowPositionGuard A) := do
  let deposit ← sub g.position.collateralAssetDeposit amount
  let deposited ← sub g.market.collateralAssetDeposited amount
  .ok { g with
    position := { g.position with collateralAssetDeposit := deposit }
    market := { g.market with collateralAssetDeposited := deposited } }

def recordCollateralAssetWithdrawalInitial (amount : Nat) : Outcome (BorrowPositionGuard A) := do
  let inFlight ← add 128 g.position.collateralAssetInFlight amount
  { g with position := { g.position with collateralAssetInFlight := inFlight } }
    |>.recordCollateralAssetWithdrawal amount

def recordCollateralAssetWithdrawalFinal (amount : Nat)
    (success : Bool) : Outcome (BorrowPositionGuard A) := do
  let inFlight ← unwrapSub g.position.collateralAssetInFlight amount
    "Invariant violation: attempt to unlock more than locked as in-flight"
  let g : BorrowPositionGuard A :=
    { g with position := { g.position with collateralAssetInFlight := inFlight } }
  if success then .ok g else g.recordCollateralAssetDeposit amount

/-- The fees of a borrow: origination plus one snapshot at the highest rate. -/
def borrowFees (amount : Nat) : Outcome (Option Nat) := do
  match ← g.market.configuration.borrowOriginationFee.of amount with
  | none => .ok none
  | some originationFee =>
    match ← g.market.singleSnapshotFee amount with
    | none => .ok none
    | some singleSnapshotFee =>
      .ok (if originationFee + singleSnapshotFee < 2 ^ 128 then
        some (originationFee + singleSnapshotFee) else none)

/-- An error leaves the guard as it was; the caller aborts on it. -/
def recordBorrowInitial (amount : Nat) (pricePair : PricePair) (blockTimestampMs : Nat) :
    Outcome (Except InitialBorrowError (InitialBorrow × BorrowPositionGuard A)) := do
  let available ← g.market.getBorrowAssetAvailableToBorrow
  if available < amount then .ok (.error .insufficientBorrowAssetAvailable)
  else
    match ← g.borrowFees amount with
    | none => .ok (.error .feeCalculationFailure)
    | some fees =>
      let marketInFlight ← add 128 g.market.borrowAssetBorrowedInFlight amount
      let inFlight ← add 128 g.position.borrowAssetInFlight amount
      let positionFees ← add 128 g.position.fees fees
      let g : BorrowPositionGuard A := { g with
        position := { g.position with borrowAssetInFlight := inFlight, fees := positionFees }
        market := { g.market with borrowAssetBorrowedInFlight := marketInFlight } }
      let status ← g.status pricePair blockTimestampMs
      if !status.isHealthy then .ok (.error .undercollateralization)
      else
        let within ← g.withinAllowableBorrowRange
        if !within then .ok (.error .outsideAllowableRange)
        else
          let market ← g.market.recordBorrowAssetYieldDistribution fees
          let balance ← sub market.borrowAssetBalance amount
          .ok (.ok (⟨amount, fees⟩,
            { g with market := { market with borrowAssetBalance := balance } }))

def recordBorrowFinal (borrow : InitialBorrow) (success : Bool)
    (blockTimestampMs : Nat) : Outcome (BorrowPositionGuard A) := do
  let marketInFlight ← sub g.market.borrowAssetBorrowedInFlight borrow.amount
  let inFlight ← sub g.position.borrowAssetInFlight borrow.amount
  let g : BorrowPositionGuard A := { g with
    position := { g.position with borrowAssetInFlight := inFlight }
    market := { g.market with borrowAssetBorrowedInFlight := marketInFlight } }
  if success then
    let position ← g.position.increaseBorrowAssetPrincipal borrow.amount blockTimestampMs
    let borrowed ← add 128 g.market.borrowAssetBorrowed borrow.amount
    .ok { g with position := position, market := { g.market with borrowAssetBorrowed := borrowed } }
  else
    let balance ← add 128 g.market.borrowAssetBalance borrow.amount
    .ok { g with market := { g.market with borrowAssetBalance := balance } }

/-- The liability is added up once more for the event of the repayment. -/
def recordRepay (amount : Nat) : Outcome (Nat × BorrowPositionGuard A) := do
  let balance ← add 128 g.market.borrowAssetBalance amount
  let g : BorrowPositionGuard A :=
    { g with market := { g.market with borrowAssetBalance := balance } }
  let (reduction, g) ← g.reduceBorrowAssetLiability amount
  let _ ← g.position.getTotalBorrowAssetLiability
  let balance ← sub g.market.borrowAssetBalance reduction.toRefund
  .ok (reduction.toRefund, { g with market := { g.market with borrowAssetBalance := balance } })

def accumulateInterestPartial (snapshotLimit : Nat) : Outcome (BorrowPositionGuard A) := do
  let (record, entries) ← g.calculateInterest snapshotLimit
  let interest ← g.position.interest.accumulate record
  .ok { g with
    position := { g.position with interest := interest }
    market := { g.market with journal := g.market.journal ++ entries } }

def accumulateInterest : Outcome (BorrowPositionGuard A) :=
  g.accumulateInterestPartial SupplyPositionGuard.u32Max

/-- What a liquidator may take: all of the collateral once a position has expired. -/
def eligibleCollateral (reason : LiquidationReason) (pricePair : PricePair) : Outcome Nat :=
  match reason with
  | .undercollateralization => g.liquidatableCollateral pricePair
  | .expiration => .ok g.position.collateralAssetDeposit

/-- The collateral changes hands and what was recovered pays the liability; what is
left of it stays in the market and is distributed as yield. -/
def settleLiquidation (liquidated recovered : Nat) : Outcome (BorrowPositionGuard A) := do
  let g ← g.recordCollateralAssetWithdrawal liquidated
  let (reduction, g) ← g.reduceBorrowAssetLiability recovered
  let market ← g.market.recordBorrowAssetYieldDistribution reduction.toRefund
  let balance ← add 128 market.borrowAssetBalance recovered
  .ok { g with market := { market with
    borrowAssetBalance := balance
    journal := market.journal ++ [.liquidationKept reduction.toRefund] } }

def recordLiquidation (liquidatorSent : Nat)
    (liquidatorRequest : Option Nat) (pricePair : PricePair) (blockTimestampMs : Nat) :
    Outcome (Except LiquidationError (Liquidation × BorrowPositionGuard A)) := do
  match ← g.status pricePair blockTimestampMs with
  | .liquidation reason =>
    let available ← g.eligibleCollateral reason pricePair
    let requested := liquidatorRequest.getD available
    if available < requested then .ok (.error (.excessiveLiquidation requested available))
    else
      let value ← pricePair.convertCollateral requested
      match value.toU128Ceil with
      | none => .ok (.error .valueCalculationFailure)
      | some ceiling =>
        let maximumAcceptable := max ceiling 1
        let kept ← one.sub g.market.configuration.liquidationMaximumSpread
        let discounted ← value.mul kept
        let floor ← unwrapFit discounted.toU128Ceil
        let minimumAcceptable := max floor 1
        if liquidatorSent < minimumAcceptable then
          .ok (.error (.offerTooLow liquidatorSent minimumAcceptable))
        else
          let recovered := min liquidatorSent maximumAcceptable
          let g ← g.settleLiquidation requested recovered
          .ok (.ok (⟨requested, liquidatorSent - recovered⟩, g))
  | _ => .ok (.error .ineligible)

variable [DecidableEq A]

/-- Writes the position back. -/
def drop (g : BorrowPositionGuard A) : Market A :=
  { g.market with borrowPositions := g.market.borrowPositions.insert g.accountId g.position }

end BorrowPositionGuard

namespace Market

variable [DecidableEq A]

def borrowPositionGuard (m : Market A) (accountId : A) : Option (BorrowPositionGuard A) :=
  (m.borrowPositions.lookup accountId).map fun position => ⟨m, accountId, position⟩

def getOrCreateBorrowPositionGuard (m : Market A) (accountId : A) :
    Outcome (BorrowPositionGuard A) :=
  match m.borrowPositions.lookup accountId with
  | some position => .ok ⟨m, accountId, position⟩
  | none => do
    let len ← m.snapshotsLen
    .ok ⟨m, accountId, BorrowPosition.new len⟩

end Market

end Templar.Lending
