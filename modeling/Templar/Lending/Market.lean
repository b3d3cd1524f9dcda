import Templar.Lending.Configuration
import Templar.Lending.WithdrawalQueue

/-!
# The market

The stored state of one market and the operations on it that do not belong to a
single position. Amounts are 128-bit, timestamps 64-bit and snapshot indices
32-bit unsigned integers; arithmetic on them aborts when it leaves its type.

`journal` is a history variable. Operations append to it what they credited,
charged or kept, and nothing ever reads it.
-/

namespace Templar.Lending

open Checked Decimal

structure Snapshot where
  timeChunk : Nat
  endTimestampMs : Nat
  borrowAssetDepositedActive : Nat
  borrowAssetBorrowed : Nat
  collateralAssetDeposited : Nat
  yieldDistribution : Nat
  interestRate : Decimal
  deriving DecidableEq

def Snapshot.new (timeChunk blockTimestampMs : Nat) : Snapshot :=
  ⟨timeChunk, blockTimestampMs, 0, 0, 0, 0, zero⟩

structure IncomingDeposit where
  activateAtSnapshotIndex : Nat
  amount : Nat
  deriving DecidableEq, Repr

def totalOf : List IncomingDeposit → Nat → Outcome Nat
  | [], total => .ok total
  | d :: rest, total => do
    let total ← add 128 total d.amount
    totalOf rest total

structure AccumulationRecord where
  amount : Nat
  fractionAsU128Dividend : Nat
  nextSnapshotIndex : Nat
  deriving DecidableEq

structure Accumulator where
  total : Nat
  fractionAsU128Dividend : Nat
  nextSnapshotIndex : Nat
  deriving DecidableEq

namespace Accumulator

def new (nextSnapshotIndex : Nat) : Accumulator := ⟨0, 0, nextSnapshotIndex⟩

def remove (a : Accumulator) (amount : Nat) : Outcome Accumulator := do
  let total ← sub a.total amount
  .ok { a with total := total }

def addOnce (a : Accumulator) (amount : Nat) : Outcome Accumulator := do
  let total ← add 128 a.total amount
  .ok { a with total := total }

def retroactiveText : String :=
  "Invariant violation: Asset accumulations cannot occur retroactively."

def accumulate (a : Accumulator) (record : AccumulationRecord) : Outcome Accumulator := do
  require (a.nextSnapshotIndex ≤ record.nextSnapshotIndex) retroactiveText
  let fraction := a.fractionAsU128Dividend + record.fractionAsU128Dividend
  let amount ← if 2 ^ 128 ≤ fraction then add 128 record.amount 1 else .ok record.amount
  let total ← add 128 a.total amount
  .ok ⟨total, fraction % 2 ^ 128, record.nextSnapshotIndex⟩

end Accumulator

structure Deposit where
  active : Nat
  incoming : List IncomingDeposit
  outgoing : Nat
  deriving DecidableEq

def Deposit.total (d : Deposit) : Outcome Nat := do
  let total ← add 128 d.active d.outgoing
  totalOf d.incoming total

structure SupplyPosition where
  startedAtBlockTimestampMs : Option Nat
  borrowAssetDeposit : Deposit
  borrowAssetYield : Accumulator
  deriving DecidableEq

namespace SupplyPosition

def new (currentSnapshotIndex : Nat) : SupplyPosition :=
  ⟨none, ⟨0, [], 0⟩, Accumulator.new currentSnapshotIndex⟩

def totalIncoming (p : SupplyPosition) : Outcome Nat := totalOf p.borrowAssetDeposit.incoming 0

def exists' (p : SupplyPosition) : Outcome Bool := do
  let total ← p.borrowAssetDeposit.total
  .ok (total ≠ 0 || p.borrowAssetYield.total ≠ 0)

def canBeRemoved (p : SupplyPosition) : Outcome Bool := do
  let present ← p.exists'
  .ok (!present)

end SupplyPosition

structure BorrowPosition where
  startedAtBlockTimestampMs : Option Nat
  collateralAssetDeposit : Nat
  borrowAssetPrincipal : Nat
  interest : Accumulator
  fees : Nat
  borrowAssetInFlight : Nat
  collateralAssetInFlight : Nat
  deriving DecidableEq

namespace BorrowPosition

def new (currentSnapshotIndex : Nat) : BorrowPosition :=
  ⟨none, 0, 0, Accumulator.new currentSnapshotIndex, 0, 0, 0⟩

def getBorrowAssetPrincipal (p : BorrowPosition) : Outcome Nat :=
  add 128 p.borrowAssetPrincipal p.borrowAssetInFlight

def getTotalBorrowAssetLiability (p : BorrowPosition) : Outcome Nat := do
  let principal ← add 128 p.borrowAssetPrincipal p.borrowAssetInFlight
  let withInterest ← add 128 principal p.interest.total
  add 128 withInterest p.fees

/-- The operands are evaluated from left to right, each only if it is needed. -/
def exists' (p : BorrowPosition) : Outcome Bool :=
  if p.collateralAssetDeposit ≠ 0 then .ok true
  else do
    let liability ← p.getTotalBorrowAssetLiability
    .ok (liability ≠ 0 || p.collateralAssetInFlight ≠ 0)

end BorrowPosition

structure Withdrawal (A : Type) where
  accountId : A
  amountToAccount : Nat
  amountToFees : Nat
  deriving DecidableEq

/-- What the history variable records; credits and charges in units of `2^-128`. -/
inductive JournalEntry (A : Type) where
  | yieldCredited (accountId : A) (snapshotIndex amount credit : Nat)
  | staticYieldCredited (accountId : A) (snapshotIndex credit : Nat)
  | interestCharged (accountId : A) (snapshotIndex principal charge : Nat)
  | liquidationKept (amount : Nat)
  | withdrawalStarted (amountToFees : Nat)
  | withdrawalFailed (amountToFees : Nat)
  | staticYieldWithdrawn (amount : Nat)
  | staticYieldReturned (amount : Nat)
  deriving DecidableEq

structure Market (A : Type) where
  configuration : MarketConfiguration A
  borrowAssetBalance : Nat
  borrowAssetDepositedActive : Nat
  borrowAssetDepositedIncoming : List IncomingDeposit
  borrowAssetWithdrawalInFlight : Nat
  borrowAssetBorrowedInFlight : Nat
  borrowAssetBorrowed : Nat
  borrowAssetPaidToFees : Nat
  collateralAssetDeposited : Nat
  supplyPositions : Table A SupplyPosition
  borrowPositions : Table A BorrowPosition
  currentTimeChunk : Nat
  currentYieldDistribution : Nat
  finalizedSnapshots : List Snapshot
  withdrawalQueue : WithdrawalQueue A
  staticYield : Table A Accumulator
  singleSnapshotMaximumInterestPrecomputed : Decimal
  journal : List (JournalEntry A)

/-- The ratio of borrowed to active funds, capped at one. -/
def usageRatio (active borrowed : Nat) : Outcome Decimal :=
  if active = 0 ∨ borrowed = 0 then .ok zero
  else if active ≤ borrowed then .ok one
  else (ofUInt borrowed).div (ofUInt active)

/-- The interest all borrowers together owe for a snapshot. -/
def Snapshot.interestPaidByBorrowers (s : Snapshot) (prevEndTimestampMs : Nat) : Outcome Decimal := do
  let duration ← sub s.endTimestampMs prevEndTimestampMs
  let yearly ← (ofUInt s.borrowAssetBorrowed).mul s.interestRate
  let scaled ← yearly.mulInt duration
  scaled.mul yearPerMs

/-- One pass over finalized snapshots: every step sees the index of its snapshot and
the end of the one before. -/
def accrueLoop {S : Type} (step : Nat → Snapshot → Nat → S → Outcome S) :
    List Snapshot → Nat → Nat → S → Outcome S
  | [], _, _, s => .ok s
  | snapshot :: rest, i, prevEndTimestampMs, s => do
    let s ← step i snapshot prevEndTimestampMs s
    accrueLoop step rest (i + 1) snapshot.endTimestampMs s

namespace Market

variable {A : Type}

variable (m : Market A)

/-- The snapshots an accumulator still has to see, up to a limit. -/
def pendingSnapshots (nextSnapshotIndex snapshotLimit : Nat) :
    List Snapshot := (m.finalizedSnapshots.drop nextSnapshotIndex).take snapshotLimit

def previousEnd (nextSnapshotIndex : Nat) : Outcome Nat := do
  let previous ← unwrap (if 1 ≤ nextSnapshotIndex then some (nextSnapshotIndex - 1) else none)
  let snapshot ← unwrap m.finalizedSnapshots[previous]?
  .ok snapshot.endTimestampMs

/-- The number of finalized snapshots, a 32-bit integer. -/
def snapshotsLen : Outcome Nat := fit 32 m.finalizedSnapshots.length

def borrowed : Outcome Nat := add 128 m.borrowAssetBorrowed m.borrowAssetBorrowedInFlight

def totalIncoming : Outcome Nat := totalOf m.borrowAssetDepositedIncoming 0

def incomingAt (snapshotIndex : Nat) : Nat :=
  ((m.borrowAssetDepositedIncoming.find? fun d =>
    d.activateAtSnapshotIndex = snapshotIndex).map IncomingDeposit.amount).getD 0

def currentSnapshot (blockTimestampMs : Nat) : Outcome Snapshot := do
  let index ← m.snapshotsLen
  let active ← add 128 m.borrowAssetDepositedActive (m.incomingAt index)
  let borrowed ← m.borrowed
  let usage ← usageRatio active borrowed
  let rate ← m.configuration.borrowInterestRateStrategy.at usage
  .ok ⟨m.currentTimeChunk, blockTimestampMs, active, borrowed, m.collateralAssetDeposited,
    m.currentYieldDistribution, rate⟩

/-- Activates the first entry scheduled for an index and drops it from the list. -/
def activateAt (index active : Nat) : List IncomingDeposit → Outcome (Nat × List IncomingDeposit)
  | [] => .ok (active, [])
  | d :: rest =>
    if d.activateAtSnapshotIndex = index then do
      let active ← add 128 active d.amount
      .ok (active, rest)
    else do
      let (active, rest) ← activateAt index active rest
      .ok (active, d :: rest)

/-- Closes the current time chunk if the clock has left it. -/
def snapshot (blockTimestampMs : Nat) : Outcome (Market A) := do
  let now ← m.configuration.timeChunkConfiguration.now blockTimestampMs
  if m.currentTimeChunk = now then .ok m
  else
    let snapshot ← m.currentSnapshot blockTimestampMs
    let index ← m.snapshotsLen
    let index ← add 32 index 1
    let (active, incoming) ←
      activateAt index m.borrowAssetDepositedActive m.borrowAssetDepositedIncoming
    .ok { m with
      finalizedSnapshots := m.finalizedSnapshots ++ [snapshot]
      borrowAssetDepositedActive := active
      borrowAssetDepositedIncoming := incoming
      currentTimeChunk := now
      currentYieldDistribution := 0 }

def new (configuration : MarketConfiguration A) [DecidableEq A]
    (blockTimestampMs : Nat) : Outcome (Market A) := do
  match ← configuration.validate with
  | .error e => .error (.message e.text)
  | .ok () =>
    let previous ← configuration.timeChunkConfiguration.previous blockTimestampMs
    let now ← configuration.timeChunkConfiguration.now blockTimestampMs
    let maximumInterest ← configuration.singleSnapshotMaximumInterest
    .ok {
      configuration := configuration
      borrowAssetBalance := 0
      borrowAssetDepositedActive := 0
      borrowAssetDepositedIncoming := []
      borrowAssetWithdrawalInFlight := 0
      borrowAssetBorrowedInFlight := 0
      borrowAssetBorrowed := 0
      borrowAssetPaidToFees := 0
      collateralAssetDeposited := 0
      supplyPositions := ∅
      borrowPositions := ∅
      currentTimeChunk := now
      currentYieldDistribution := 0
      finalizedSnapshots := [Snapshot.new previous blockTimestampMs]
      withdrawalQueue := WithdrawalQueue.new
      staticYield := ∅
      singleSnapshotMaximumInterestPrecomputed := maximumInterest
      journal := [] }

def singleSnapshotFee (amount : Nat) : Outcome (Option Nat) := do
  let fee ← m.singleSnapshotMaximumInterestPrecomputed.mulInt amount
  .ok fee.toU128Ceil

def getBorrowAssetAvailableToBorrow : Outcome Nat := do
  let reserve ← (ofUInt 1).sub m.configuration.borrowAssetMaximumUsageRatio
  let retained ← reserve.mul (ofUInt m.borrowAssetDepositedActive)
  let mustRetain ← unwrapFit retained.toU128Ceil
  let borrowed ← m.borrowed
  .ok (m.borrowAssetDepositedActive - borrowed - mustRetain)

def recordBorrowAssetYieldDistribution (amount : Nat) : Outcome (Market A) :=
  if amount = 0 then .ok m
  else do
    let distribution ← add 128 m.currentYieldDistribution amount
    .ok { m with currentYieldDistribution := distribution }

variable [DecidableEq A]

def cleanupSupplyPosition (accountId : A) : Outcome (Bool × Market A) :=
  match m.supplyPositions.lookup accountId with
  | none => .ok (false, m)
  | some position => do
    if ← position.canBeRemoved then
      .ok (true, { m with supplyPositions := m.supplyPositions.erase accountId })
    else .ok (false, m)

def cleanupBorrowPosition (accountId : A) : Outcome (Bool × Market A) :=
  match m.borrowPositions.lookup accountId with
  | none => .ok (false, m)
  | some position => do
    if ← position.exists' then .ok (false, m)
    else .ok (true, { m with borrowPositions := m.borrowPositions.erase accountId })

def recordBorrowAssetProtocolYield (amount : Nat) : Outcome (Market A) := do
  let record := (m.staticYield.lookup m.configuration.protocolAccountId).getD (Accumulator.new 1)
  let record ← record.addOnce amount
  .ok { m with staticYield := m.staticYield.insert m.configuration.protocolAccountId record }

/-- The state of the static accrual: the sum so far and the credits behind it. -/
def staticYieldStep (accountId : A) (numerator denominator i : Nat) (s : Snapshot)
    (prevEndTimestampMs : Nat) (state : Decimal × List (JournalEntry A)) :
    Outcome (Decimal × List (JournalEntry A)) := do
  let interest ← s.interestPaidByBorrowers prevEndTimestampMs
  let yield ← interest.add (ofUInt s.yieldDistribution)
  let weighted ← yield.mulInt numerator
  let credit ← weighted.divInt denominator
  let accumulated ← state.1.add credit
  .ok (accumulated, state.2 ++ [.staticYieldCredited accountId i credit.repr])

def accumulateStaticYield (accountId : A) (snapshotLimit : Nat) : Outcome (Option (Market A)) :=
  match m.configuration.yieldWeights.static.lookup accountId with
  | none => .ok none
  | some numerator => do
    let denominator ← m.configuration.yieldWeights.totalWeight
    let accumulator := (m.staticYield.lookup accountId).getD (Accumulator.new 1)
    let next := accumulator.nextSnapshotIndex
    let prevEnd ← m.previousEnd next
    let pending := m.pendingSnapshots next snapshotLimit
    let (accumulated, entries) ← accrueLoop (staticYieldStep accountId numerator denominator)
      pending next prevEnd (zero, [])
    let amount ← unwrapFit accumulated.toU128Floor
    let accumulator ← accumulator.accumulate
      ⟨amount, accumulated.fractionalPartAsU128Dividend, next + pending.length⟩
    .ok (some { m with
      staticYield := m.staticYield.insert accountId accumulator
      journal := m.journal ++ entries })

end Market

end Templar.Lending
