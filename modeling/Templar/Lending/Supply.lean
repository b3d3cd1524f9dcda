import Templar.Lending.Market

/-!
# Supply positions

A guard holds a supply position out of the market; dropping it writes the position
back. Yield accrues snapshot by snapshot on the amount that was active in each, so
deposits waiting in the position join the amount at the snapshot they activate in.
A withdrawal takes from yield, then from waiting deposits, then from active funds.
-/

namespace Templar.Lending

open Checked

variable {A : Type}

structure SupplyPositionGuard (A : Type) where
  market : Market A
  accountId : A
  position : SupplyPosition

inductive WithdrawalAttempt (A : Type) where
  | full (withdrawal : Withdrawal A)
  | partially (withdrawal : Withdrawal A) (remaining : Nat)
  | emptyPosition
  | noLiquidity
  deriving DecidableEq

/-- Moves the deposits that activate in snapshot `i` from the front of the list. -/
def takeIncoming (i : Nat) : List IncomingDeposit → Nat → Outcome (Nat × List IncomingDeposit)
  | [], amount => .ok (amount, [])
  | d :: rest, amount =>
    if d.activateAtSnapshotIndex = i then do
      let amount ← add 128 amount d.amount
      takeIncoming i rest amount
    else .ok (amount, d :: rest)

/-- The running state of the yield calculation. -/
structure YieldState (A : Type) where
  amount : Nat
  incoming : List IncomingDeposit
  accumulated : Decimal
  entries : List (JournalEntry A)

/-- The yield of one snapshot for an amount, for a snapshot with active funds. -/
def Snapshot.yieldFor (s : Snapshot) (prevEndTimestampMs amount numerator denominator : Nat) :
    Outcome Decimal := do
  let interest ← s.interestPaidByBorrowers prevEndTimestampMs
  let yield ← interest.add (Decimal.ofUInt s.yieldDistribution)
  let scaled ← yield.mulInt amount
  let weighted ← scaled.mulInt numerator
  let share ← weighted.divInt s.borrowAssetDepositedActive
  share.divInt denominator

def yieldStep (accountId : A) (numerator denominator i : Nat) (s : Snapshot)
    (prevEndTimestampMs : Nat) (state : YieldState A) : Outcome (YieldState A) := do
  let (amount, incoming) ← takeIncoming i state.incoming state.amount
  if s.borrowAssetDepositedActive = 0 then
    .ok ⟨amount, incoming, state.accumulated,
      state.entries ++ [.yieldCredited accountId i amount 0]⟩
  else
    let credit ← s.yieldFor prevEndTimestampMs amount numerator denominator
    let accumulated ← state.accumulated.add credit
    .ok ⟨amount, incoming, accumulated,
      state.entries ++ [.yieldCredited accountId i amount credit.repr]⟩

/-- Activates from the front of the list, up to and including an index. -/
def activateThrough (throughSnapshotIndex : Nat) :
    List IncomingDeposit → Nat → Outcome (Nat × List IncomingDeposit)
  | [], active => .ok (active, [])
  | d :: rest, active =>
    if d.activateAtSnapshotIndex ≤ throughSnapshotIndex then do
      let active ← add 128 active d.amount
      activateThrough throughSnapshotIndex rest active
    else .ok (active, d :: rest)

def maxIncoming : Nat := 4

def tooManyDepositsText : String := "Too many deposits without running accumulation"

/-- Adds to the last entry if it is scheduled for the same index, or appends one. -/
def addToPosition (incoming : List IncomingDeposit) (amount index : Nat) :
    Outcome (List IncomingDeposit) :=
  match incoming.getLast? with
  | some d =>
    if d.activateAtSnapshotIndex = index then do
      let total ← add 128 d.amount amount
      .ok (incoming.dropLast ++ [⟨index, total⟩])
    else do
      require (incoming.length < maxIncoming) tooManyDepositsText
      .ok (incoming ++ [⟨index, amount⟩])
  | none => do
    require (incoming.length < maxIncoming) tooManyDepositsText
    .ok (incoming ++ [⟨index, amount⟩])

/-- Adds to the first entry scheduled for the index, or appends one. -/
def addToMarket (amount index : Nat) : List IncomingDeposit → Outcome (List IncomingDeposit)
  | [] => .ok [⟨index, amount⟩]
  | d :: rest =>
    if d.activateAtSnapshotIndex = index then do
      let total ← add 128 d.amount amount
      .ok (⟨index, total⟩ :: rest)
    else do
      let rest ← addToMarket amount index rest
      .ok (d :: rest)

def missingEntryText : String :=
  "Invariant violation: Market incoming entry should exist if position incoming entry exists"

def entryUnderflowText : String :=
  "Invariant violation: Market incoming >= position incoming should hold for all snapshot indices"

/-- Takes from the first entry scheduled for the index. -/
def removeFromMarket (amount index : Nat) : List IncomingDeposit → Outcome (List IncomingDeposit)
  | [] => .error (.message missingEntryText)
  | d :: rest =>
    if d.activateAtSnapshotIndex = index then do
      let total ← unwrapSub d.amount amount entryUnderflowText
      .ok (⟨index, total⟩ :: rest)
    else do
      let rest ← removeFromMarket amount index rest
      .ok (d :: rest)

namespace SupplyPositionGuard

variable (g : SupplyPositionGuard A)

def calculateYield (snapshotLimit : Nat) :
    Outcome (AccumulationRecord × List (JournalEntry A)) := do
  let next := g.position.borrowAssetYield.nextSnapshotIndex
  let prevEnd ← g.market.previousEnd next
  let numerator := g.market.configuration.yieldWeights.supply
  let denominator ← g.market.configuration.yieldWeights.totalWeight
  let pending := g.market.pendingSnapshots next snapshotLimit
  let state ← accrueLoop (yieldStep g.accountId numerator denominator) pending next prevEnd
    ⟨g.position.borrowAssetDeposit.active, g.position.borrowAssetDeposit.incoming, Decimal.zero, []⟩
  let amount ← unwrapFit state.accumulated.toU128Floor
  .ok (⟨amount, state.accumulated.fractionalPartAsU128Dividend, next + pending.length⟩,
    state.entries)

def activateIncoming (throughSnapshotIndex : Nat) : Outcome (SupplyPositionGuard A) := do
  let deposit := g.position.borrowAssetDeposit
  let (active, incoming) ← activateThrough throughSnapshotIndex deposit.incoming deposit.active
  .ok { g with position :=
    { g.position with borrowAssetDeposit := { deposit with active := active, incoming := incoming } } }

def removeActive (amount : Nat) : Outcome (SupplyPositionGuard A) := do
  let deposit := g.position.borrowAssetDeposit
  let active ← sub deposit.active amount
  let total ← sub g.market.borrowAssetDepositedActive amount
  .ok { g with
    position := { g.position with borrowAssetDeposit := { deposit with active := active } }
    market := { g.market with borrowAssetDepositedActive := total } }

def addIncoming (amount activateAtSnapshotIndex : Nat) : Outcome (SupplyPositionGuard A) := do
  let deposit := g.position.borrowAssetDeposit
  let incoming ← addToPosition deposit.incoming amount activateAtSnapshotIndex
  let total ← addToMarket amount activateAtSnapshotIndex g.market.borrowAssetDepositedIncoming
  .ok { g with
    position := { g.position with borrowAssetDeposit := { deposit with incoming := incoming } }
    market := { g.market with borrowAssetDepositedIncoming := total } }

/-- Pops the newest deposits until the amount is reached; `newestFirst` is what is
left of the list, newest first, and `total` what was popped. -/
def removeIncomingLoop (amount : Nat) :
    List IncomingDeposit → Nat → SupplyPositionGuard A → Outcome (SupplyPositionGuard A)
  | [], _, g => .ok { g with position :=
      { g.position with borrowAssetDeposit := { g.position.borrowAssetDeposit with incoming := [] } } }
  | newest :: older, total, g => do
    let total ← add 128 total newest.amount
    let entries ← removeFromMarket newest.amount newest.activateAtSnapshotIndex
      g.market.borrowAssetDepositedIncoming
    let g : SupplyPositionGuard A := { g with
      position := { g.position with
        borrowAssetDeposit := { g.position.borrowAssetDeposit with incoming := older.reverse } }
      market := { g.market with borrowAssetDepositedIncoming := entries } }
    if total = amount then .ok g
    else if amount < total then g.addIncoming (total - amount) newest.activateAtSnapshotIndex
    else removeIncomingLoop amount older total g

def removeIncoming (amount : Nat) : Outcome (SupplyPositionGuard A) :=
  removeIncomingLoop amount g.position.borrowAssetDeposit.incoming.reverse 0 g

def accumulateYieldPartial (snapshotLimit : Nat) : Outcome (SupplyPositionGuard A) := do
  require (0 < snapshotLimit) "snapshot_limit must be nonzero"
  let (record, entries) ← g.calculateYield snapshotLimit
  let g ← g.activateIncoming record.nextSnapshotIndex
  let yield ← g.position.borrowAssetYield.accumulate record
  .ok { g with
    position := { g.position with borrowAssetYield := yield }
    market := { g.market with journal := g.market.journal ++ entries } }

def u32Max : Nat := 2 ^ 32 - 1

def accumulateYield : Outcome (SupplyPositionGuard A) := g.accumulateYieldPartial u32Max

def missingTimestampText : String := "Invariant violation: Position with deposit has no timestamp"

def feeOverflowText : String := "Fee calculation overflow"

/-- The removal of a withdrawn amount from yield, waiting deposits and active funds. -/
def removeWithdrawal (withdrawalAmount myYield myIncoming : Nat) :
    Outcome (SupplyPositionGuard A) := do
  let deposit := g.position.borrowAssetDeposit
  let outgoing ← add 128 deposit.outgoing withdrawalAmount
  let amountFromYield := min myYield withdrawalAmount
  let yield ← g.position.borrowAssetYield.remove amountFromYield
  let paidToFees ← sub g.market.borrowAssetPaidToFees amountFromYield
  let g : SupplyPositionGuard A := { g with
    position := { g.position with
      borrowAssetDeposit := { deposit with outgoing := outgoing }, borrowAssetYield := yield }
    market := { g.market with borrowAssetPaidToFees := paidToFees } }
  let amountToRemove ← sub withdrawalAmount amountFromYield
  let amountFromIncoming := min myIncoming amountToRemove
  let g ← g.removeIncoming amountFromIncoming
  let amountToRemove ← sub amountToRemove amountFromIncoming
  if amountToRemove = 0 then .ok g else g.removeActive amountToRemove

/-- The split of a withdrawn amount between the account and the protocol, and its
payment out of the balance. -/
def payWithdrawal (withdrawalAmount blockTimestampMs : Nat) :
    Outcome (Withdrawal A × SupplyPositionGuard A) := do
  let startedAt ← expect missingTimestampText g.position.startedAtBlockTimestampMs
  let fee ← g.market.configuration.supplyWithdrawalFee.of withdrawalAmount
    (blockTimestampMs - startedAt)
  let fee ← expect feeOverflowText fee
  let amountToFees := min fee withdrawalAmount
  let amountToAccount := withdrawalAmount - amountToFees
  let balance ← sub g.market.borrowAssetBalance amountToAccount
  let inFlight ← add 128 g.market.borrowAssetWithdrawalInFlight amountToAccount
  .ok (⟨g.accountId, amountToAccount, amountToFees⟩, { g with market := { g.market with
    borrowAssetBalance := balance
    borrowAssetWithdrawalInFlight := inFlight
    journal := g.market.journal ++ [.withdrawalStarted amountToFees] } })

def recordWithdrawalInitial (requestedAmount blockTimestampMs : Nat) :
    Outcome (WithdrawalAttempt A × SupplyPositionGuard A) := do
  let myIncoming ← g.position.totalIncoming
  let myYield := min g.position.borrowAssetYield.total g.market.borrowAssetPaidToFees
  let deposited ← add 128 myIncoming g.position.borrowAssetDeposit.active
  let entitled ← add 128 deposited myYield
  if entitled = 0 then .ok (.emptyPosition, g)
  else
    let requested := min requestedAmount entitled
    let funds ← add 128 g.market.borrowAssetDepositedActive g.market.borrowAssetPaidToFees
    let idle ← sub funds g.market.borrowAssetBorrowed
    let available ← add 128 idle myIncoming
    let canWithdrawNow := min entitled available
    if canWithdrawNow = 0 then .ok (.noLiquidity, g)
    else
      let withdrawalAmount := min requested canWithdrawNow
      let g ← g.removeWithdrawal withdrawalAmount myYield myIncoming
      let (withdrawal, g) ← g.payWithdrawal withdrawalAmount blockTimestampMs
      if canWithdrawNow < requested then
        .ok (.partially withdrawal (requested - canWithdrawNow), g)
      else .ok (.full withdrawal, g)

variable [DecidableEq A]

def recordWithdrawalFinal (withdrawal : Withdrawal A) (success : Bool) :
    Outcome (SupplyPositionGuard A) := do
  let amount ← add 128 withdrawal.amountToAccount withdrawal.amountToFees
  let deposit := g.position.borrowAssetDeposit
  let outgoing ← sub deposit.outgoing amount
  let inFlight ← sub g.market.borrowAssetWithdrawalInFlight withdrawal.amountToAccount
  let g : SupplyPositionGuard A := { g with
    position := { g.position with borrowAssetDeposit := { deposit with outgoing := outgoing } }
    market := { g.market with borrowAssetWithdrawalInFlight := inFlight } }
  if success then
    let market ← g.market.recordBorrowAssetProtocolYield withdrawal.amountToFees
    .ok { g with market := market }
  else
    let balance ← add 128 g.market.borrowAssetBalance withdrawal.amountToAccount
    let g : SupplyPositionGuard A := { g with market := { g.market with
      borrowAssetBalance := balance
      journal := g.market.journal ++ [.withdrawalFailed withdrawal.amountToFees] } }
    let len ← g.market.snapshotsLen
    let index ← add 32 len 1
    g.addIncoming amount index

omit [DecidableEq A] in
def recordDeposit (amount blockTimestampMs : Nat) : Outcome (SupplyPositionGuard A) := do
  let startedAt :=
    if g.position.startedAtBlockTimestampMs.isNone ∨ g.position.borrowAssetDeposit.active = 0 then
      some blockTimestampMs
    else g.position.startedAtBlockTimestampMs
  let balance ← add 128 g.market.borrowAssetBalance amount
  let g : SupplyPositionGuard A := { g with
    position := { g.position with startedAtBlockTimestampMs := startedAt }
    market := { g.market with borrowAssetBalance := balance } }
  let len ← g.market.snapshotsLen
  let index ← add 32 len 1
  g.addIncoming amount index

omit [DecidableEq A] in
def isWithinAllowableRange : Outcome Bool := do
  let total ← g.position.borrowAssetDeposit.total
  .ok (g.market.configuration.supplyRange.contains total)

/-- Writes the position back. -/
def drop : Market A :=
  { g.market with supplyPositions := g.market.supplyPositions.insert g.accountId g.position }

end SupplyPositionGuard

namespace Market

variable [DecidableEq A]

def supplyPositionGuard (m : Market A) (accountId : A) : Option (SupplyPositionGuard A) :=
  (m.supplyPositions.lookup accountId).map fun position => ⟨m, accountId, position⟩

def getOrCreateSupplyPositionGuard (m : Market A) (accountId : A) :
    Outcome (SupplyPositionGuard A) :=
  match m.supplyPositions.lookup accountId with
  | some position => .ok ⟨m, accountId, position⟩
  | none => do
    let len ← m.snapshotsLen
    .ok ⟨m, accountId, SupplyPosition.new len⟩

end Market

end Templar.Lending
