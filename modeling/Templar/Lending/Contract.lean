import Templar.Lending.Borrow

/-!
# The market contract and its runs

Entry points change the market and schedule receipts: promises to the oracle or to
a token contract whose results come back through a callback. Receipts may come back
in any order, with other calls in between. A call that aborts changes nothing; a
callback that aborts changes nothing either, but its receipt is spent.

Events are not modelled. Storage deposits belong to another contract standard: what
its bookkeeping answers is part of the environment of a step.
-/

namespace Templar.Lending

open Checked

variable {A : Type}

structure LiquidateMsg (A : Type) where
  accountId : A
  amount : Option Nat
  deriving DecidableEq

inductive DepositMsg (A : Type) where
  | supply
  | collateralize
  | repay
  | repayAccount (accountId : A)
  | liquidate (msg : LiquidateMsg A)

def DepositMsg.expectsBorrowAsset : DepositMsg A → Bool
  | .collateralize => false
  | _ => true

inductive HarvestYieldMode where
  | default
  | snapshotLimit (limit : Nat)

structure WithdrawalQueueExecutionResult where
  depth : Nat
  length : Nat
  deriving DecidableEq, Repr

/-- A scheduled callback with its arguments. The last step of a liquidation only
returns its argument and is left out. -/
inductive Receipt (A : Type) where
  | borrow01 (accountId : A) (amount : Nat)
  | borrow02 (accountId : A) (initialBorrow : InitialBorrow)
  | collateralize01 (accountId : A) (amount : Nat)
  | repay01 (accountId : A) (amount : Nat)
  | liquidate01 (amount : Nat) (msg : LiquidateMsg A)
  | withdrawCollateral01 (accountId : A) (amount : Nat)
  | withdrawCollateral02 (accountId : A) (amount : Nat)
  | withdrawal01 (resolutions : List (Withdrawal A)) (result : WithdrawalQueueExecutionResult)
  | withdrawStaticYield01 (accountId : A) (amount : Nat)
  deriving DecidableEq

/-- An answer that a scheduled callback will give, or the answer itself. -/
inductive PromiseOrValue (A T : Type) where
  | promise (receipt : Receipt A)
  | value (result : T)
  deriving DecidableEq

def PromiseOrValue.receipts {T : Type} : PromiseOrValue A T → List (Receipt A)
  | .promise receipt => [receipt]
  | .value _ => []

/-- The block time and the answers of the storage bookkeeping. -/
structure Env where
  blockTimestampMs : Nat
  chargeAccepted : Bool
  refundAccepted : Nat → Bool
  blockTimestampMs_lt : blockTimestampMs < 2 ^ 64

/-- The promise results a callback finds. -/
structure Reply where
  oracleResponse : Option OracleResponse
  succeeded : Nat → Bool

inductive Call (A : Type) where
  | ftOnTransfer (predecessor senderId : A) (amount : Nat) (msg : Option (DepositMsg A))
  | mtOnTransfer (predecessor : A) (previousOwnerIds : List A)
      (tokenIds : List String) (amounts : List Nat) (msg : Option (DepositMsg A))
  | borrow (predecessor : A) (amount : Nat)
  | withdrawCollateral (predecessor : A) (amount : Nat)
  | applyInterest (predecessor : A) (accountId : Option A) (snapshotLimit : Option Nat)
  | createSupplyWithdrawalRequest (predecessor : A) (amount : Nat)
  | cancelSupplyWithdrawalRequest (predecessor : A)
  | executeNextSupplyWithdrawalRequest (batchLimit : Option Nat)
  | harvestYield (predecessor : A) (accountId : Option A) (mode : Option HarvestYieldMode)
  | accumulateStaticYield (predecessor : A) (accountId : Option A) (snapshotLimit : Option Nat)
  | withdrawStaticYield (predecessor : A) (amount : Option Nat)

abbrev Effect (A : Type) := Market A × List (Receipt A)

def storageText : String := "Storage error"

/-- The first deposit of an account pays for the storage of its position. -/
def chargeForStorage (env : Env) (first : Bool) : Outcome Unit :=
  if first then require env.chargeAccepted storageText else .ok ()

/-- The storage of a removed position is paid back. -/
def refundForStorage (env : Env) (i : Nat) (cleaned : Bool) : Outcome Unit :=
  if cleaned then require (env.refundAccepted i) storageText else .ok ()

def noBorrowerText : String := "No borrower record. Please deposit collateral first."

namespace Market

variable [DecidableEq A]

variable (m : Market A) (env : Env)

variable (reply : Reply)

def pricePair : Outcome PricePair := do
  let response ← expect "Callback computation 0 was not successful" reply.oracleResponse
  match m.configuration.priceOracleConfiguration.createPricePair response with
  | .ok pair => .ok pair
  | .error e => .error (.message e.text)

def executeSupply (accountId : A) (amount : Nat) : Outcome (Market A) := do
  chargeForStorage env (m.supplyPositions.lookup accountId).isNone
  let m ← m.snapshot env.blockTimestampMs
  let g ← m.getOrCreateSupplyPositionGuard accountId
  let g ← g.accumulateYield
  let g ← g.recordDeposit amount env.blockTimestampMs
  let within ← g.isWithinAllowableRange
  require within "New supply position is outside of allowable range"
  .ok g.drop

def executeCollateralize (accountId : A) (amount : Nat) (pricePair : PricePair) :
    Outcome (Market A) := do
  chargeForStorage env (m.borrowPositions.lookup accountId).isNone
  let m ← m.snapshot env.blockTimestampMs
  let g ← m.getOrCreateBorrowPositionGuard accountId
  let g ← g.accumulateInterest
  let g ← g.recordCollateralAssetDeposit amount
  let status ← g.status pricePair env.blockTimestampMs
  require (status.isLiquidation = false) "Position is eligible for liquidation after collateralization"
  .ok g.drop

/-- Without a position the whole amount goes back and only the snapshot is kept. -/
def executeRepay (accountId : A) (amount : Nat) (pricePair : PricePair) :
    Outcome (Nat × Market A) := do
  let m ← m.snapshot env.blockTimestampMs
  match m.borrowPositionGuard accountId with
  | none => .ok (amount, m)
  | some g =>
    let g ← g.accumulateInterest
    let status ← g.status pricePair env.blockTimestampMs
    require (status.isLiquidation = false) "Cannot repay when eligible for liquidation"
    let (refund, g) ← g.recordRepay amount
    .ok (refund, g.drop)

/-- What a token transfer asks for, once its asset has been accepted. -/
def deposit (senderId : A) (amount : Nat) : DepositMsg A → Outcome (Effect A)
  | .supply => do
    let m ← m.executeSupply env senderId amount
    .ok (m, [])
  | .collateralize => .ok (m, [.collateralize01 senderId amount])
  | .repay => .ok (m, [.repay01 senderId amount])
  | .repayAccount accountId => .ok (m, [.repay01 accountId amount])
  | .liquidate msg => .ok (m, [.liquidate01 amount msg])

def acceptAsset (asset : FungibleAsset A) (msg : DepositMsg A) : Outcome Unit :=
  if msg.expectsBorrowAsset then
    require (m.configuration.borrowAsset = asset) "Unsupported borrow asset"
  else require (m.configuration.collateralAsset = asset) "Unsupported collateral asset"

variable (predecessor : A)

def ftOnTransfer (senderId : A) (amount : Nat)
    (msg : Option (DepositMsg A)) : Outcome (Effect A) := do
  let msg ← expect "Invalid deposit msg" msg
  m.acceptAsset (.nep141 predecessor) msg
  m.deposit env senderId amount msg

def mtOnTransfer (previousOwnerIds : List A)
    (tokenIds : List String) (amounts : List Nat) (msg : Option (DepositMsg A)) :
    Outcome (Effect A) := do
  let msg ← expect "Invalid deposit msg" msg
  match tokenIds with
  | [tokenId] =>
    match previousOwnerIds, amounts with
    | [senderId], [amount] =>
      m.acceptAsset (.nep245 predecessor tokenId) msg
      m.deposit env senderId amount msg
    | _, _ => .error (.message "Invalid input length")
  | _ => .error (.message "This contract only accepts one token at a time.")

def borrow (amount : Nat) : Outcome (Effect A) := do
  require (amount ≠ 0) "Borrow amount must be greater than zero"
  require ((m.borrowPositions.lookup predecessor).isSome) "Borrow position does not exist"
  .ok (m, [.borrow01 predecessor amount])

def withdrawCollateral (amount : Nat) : Outcome (Effect A) := do
  let m ← m.snapshot env.blockTimestampMs
  let g ← expect noBorrowerText (m.borrowPositionGuard predecessor)
  let liability ← g.position.getTotalBorrowAssetLiability
  if liability = 0 then
    let g ← g.accumulateInterest
    let g ← g.recordCollateralAssetWithdrawalInitial amount
    .ok (g.drop, [.withdrawCollateral02 predecessor amount])
  else .ok (g.drop, [.withdrawCollateral01 predecessor amount])

def applyInterest (accountId : A) (snapshotLimit : Option Nat) : Outcome (Effect A) := do
  let m ← m.snapshot env.blockTimestampMs
  match m.borrowPositionGuard accountId with
  | none => .ok (m, [])
  | some g =>
    let g ← g.accumulateInterestPartial (snapshotLimit.getD SupplyPositionGuard.u32Max)
    .ok (g.drop, [])

def createSupplyWithdrawalRequest (amount : Nat) : Outcome (Effect A) := do
  require (amount ≠ 0) "Amount to withdraw must be greater than zero"
  let position ← expect "Supply position does not exist" (m.supplyPositions.lookup predecessor)
  let total ← position.borrowAssetDeposit.total
  require (total ≠ 0) "Supply position does not exist"
  require (amount ≤ total) "Attempt to withdraw more than current deposit"
  require (m.configuration.supplyWithdrawalRange.contains amount)
    "Withdrawal amount is outside of allowable range"
  let (_, queue) ← m.withdrawalQueue.remove predecessor
  let queue ← queue.insertOrUpdate predecessor amount
  .ok ({ m with withdrawalQueue := queue }, [])

def cancelSupplyWithdrawalRequest : Outcome (Effect A) := do
  let (_, queue) ← m.withdrawalQueue.remove predecessor
  .ok ({ m with withdrawalQueue := queue }, [])

/-- The progress of an execution of the queue. -/
structure Execution (A : Type) where
  market : Market A
  batch : List (Withdrawal A)
  depthCleared : Nat

/-- The head of the queue leaves it. -/
def Execution.popHead (x : Execution A) (requestedAmount : Nat) : Outcome (Execution A) := do
  let (_, queue) ← x.market.withdrawalQueue.pop
  let depth ← add 128 x.depthCleared requestedAmount
  .ok { x with market := { x.market with withdrawalQueue := queue }, depthCleared := depth }

/-- One visited entry; the flag says whether the loop goes on. -/
def Execution.visit (x : Execution A) (blockTimestampMs : Nat) (accountId : A)
    (requestedAmount : Nat) : Outcome (Bool × Execution A) :=
  match x.market.supplyPositionGuard accountId with
  | none => do
    let x ← x.popHead requestedAmount
    .ok (true, x)
  | some g => do
    let g ← g.accumulateYield
    let (attempt, g) ← g.recordWithdrawalInitial requestedAmount blockTimestampMs
    let x := { x with market := g.drop }
    match attempt with
    | .emptyPosition =>
      let x ← x.popHead requestedAmount
      .ok (true, x)
    | .noLiquidity => .ok (false, x)
    | .full withdrawal =>
      let x ← { x with batch := x.batch ++ [withdrawal] }.popHead requestedAmount
      .ok (true, x)
    | .partially withdrawal remaining =>
      let (_, queue) ← x.market.withdrawalQueue.mutHead fun _ => ((), remaining)
      let cleared ← sub requestedAmount remaining
      let depth ← add 128 x.depthCleared cleared
      .ok (false, ⟨{ x.market with withdrawalQueue := queue }, x.batch ++ [withdrawal], depth⟩)

/-- The loop over the queue; `remaining` entries may still be visited. -/
def executeLoop (blockTimestampMs : Nat) : Nat → Execution A → Outcome (Execution A)
  | 0, x => do
    let _ ← x.market.withdrawalQueue.peek
    .ok x
  | remaining + 1, x => do
    match ← x.market.withdrawalQueue.peek with
    | none => .ok x
    | some (accountId, requestedAmount) =>
      let (continues, x) ← x.visit blockTimestampMs accountId requestedAmount
      if continues then executeLoop blockTimestampMs remaining x else .ok x

/-- Without a transfer the result is returned at once, otherwise by the callback of the transfers. -/
def executeNextSupplyWithdrawalRequest (batchLimit : Option Nat) :
    Outcome (Market A × PromiseOrValue A WithdrawalQueueExecutionResult) := do
  let m ← m.snapshot env.blockTimestampMs
  let x ← executeLoop env.blockTimestampMs (batchLimit.getD 1) ⟨m, [], 0⟩
  let length ← sub m.withdrawalQueue.len x.market.withdrawalQueue.len
  let result := ⟨x.depthCleared, length⟩
  if x.batch.isEmpty then .ok (x.market, .value result)
  else .ok (x.market, .promise (.withdrawal01 x.batch result))

def harvest (g : SupplyPositionGuard A) : Option HarvestYieldMode → Outcome (SupplyPositionGuard A)
  | some (.snapshotLimit limit) => g.accumulateYieldPartial limit
  | _ => g.accumulateYield

def harvestYield (accountId : A) (mode : Option HarvestYieldMode) : Outcome (Effect A) := do
  let m ← m.snapshot env.blockTimestampMs
  match m.supplyPositionGuard accountId with
  | none => .ok (m, [])
  | some g =>
    let g ← harvest g mode
    .ok (g.drop, [])

def accumulateStaticYieldCall (accountId : A) (snapshotLimit : Option Nat) :
    Outcome (Effect A) := do
  let m ← m.accumulateStaticYield accountId (snapshotLimit.getD SupplyPositionGuard.u32Max)
  let m ← expect "This account does not earn static yield" m
  .ok (m, [])

def withdrawStaticYield (amount : Option Nat) : Outcome (Effect A) := do
  let record ← expect "Yield record does not exist" (m.staticYield.lookup predecessor)
  let amount := amount.getD record.total
  require (amount ≤ record.total) "Attempt to withdraw more than accumulated static yield"
  let record ← record.remove amount
  let balance ← unwrapSub m.borrowAssetBalance amount
    "Invariant violation: static yield withdrawal exceeds market borrow asset balance"
  .ok ({ m with
    staticYield := m.staticYield.insert predecessor record
    borrowAssetBalance := balance
    journal := m.journal ++ [.staticYieldWithdrawn amount] },
    [.withdrawStaticYield01 predecessor amount])

def call : Call A → Outcome (Effect A)
  | .ftOnTransfer predecessor senderId amount msg => m.ftOnTransfer env predecessor senderId amount msg
  | .mtOnTransfer predecessor owners tokenIds amounts msg =>
    m.mtOnTransfer env predecessor owners tokenIds amounts msg
  | .borrow predecessor amount => m.borrow predecessor amount
  | .withdrawCollateral predecessor amount => m.withdrawCollateral env predecessor amount
  | .applyInterest predecessor accountId limit =>
    m.applyInterest env (accountId.getD predecessor) limit
  | .createSupplyWithdrawalRequest predecessor amount =>
    m.createSupplyWithdrawalRequest predecessor amount
  | .cancelSupplyWithdrawalRequest predecessor => m.cancelSupplyWithdrawalRequest predecessor
  | .executeNextSupplyWithdrawalRequest limit => do
    let (m, answer) ← m.executeNextSupplyWithdrawalRequest env limit
    .ok (m, answer.receipts)
  | .harvestYield predecessor accountId mode => m.harvestYield env (accountId.getD predecessor) mode
  | .accumulateStaticYield predecessor accountId limit =>
    m.accumulateStaticYieldCall (accountId.getD predecessor) limit
  | .withdrawStaticYield predecessor amount => m.withdrawStaticYield predecessor amount

def borrow01ConsumePrice (accountId : A) (amount : Nat) : Outcome (Effect A) := do
  let pricePair ← m.pricePair reply
  let m ← m.snapshot env.blockTimestampMs
  let g ← expect noBorrowerText (m.borrowPositionGuard accountId)
  let g ← g.accumulateInterest
  match ← g.recordBorrowInitial amount pricePair env.blockTimestampMs with
  | .error e => .error (.message e.text)
  | .ok (initialBorrow, g) => .ok (g.drop, [.borrow02 accountId initialBorrow])

def borrow02Finalize (accountId : A) (initialBorrow : InitialBorrow) : Outcome (Effect A) := do
  let m ← m.snapshot env.blockTimestampMs
  let g ← expect "Invariant violation: borrow position does not exist after transfer."
    (m.borrowPositionGuard accountId)
  let g ← g.accumulateInterest
  let g ← g.recordBorrowFinal initialBorrow (reply.succeeded 0) env.blockTimestampMs
  .ok (g.drop, [])

def liquidate01ConsumePrice (amount : Nat) (msg : LiquidateMsg A) : Outcome (Effect A) := do
  let pricePair ← m.pricePair reply
  let m ← m.snapshot env.blockTimestampMs
  let g ← expect "Borrow position does not exist" (m.borrowPositionGuard msg.accountId)
  let g ← g.accumulateInterest
  match ← g.recordLiquidation amount msg.amount pricePair env.blockTimestampMs with
  | .error e => .error (.message e.text)
  | .ok (_, g) =>
    let (cleaned, m) ← g.drop.cleanupBorrowPosition msg.accountId
    refundForStorage env 0 cleaned
    .ok (m, [])

def withdrawCollateral01ConsumePrice (accountId : A) (amount : Nat) : Outcome (Effect A) := do
  let pricePair ← m.pricePair reply
  let m ← m.snapshot env.blockTimestampMs
  let g ← expect noBorrowerText (m.borrowPositionGuard accountId)
  let g ← g.accumulateInterest
  let g ← g.recordCollateralAssetWithdrawalInitial amount
  let status ← g.status pricePair env.blockTimestampMs
  require status.isHealthy "Borrow position must be healthy after collateral withdrawal"
  .ok (g.drop, [.withdrawCollateral02 accountId amount])

def withdrawCollateral02Finalize (accountId : A) (amount : Nat) : Outcome (Effect A) := do
  let m ← m.snapshot env.blockTimestampMs
  let g ← expect "Invariant violation: Borrow position must exist after collateral withdrawal."
    (m.borrowPositionGuard accountId)
  let g ← g.accumulateInterest
  let g ← g.recordCollateralAssetWithdrawalFinal amount (reply.succeeded 0)
  if reply.succeeded 0 then
    let (cleaned, m) ← g.drop.cleanupBorrowPosition accountId
    refundForStorage env 0 cleaned
    .ok (m, [])
  else .ok (g.drop, [])

/-- An absent position is skipped. -/
def settlePosition (resolution : Withdrawal A) (succeeded : Bool) : Outcome (Market A) :=
  match m.supplyPositionGuard resolution.accountId with
  | none => .ok m
  | some g => do
    let g ← g.recordWithdrawalFinal resolution succeeded
    .ok g.drop

/-- The settlement of one withdrawal of a batch. -/
def settleOne (i : Nat) (resolution : Withdrawal A) : Outcome (Market A) := do
  let m ← m.settlePosition resolution (reply.succeeded i)
  if reply.succeeded i then
    let (cleaned, m) ← m.cleanupSupplyPosition resolution.accountId
    refundForStorage env i cleaned
    .ok m
  else .ok m

def settleLoop (env : Env) (reply : Reply) :
    List (Withdrawal A) → Nat → Market A → Outcome (Market A)
  | [], _, m => .ok m
  | resolution :: rest, i, m => do
    let m ← m.settleOne env reply i resolution
    settleLoop env reply rest (i + 1) m

def withdrawal01Finalize (resolutions : List (Withdrawal A))
    (result : WithdrawalQueueExecutionResult) :
    Outcome (Market A × WithdrawalQueueExecutionResult) := do
  let m ← m.snapshot env.blockTimestampMs
  let m ← settleLoop env reply resolutions 0 m
  .ok (m, result)

def withdrawStaticYield01Finalize (accountId : A) (amount : Nat) : Outcome (Effect A) :=
  if reply.succeeded 0 then .ok (m, [])
  else do
    let record ← expect "Invariant violation: static yield entry must exist during callback"
      (m.staticYield.lookup accountId)
    let record ← record.addOnce amount
    let balance ← add 128 m.borrowAssetBalance amount
    .ok ({ m with
      staticYield := m.staticYield.insert accountId record
      borrowAssetBalance := balance
      journal := m.journal ++ [.staticYieldReturned amount] }, [])

def callback : Receipt A → Outcome (Effect A)
  | .borrow01 accountId amount => m.borrow01ConsumePrice env reply accountId amount
  | .borrow02 accountId initialBorrow => m.borrow02Finalize env reply accountId initialBorrow
  | .collateralize01 accountId amount => do
    let pricePair ← m.pricePair reply
    let m ← m.executeCollateralize env accountId amount pricePair
    .ok (m, [])
  | .repay01 accountId amount => do
    let pricePair ← m.pricePair reply
    let (_, m) ← m.executeRepay env accountId amount pricePair
    .ok (m, [])
  | .liquidate01 amount msg => m.liquidate01ConsumePrice env reply amount msg
  | .withdrawCollateral01 accountId amount =>
    m.withdrawCollateral01ConsumePrice env reply accountId amount
  | .withdrawCollateral02 accountId amount =>
    m.withdrawCollateral02Finalize env reply accountId amount
  | .withdrawal01 resolutions result => do
    let (m, _) ← m.withdrawal01Finalize env reply resolutions result
    .ok (m, [])
  | .withdrawStaticYield01 accountId amount => m.withdrawStaticYield01Finalize reply accountId amount

end Market

structure System (A : Type) where
  market : Market A
  pending : List (Receipt A)
  time : Nat

/-- An entry point is called, the receipt at a place of the pending list returns, or its
callback runs out of gas. -/
inductive Action (A : Type) where
  | call (env : Env) (call : Call A)
  | callback (env : Env) (place : Nat) (reply : Reply)
  | outOfGas (env : Env) (place : Nat)

def Action.env : Action A → Env
  | .call env _ => env
  | .callback env _ _ => env
  | .outOfGas env _ => env

namespace System

variable [DecidableEq A]

def step (s : System A) : Action A → System A
  | .call env call =>
    match s.market.call env call with
    | .ok (m, receipts) => ⟨m, s.pending ++ receipts, env.blockTimestampMs⟩
    | .error _ => { s with time := env.blockTimestampMs }
  | .callback env place reply =>
    match s.pending[place]? with
    | none => { s with time := env.blockTimestampMs }
    | some receipt =>
      match s.market.callback env reply receipt with
      | .ok (m, receipts) => ⟨m, s.pending.eraseIdx place ++ receipts, env.blockTimestampMs⟩
      | .error _ => ⟨s.market, s.pending.eraseIdx place, env.blockTimestampMs⟩
  | .outOfGas env place => ⟨s.market, s.pending.eraseIdx place, env.blockTimestampMs⟩

/-- The states reached from a new market by actions at nondecreasing times that all
meet a condition. -/
inductive ReachableBy (ok : System A → Action A → Prop) : System A → Prop where
  | new {configuration m time} (ht : time < 2 ^ 64) (h : Market.new configuration time = .ok m) :
      ReachableBy ok ⟨m, [], time⟩
  | step {s : System A} (h : ReachableBy ok s) {action : Action A}
      (ht : s.time ≤ action.env.blockTimestampMs) (hok : ok s action) :
      ReachableBy ok (s.step action)

/-- The states of all runs. -/
def Reachable (s : System A) : Prop := ReachableBy (fun _ _ => True) s

end System

end Templar.Lending
