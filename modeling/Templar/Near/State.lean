import Templar.Curator.CapGroup
import Templar.Curator.MarketLock
import Templar.Lib.Balances
import Templar.Vault.Actions

/-!
# The NEAR vault: state, messages and caps

The contract keeps the operation in progress and its books in one record. Every call and every
callback runs alone to its end; a panic undoes it. What a call cannot finish at once it leaves
to a callback, which runs after a call to the token or to a market has been answered, possibly
much later and with other calls in between.

`Callback` lists the callbacks with the arguments that were fixed when they were scheduled, and
`Reply` is the answer they are run with. Each callback is scheduled behind one kind of outgoing
call, so the pending callback also says which call is in flight.
-/

namespace Templar.Near

open Checked Vault Curator

variable {A : Type}

/-- What the runtime tells the contract about the receipt it executes. -/
structure Env (A : Type) where
  currentAccountId : A
  predecessorAccountId : A
  blockTimestamp : Nat
  deriving DecidableEq, Repr

structure MarketConfiguration where
  cap : Nat
  capGroupId : Option String
  deriving DecidableEq, Repr

structure MarketRecord (A : Type) where
  account : A
  cfg : MarketConfiguration
  principal : Nat
  deriving DecidableEq, Repr

def MarketRecord.new (account : A) : MarketRecord A := ⟨account, ⟨0, none⟩, 0⟩

inductive Restrictions (A : Type) where
  | paused
  | blacklist (addresses : List A)
  | whitelist (addresses : List A)
  deriving DecidableEq, Repr

def Restrictions.toKernelMode : Restrictions A → Option (Vault.Restrictions A)
  | .paused => none
  | .blacklist addresses => some (.blacklist addresses)
  | .whitelist addresses => some (.whitelist addresses)

def Restrictions.isPaused : Restrictions A → Bool
  | .paused => true
  | _ => false

structure Gate (A : Type) where
  paused : Bool
  restrictions : Option (Restrictions A)
  deriving DecidableEq, Repr

/-- `shares` is the ledger of the vault's own token. -/
structure Contract (A : Type) where
  fees : FeesSpec A
  feeAnchor : FeeAccrualAnchor
  markets : Table Nat (MarketRecord A)
  marketIds : Table A Nat
  capGroups : Table String CapGroupRecord
  nextMarketId : Nat
  supplyQueue : List Nat
  virtualShares : Nat
  virtualAssets : Nat
  idleBalance : Nat
  opState : OpState A
  nextOpId : Nat
  lastRefreshNs : Nat
  refreshCooldownNs : Nat
  withdrawalCooldownNs : Nat
  idleResyncLastNs : Nat
  idleResyncCooldownNs : Nat
  idleResyncInflightOpId : Nat
  withdrawQueue : WithdrawQueue A
  marketExecutionLock : MarketLeaseRegistry
  withdrawRoute : List Nat
  gate : Gate A
  shares : Balances A

/-- A scheduled callback, with the arguments it was scheduled with. -/
inductive Callback (A : Type) where
  | supply01HandleTransfer (marketId opId marketIndex attempted remainingBefore : Nat)
  | supply02PositionRead (marketId opId marketIndex before attempted accepted remainingBefore : Nat)
  | withdraw01HandleCreateRequest (opId market need : Nat)
  | rebalanceWithdraw01AfterCreateRequest (marketId amount : Nat)
  | executeWithdraw01 (opId market fencingToken : Nat)
  | executeWithdraw02 (opId market fencingToken principal beforeBalance : Nat)
  | executeWithdraw03 (opId market fencingToken beforePrincipal reportedPrincipal beforeBalance : Nat)
  | rebalanceWithdraw01 (opId marketId fencingToken beforePrincipal : Nat)
  | rebalanceWithdraw02 (opId marketId fencingToken beforePrincipal beforeBalance : Nat)
  | rebalanceWithdraw03 (opId marketId fencingToken beforePrincipal reportedPrincipal
      beforeBalance : Nat)
  | stopAndExitPayout01Reconcile (opId : Nat)
  | payment01ReconcileIdleOrRefund (opId : Nat) (receiver : A) (amount : Nat)
  | refresh01Settle (marketId opId index before : Nat)
  | resyncIdleBalance01Settle (opId : Nat) (caller : A) (beforeIdle startedAtNs : Nat)
  deriving DecidableEq, Repr

/-- The operation a callback was scheduled for. A request created in a market belongs to none. -/
def Callback.opId : Callback A → Option Nat
  | .supply01HandleTransfer _ opId _ _ _ => some opId
  | .supply02PositionRead _ opId _ _ _ _ _ => some opId
  | .withdraw01HandleCreateRequest opId _ _ => some opId
  | .rebalanceWithdraw01AfterCreateRequest _ _ => none
  | .executeWithdraw01 opId _ _ => some opId
  | .executeWithdraw02 opId _ _ _ _ => some opId
  | .executeWithdraw03 opId _ _ _ _ _ => some opId
  | .rebalanceWithdraw01 opId _ _ _ => some opId
  | .rebalanceWithdraw02 opId _ _ _ _ => some opId
  | .rebalanceWithdraw03 opId _ _ _ _ _ => some opId
  | .stopAndExitPayout01Reconcile opId => some opId
  | .payment01ReconcileIdleOrRefund opId _ _ => some opId
  | .refresh01Settle _ opId _ _ => some opId
  | .resyncIdleBalance01Settle opId _ _ _ => some opId

/-- What comes back from the call a callback waits for: a failed promise, or a value. Of a supply
position only its total deposit is read. -/
inductive Reply where
  | failed
  | done
  | amount (value : Nat)
  | position (total : Option Nat)
  deriving DecidableEq, Repr

/-- A contract function returns the new state and the promise it made, if any. -/
abbrev Step (A : Type) := Contract A × Option (Callback A)

/-- An unset group has no absolute room and the whole as its relative cap. -/
def defaultCapGroupRecord : CapGroupRecord := ⟨⟨some 0, some Wad.scale⟩, 0⟩

namespace Contract

variable (c : Contract A)

/-- The sum of idle funds and recorded principals, stopping at the largest machine word. -/
def getTotalAssets : Nat :=
  c.markets.entries.foldl (fun prev rec => saturatingAdd 128 prev rec.2.principal) c.idleBalance

def principalOf (marketId : Nat) : Nat := Table.part MarketRecord.principal c.markets marketId

/-- During a supply the reserved amount is in neither the idle funds nor a principal, and is
added back here. -/
def totalAssetsForCaps : Nat :=
  match c.opState with
  | .allocating s => saturatingAdd 128 c.getTotalAssets s.remaining
  | _ => c.getTotalAssets

def marketAccountByIdOrPanic (marketId : Nat) : Outcome A :=
  expect ("Unknown market: " ++ toString marketId)
    ((c.markets.lookup marketId).map MarketRecord.account)

def updateCapGroupPrincipal (capGroup : String) (old new : Nat) : Contract A :=
  if old = new then c
  else
    let entry := (c.capGroups.lookup capGroup).getD defaultCapGroupRecord
    let principal :=
      if old ≤ new then saturatingAdd 128 entry.principal (new - old)
      else entry.principal - (old - new)
    { c with capGroups := c.capGroups.insert capGroup { entry with principal := principal } }

/-- An unknown market is ignored. -/
def setMarketPrincipal (marketId newPrincipal : Nat) : Contract A :=
  match c.markets.lookup marketId with
  | none => c
  | some rec =>
    if rec.principal = newPrincipal then c
    else
      let c' := { c with markets := c.markets.insert marketId { rec with principal := newPrincipal } }
      match rec.cfg.capGroupId with
      | some capGroup => c'.updateCapGroupPrincipal capGroup rec.principal newPrincipal
      | none => c'

def increaseIdleBalance (amount : Nat) : Contract A :=
  { c with idleBalance := saturatingAdd 128 c.idleBalance amount }

/-- The difference is added or taken away with saturating arithmetic. -/
def resyncIdleBalanceTo (actual : Nat) : Contract A :=
  if c.idleBalance < actual then c.increaseIdleBalance (actual - c.idleBalance)
  else { c with idleBalance := c.idleBalance - (c.idleBalance - actual) }

structure SupplyQueueMarketInfo where
  capRoom : Nat
  capGroupId : Option String
  deriving DecidableEq, Repr

def supplyQueueMarketInfos : List SupplyQueueMarketInfo :=
  c.supplyQueue.filterMap (fun marketId => (c.markets.lookup marketId).map (fun rec =>
    ⟨rec.cfg.cap - rec.principal, rec.cfg.capGroupId⟩))

def capGroupRoomRemainingAt (capGroup : String) (totalAssets : Nat) : Nat :=
  ((c.capGroups.lookup capGroup).map (fun rec => rec.availableCapacity totalAssets)).getD 0

/-- What the markets of the queue have room for, each group's room being used up in the order of
the queue. -/
def maxAllocatableRoomAtPrecomputed (totalAssets : Nat) (markets : List SupplyQueueMarketInfo) :
    Nat :=
  (markets.foldl (fun (acc : Nat × Table String Nat) market =>
    if market.capRoom = 0 then acc
    else
      match market.capGroupId with
      | none => (saturatingAdd 128 acc.1 market.capRoom, acc.2)
      | some groupId =>
        let entry := (acc.2.lookup groupId).getD (c.capGroupRoomRemainingAt groupId totalAssets)
        if entry = 0 then (acc.1, acc.2.insert groupId entry)
        else
          let room := min market.capRoom entry
          (saturatingAdd 128 acc.1 room, acc.2.insert groupId (entry - room))) (0, ∅)).1

/-- One unit of slack for every group of the queue with a relative cap below the whole. -/
def relativeCapRoundingSlack : Nat :=
  ((c.supplyQueue.filterMap (fun market => do
    let rec ← c.markets.lookup market
    let groupId ← rec.cfg.capGroupId
    let group ← c.capGroups.lookup groupId
    if group.absoluteCap = 0 then none
    else if group.relativeCap < Wad.scale then some groupId else none)).dedup).length

/-- The binary search for the largest amount that fits. Every round halves the interval, so the
rounds of a machine word suffice. -/
def searchLargest (fits : Nat → Bool) : Nat → Nat → Nat → Nat
  | 0, low, _ => low
  | rounds + 1, low, high =>
    if low < high then
      let mid := saturatingAdd 128 low (saturatingAdd 128 (high - low) 1 / 2)
      if fits mid then searchLargest fits rounds mid high
      else searchLargest fits rounds low (mid - 1)
    else low

def getMaxDeposit : Nat :=
  let baseTotalAssets := c.totalAssetsForCaps
  let roundingSlack := c.relativeCapRoundingSlack
  let markets := c.supplyQueueMarketInfos
  let high := markets.foldl (fun acc m => saturatingAdd 128 acc m.capRoom) 0
  searchLargest (fun mid =>
    let totalAssets := saturatingAdd 128 baseTotalAssets mid
    let room := c.maxAllocatableRoomAtPrecomputed totalAssets markets
    decide (mid ≤ saturatingAdd 128 room roundingSlack)) 129 0 high

def roomOf (marketId : Nat) : Nat :=
  match c.markets.lookup marketId with
  | none => 0
  | some rec =>
    let marketRoom := rec.cfg.cap - rec.principal
    if marketRoom = 0 then 0
    else
      match rec.cfg.capGroupId with
      | some capGroup => min marketRoom (c.capGroupRoomRemainingAt capGroup c.totalAssetsForCaps)
      | none => marketRoom

def clampAllocationTotal (requested : Nat) : Nat :=
  min (min requested c.idleBalance) c.getMaxDeposit

end Contract

end Templar.Near
