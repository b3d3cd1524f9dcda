import Templar.Curator.CapGroup
import Templar.Curator.MarketLock
import Templar.Lib.OrderedMap

/-!
# Policy state of a curated vault

The executor of a vault keeps, beside the kernel's state, which markets there are, how much
of the vault's money each of them holds, which groups bound them and in what order they are
supplied. A group's principal is not updated step by step but computed anew from the markets
whenever a principal or a membership changes.

`PolicyState.Sound` is what every operation below keeps.
-/

namespace Templar.Curator

open Checked

inductive CapGroupIdError where
  | empty
  | tooLong (maxLen : Nat)
  | invalidCharacter
  deriving DecidableEq, Repr

namespace CapGroupId

def maxLen : Nat := 64

def validate (value : String) : Except CapGroupIdError Unit := do
  ensure (value ≠ "") .empty
  ensure (value.utf8ByteSize ≤ maxLen) (.tooLong maxLen)
  ensure (value.toList.all (fun c => c.isLower || c.isDigit || c == '-' || c == '_') = true)
    .invalidCharacter

end CapGroupId

structure CapGroupId where
  value : String
  valid : CapGroupId.validate value = .ok ()
  deriving DecidableEq

namespace CapGroupId

def tryFrom (value : String) : Except CapGroupIdError CapGroupId :=
  match h : validate value with
  | .ok () => .ok ⟨value, h⟩
  | .error e => .error e

theorem tryFrom_eq_ok {value : String} {id : CapGroupId} :
    tryFrom value = .ok id ↔ id.value = value := by
  unfold tryFrom
  split
  · next h =>
    constructor
    · intro hid
      cases hid
      rfl
    · rintro rfl
      rfl
  · next e h =>
    constructor
    · intro hid
      cases hid
    · rintro rfl
      rw [id.valid] at h
      cases h

end CapGroupId

structure SupplyQueueEntry where
  targetId : Nat
  amount : Nat
  priority : Fin 256
  deriving DecidableEq, Repr

inductive SupplyQueueError where
  | queueFull (maxLength : Nat)
  | queueTooLong (len maxLength : Nat)
  | zeroAmount
  | priorityBucketMismatch (expectedPriority actualPriority : Nat)
  | lengthMismatch (recordedLen actualLen : Nat)
  | lengthOverflow
  deriving DecidableEq, Repr

namespace SupplyQueueEntry

def newWithPriority (targetId amount : Nat) (priority : Fin 256) :
    Except SupplyQueueError SupplyQueueEntry := do
  ensure (amount ≠ 0) .zeroAmount
  return ⟨targetId, amount, priority⟩

def new (targetId amount : Nat) : Except SupplyQueueError SupplyQueueEntry :=
  newWithPriority targetId amount 0

def validate (e : SupplyQueueEntry) : Except SupplyQueueError Unit :=
  ensure (e.amount ≠ 0) .zeroAmount

end SupplyQueueEntry

/-- One bucket for each priority, with the number of entries in all of them. -/
structure SupplyQueue where
  buckets : Fin 256 → List SupplyQueueEntry
  len : Nat
  maxLength : Option Nat
  deriving DecidableEq

namespace SupplyQueue

def new (maxLength : Option Nat) : SupplyQueue := ⟨fun _ => [], 0, maxLength⟩

variable (q : SupplyQueue)

/-- The entries, highest priority first. -/
def entries : List SupplyQueueEntry := (List.finRange 256).reverse.flatMap q.buckets

def isFull : Bool :=
  match q.maxLength with
  | some maxLength => decide (maxLength ≤ q.len)
  | none => false

def pushValidatedEntry (e : SupplyQueueEntry) : Option SupplyQueue := do
  let len ← checkedAdd 32 q.len 1
  return { q with buckets := Function.update q.buckets e.priority (q.buckets e.priority ++ [e]), len }

def enqueue (e : SupplyQueueEntry) : Except SupplyQueueError SupplyQueue := do
  e.validate
  ensure (q.isFull = false) (.queueFull (q.maxLength.getD 0))
  okOr (q.pushValidatedEntry e) .lengthOverflow

def tryFromEntries (entries : List SupplyQueueEntry) (maxLength : Option Nat) :
    Except SupplyQueueError SupplyQueue := entries.foldlM enqueue (new maxLength)

def countEntries : Except SupplyQueueError Nat :=
  (List.finRange 256).foldlM (fun count priority => do
    ensure ((q.buckets priority).length < 2 ^ 32) .lengthOverflow
    okOr (checkedAdd 32 count (q.buckets priority).length) .lengthOverflow) 0

def validateLength : Except SupplyQueueError Unit :=
  match q.maxLength with
  | some maxLength => ensure (q.len ≤ maxLength) (.queueTooLong q.len maxLength)
  | none => .ok ()

def validateBucket (priority : Fin 256) (bucket : List SupplyQueueEntry) :
    Except SupplyQueueError Unit :=
  bucket.forM fun e => do
    e.validate
    ensure (e.priority = priority) (.priorityBucketMismatch priority e.priority)

def validate : Except SupplyQueueError Unit := do
  let actualLen ← q.countEntries
  ensure (q.len = actualLen) (.lengthMismatch q.len actualLen)
  q.validateLength
  (List.finRange 256).forM fun priority => validateBucket priority (q.buckets priority)

/-- The length goes down by what the buckets lost. -/
def removeTarget (targetId : Nat) : SupplyQueue :=
  let buckets := fun priority => (q.buckets priority).filter (fun e => e.targetId ≠ targetId)
  let removed := (List.finRange 256).foldl (fun removed priority =>
    saturatingAdd 32 removed ((q.buckets priority).length - (buckets priority).length)) 0
  { q with buckets, len := q.len - removed }

end SupplyQueue

structure MarketConfig where
  enabled : Bool
  cap : Nat
  capGroupId : Option CapGroupId
  deriving DecidableEq

/-- The registry of leases with its leases in the order they were given out. -/
structure PolicyLeases where
  leasesByTarget : OrderedMap Nat MarketLease
  nextFencingToken : Nat
  deriving DecidableEq

structure PolicyState where
  markets : OrderedMap Nat MarketConfig
  principals : OrderedMap Nat Nat
  capGroups : OrderedMap CapGroupId CapGroupRecord
  supplyQueue : SupplyQueue
  leases : PolicyLeases
  deriving DecidableEq

inductive PolicyStateError where
  | unknownMarket (targetId : Nat)
  | unknownCapGroup (id : CapGroupId)
  | principalOverflow (targetId : Nat)
  | invalidSupplyQueue (source : SupplyQueueError)
  | supplyQueueUnknownMarket (targetId : Nat)
  | supplyQueueDisabledMarket (targetId : Nat)
  | supplyQueueUnauthorizedMarket (targetId : Nat)
  deriving DecidableEq

/-- A plan without the targets that somebody else works on. -/
def PolicyLeases.excludingLeasedTargets (r : PolicyLeases) (plan : List Nat) (nowNs : Nat) :
    List Nat :=
  plan.filter fun targetId =>
    match r.leasesByTarget.get targetId with
    | some lease => lease.isExpired nowNs
    | none => true

namespace PolicyState

def default : PolicyState := ⟨.empty, .empty, .empty, .new none, ⟨.empty, 0⟩⟩

variable (p : PolicyState)

def marketConfig (targetId : Nat) : Option MarketConfig := p.markets.get targetId

def principalFor (targetId : Nat) : Option Nat := p.principals.get targetId

def capGroup (id : CapGroupId) : Option CapGroupRecord := p.capGroups.get id

def ensureKnownCapGroup : Option CapGroupId → Except PolicyStateError Unit
  | some id => ensure (p.capGroups.contains id = true) (.unknownCapGroup id)
  | none => .ok ()

def validateCapGroupMemberships : Except PolicyStateError Unit :=
  p.markets.entries.forM fun e => p.ensureKnownCapGroup e.2.capGroupId

def externalAssets : Except PolicyStateError Nat :=
  p.principals.entries.foldlM (fun acc e => okOr (checkedAdd 128 acc e.2) (.principalOverflow e.1)) 0

/-- Adds the principal of one market to the total of its group. -/
def addToGroupTotal (totals : OrderedMap CapGroupId Nat) (e : Nat × MarketConfig) :
    Except PolicyStateError (OrderedMap CapGroupId Nat) :=
  match e.2.capGroupId with
  | none => .ok totals
  | some groupId =>
    let principal := (p.principals.get e.1).getD 0
    match totals.get groupId with
    | some sum => do
      let sum ← okOr (checkedAdd 128 sum principal) (.principalOverflow e.1)
      return totals.insert groupId sum
    | none => .ok (totals.insert groupId principal)

def computeCapGroupTotals : Except PolicyStateError (OrderedMap CapGroupId Nat) :=
  p.markets.entries.foldlM p.addToGroupTotal .empty

def recomputeCapGroupPrincipals : Except PolicyStateError PolicyState := do
  p.validateCapGroupMemberships
  let totals ← p.computeCapGroupTotals
  return { p with
    capGroups := p.capGroups.mapValues fun groupId record =>
      { record with principal := (totals.get groupId).getD 0 } }

def validateSupplyQueueTarget (e : SupplyQueueEntry) : Except PolicyStateError Unit := do
  let config ← okOr (p.marketConfig e.targetId) (.supplyQueueUnknownMarket e.targetId)
  ensure (config.enabled = true) (.supplyQueueDisabledMarket e.targetId)
  ensure (config.cap ≠ 0) (.supplyQueueUnauthorizedMarket e.targetId)

def validateSupplyQueueTargetsWith (queue : SupplyQueue) :
    Except PolicyStateError Unit := queue.entries.forM p.validateSupplyQueueTarget

def pruneOrphanPrincipals : PolicyState :=
  { p with principals := p.principals.retain fun targetId _ => p.markets.contains targetId }

def initializeMissingPrincipals : PolicyState :=
  { p with
    principals := p.markets.keys.foldl (fun principals targetId =>
      if principals.contains targetId then principals else principals.insert targetId 0)
      p.principals }

def fromParts (markets : OrderedMap Nat MarketConfig) (principals : OrderedMap Nat Nat)
    (capGroups : OrderedMap CapGroupId CapGroupRecord) (leases : PolicyLeases)
    (supplyQueue : SupplyQueue) : Except PolicyStateError PolicyState := do
  let p : PolicyState := ⟨markets, principals, capGroups, supplyQueue, leases⟩
  p.supplyQueue.validate.mapError .invalidSupplyQueue
  p.validateSupplyQueueTargetsWith p.supplyQueue
  p.pruneOrphanPrincipals.initializeMissingPrincipals.recomputeCapGroupPrincipals

def replaceSupplyQueue (queue : SupplyQueue) : Except PolicyStateError PolicyState := do
  queue.validate.mapError .invalidSupplyQueue
  p.validateSupplyQueueTargetsWith queue
  return { p with supplyQueue := queue }

/-- A market that may not be supplied any more leaves the queue. -/
def purgeIf (c : Bool) (targetId : Nat) : PolicyState :=
  if c then { p with supplyQueue := p.supplyQueue.removeTarget targetId } else p

def setMarketConfig (targetId : Nat) (config : MarketConfig) :
    Except PolicyStateError PolicyState := do
  p.ensureKnownCapGroup config.capGroupId
  let p := { p with
    markets := p.markets.insert targetId config
    principals := p.principals.insert targetId ((p.principalFor targetId).getD 0) }
  (p.purgeIf (!config.enabled || config.cap == 0) targetId).recomputeCapGroupPrincipals

def setMarketCap (targetId cap : Nat) : Except PolicyStateError PolicyState := do
  let config ← okOr (p.marketConfig targetId) (.unknownMarket targetId)
  let p := { p with markets := p.markets.insert targetId { config with cap } }
  return p.purgeIf (cap == 0) targetId

def setMarketCapGroup (targetId : Nat) (capGroupId : Option CapGroupId) :
    Except PolicyStateError PolicyState := do
  p.ensureKnownCapGroup capGroupId
  let config ← okOr (p.marketConfig targetId) (.unknownMarket targetId)
  { p with markets := p.markets.insert targetId { config with capGroupId } }.recomputeCapGroupPrincipals

def setPrincipal (targetId principal : Nat) : Except PolicyStateError PolicyState := do
  ensure (p.markets.contains targetId = true) (.unknownMarket targetId)
  { p with principals := p.principals.insert targetId principal }.recomputeCapGroupPrincipals

def removeMarket (targetId : Nat) : Except PolicyStateError PolicyState :=
  match p.markets.get targetId with
  | none => .ok p
  | some _ =>
    { p with
      markets := p.markets.remove targetId
      principals := p.principals.remove targetId
      supplyQueue := p.supplyQueue.removeTarget targetId }.recomputeCapGroupPrincipals

def ensureCapGroup (id : CapGroupId) : PolicyState :=
  if p.capGroups.contains id then p
  else { p with capGroups := p.capGroups.insert id ⟨⟨none, none⟩, 0⟩ }

def setCapGroupAbsoluteCap (id : CapGroupId) (newCap : Option Nat) : PolicyState :=
  let p := p.ensureCapGroup id
  { p with
    capGroups := p.capGroups.modify id fun r => { r with cap := { r.cap with absoluteCap := newCap } } }

def setCapGroupRelativeCap (id : CapGroupId) (newRelativeCap : Option Nat) : PolicyState :=
  let p := p.ensureCapGroup id
  { p with
    capGroups := p.capGroups.modify id fun r =>
      { r with cap := { r.cap with relativeCap := newRelativeCap } } }

end PolicyState

inductive CapGroupUpdate where
  | setCap (capGroupId : CapGroupId) (newCap : Option Nat)
  | setRelativeCap (capGroupId : CapGroupId) (newRelativeCap : Option Nat)
  | setMembership (marketId : Nat) (capGroupId : Option CapGroupId)
  deriving DecidableEq

/-- The change of a group as an operation on the policy state. -/
def PolicyState.groupUpdate (p : PolicyState) : CapGroupUpdate → Except PolicyStateError PolicyState
  | .setCap id newCap => .ok (p.setCapGroupAbsoluteCap id newCap)
  | .setRelativeCap id newRelativeCap => .ok (p.setCapGroupRelativeCap id newRelativeCap)
  | .setMembership marketId id => p.setMarketCapGroup marketId id

end Templar.Curator
