import Templar.Oracle.Breaker

/-!
# The set of circuit breakers of one price

The set keeps its breakers by id, the history of accepted prices and the history
of observed ones. Every refused operation is refused before its first write, so
an operation returns its result together with the new set, or an error.
-/

namespace Templar.Oracle

open Checked Std ExtTreeMap

structure CircuitBreakerSetConfig where
  sampleIntervalNs : Nat
  historyLen : Nat
  deriving DecidableEq

abbrev AccountId := Vector UInt8 64

inductive CircuitBreakerError where
  | tooManyBreakers
  | breakerNotFound (breakerId : Nat)
  | unexpectedBreakerId (expected actual : Nat)
  | invalidPrice
  | invalidConfiguration
  deriving DecidableEq

inductive CircuitBreakerEvent (R : Type) where
  | manualTripSet (isManuallyTripped : Bool) (actor : AccountId) (metadata : Option (List UInt8))
  | configSet (config : CircuitBreakerSetConfig)
  | added (breakerId : Nat) (breaker : R)
  | removed (breakerId : Nat)
  | enforcementSet (breakerId : Nat) (isEnforced : Bool)
  | rearmed (breakerId armedAfterNs : Nat)
  | tripped (breakerId trippedAtNs : Nat) (priceUpdate : Observation) (isEnforced : Bool)
  deriving DecidableEq

structure CircuitBreakerOutcome (R T : Type) where
  value : T
  events : List (CircuitBreakerEvent R)

inductive PriceBlockedReason where
  | manuallyTripped
  | breakerTripped (blockingBreakerIds : List Nat)
  deriving DecidableEq

abbrev PriceAcceptance := Except PriceBlockedReason Price

/-- A candidate with the history it would be the last entry of. -/
structure ProposedPriceAcceptance where
  priceUpdate : Observation
  acceptedHistory : RingBuffer Observation

def ProposedPriceAcceptance.new (acceptedHistory : RingBuffer Observation)
    (priceUpdate : Observation) : ProposedPriceAcceptance :=
  ⟨priceUpdate, acceptedHistory.push priceUpdate⟩

structure CircuitBreakerState (R : Type) where
  breaker : R
  isEnforced : Bool
  status : CircuitBreakerStatus
  deriving DecidableEq

namespace CircuitBreakerState

variable {R : Type}

def new (breaker : R) : CircuitBreakerState R := ⟨breaker, true, .armedAfter 0⟩

variable (b : CircuitBreakerState R)

def isBlocking : Bool := b.isEnforced && b.status.isTripped

def isArmedAt (now : Nat) : Bool :=
  match b.status with
  | .armedAfter timestampNs => timestampNs ≤ now
  | .tripped _ _ => false

def trip (priceUpdate : Observation) (now : Nat) : CircuitBreakerState R :=
  { b with status := .tripped now priceUpdate }

variable [CircuitBreakerRule R]

/-- Whether the breaker is armed and its rule trips on the proposed history. -/
def trips (b : CircuitBreakerState R) (proposed : ProposedPriceAcceptance) (now : Nat) : Bool :=
  b.isArmedAt now && CircuitBreakerRule.shouldTrip b.breaker proposed.acceptedHistory

def applyArmedTransition (b : CircuitBreakerState R) (breakerId : Nat)
    (proposed : ProposedPriceAcceptance) (now : Nat) :
    Option (CircuitBreakerEvent R) × CircuitBreakerState R :=
  if b.trips proposed now then
    (some (.tripped breakerId now proposed.priceUpdate b.isEnforced),
      b.trip proposed.priceUpdate now)
  else (none, b)

section

variable (breakerId : Nat) (proposed : ProposedPriceAcceptance) (now : Nat)

theorem breaker_applyArmedTransition :
    (b.applyArmedTransition breakerId proposed now).2.breaker = b.breaker := by
  unfold applyArmedTransition
  split
  · rfl
  · rfl

theorem isEnforced_applyArmedTransition :
    (b.applyArmedTransition breakerId proposed now).2.isEnforced = b.isEnforced := by
  unfold applyArmedTransition
  split
  · rfl
  · rfl

/-- A transition trips the breaker or leaves it as it was. -/
theorem status_applyArmedTransition : (b.applyArmedTransition breakerId proposed now).2.status =
      if b.trips proposed now then .tripped now proposed.priceUpdate else b.status := by
  unfold applyArmedTransition
  split
  · rfl
  · rfl

end

end CircuitBreakerState

structure UncheckedCircuitBreakerSet (R : Type) where
  sampleIntervalNs : Nat
  acceptedHistory : RingBuffer Observation
  observedHistory : RingBuffer Observation
  nextId : Nat
  isManuallyTripped : Bool
  breakers : ExtTreeMap Nat (CircuitBreakerState R)
  deriving DecidableEq

/-- What parsing checks: ids below the next one, histories of one capacity. -/
structure CircuitBreakerSet (R : Type) extends UncheckedCircuitBreakerSet R where
  ids_lt : ∀ id, id ∈ breakers → id < nextId
  capacity_eq : acceptedHistory.capacity = observedHistory.capacity
  deriving DecidableEq

inductive CircuitBreakerSetParseError where
  | breakerIdOutOfRange
  | historyCapacityMismatch
  | invalidConfiguration
  deriving DecidableEq

namespace CircuitBreakerSet

variable {R : Type}

def new (config : CircuitBreakerSetConfig) : CircuitBreakerSet R where
  sampleIntervalNs := config.sampleIntervalNs
  acceptedHistory := .new config.historyLen
  observedHistory := .new config.historyLen
  nextId := 0
  isManuallyTripped := false
  breakers := ∅
  ids_lt := by
    intro id h
    exact absurd h not_mem_empty
  capacity_eq := rfl

def empty : CircuitBreakerSet R := new ⟨0, 0⟩

variable (s : CircuitBreakerSet R)

def config : CircuitBreakerSetConfig := ⟨s.sampleIntervalNs, s.acceptedHistory.capacity⟩

def blockingBreakerIds : List Nat :=
  s.breakers.toList.filterMap fun (id, breaker) => if breaker.isBlocking then some id else none

def isBlocking : Bool :=
  s.isManuallyTripped || s.breakers.toList.any fun (_, breaker) => breaker.isBlocking

def blockingReason : Option PriceBlockedReason :=
  if s.isManuallyTripped then some .manuallyTripped
  else if s.blockingBreakerIds = [] then none
  else some (.breakerTripped s.blockingBreakerIds)

def shouldPersistSample (now : Nat) : Bool :=
  s.observedHistory.last.all fun last => s.sampleIntervalNs ≤ now - last.observedAtNs

/-- Whether the price was published after the newest entry of a history. -/
def advances (history : RingBuffer Observation) (price : Price) : Bool :=
  history.last.all fun last => last.price.publishTimeNs < price.publishTimeNs

def setManualTrip (isManuallyTripped : Bool) (actor : AccountId)
    (metadata : Option (List UInt8)) : CircuitBreakerOutcome R Unit × CircuitBreakerSet R :=
  if s.isManuallyTripped = isManuallyTripped then (⟨(), []⟩, s)
  else
    (⟨(), [.manualTripSet isManuallyTripped actor metadata]⟩,
      { s with isManuallyTripped := isManuallyTripped })

def addState (breakerId : Nat) (breaker : R) :
    Except CircuitBreakerError (CircuitBreakerSet R) := do
  ensure (breakerId = s.nextId) (.unexpectedBreakerId s.nextId breakerId)
  ensure (s.nextId + 1 < 2 ^ 32) .tooManyBreakers
  .ok { s with
    nextId := s.nextId + 1
    breakers := s.breakers.insert s.nextId (.new breaker)
    ids_lt := by
      intro id hid
      rcases mem_insert.mp hid with heq | hmem
      · exact Nat.compare_eq_eq.mp heq ▸ Nat.lt_succ_self _
      · exact Nat.lt_succ_of_lt (s.ids_lt id hmem) }

def removed (id : Nat) : CircuitBreakerSet R :=
  { s with
    breakers := s.breakers.erase id
    ids_lt := fun id hid => s.ids_lt id (mem_of_mem_erase hid) }

def remove (breakerId : Nat) :
    Except CircuitBreakerError (CircuitBreakerOutcome R Unit × CircuitBreakerSet R) := do
  ensure (breakerId ∈ s.breakers) (.breakerNotFound breakerId)
  .ok (⟨(), [.removed breakerId]⟩, s.removed breakerId)

/-- The set with the state of one breaker rewritten. -/
def modify (breakerId : Nat)
    (f : CircuitBreakerState R → CircuitBreakerState R) : CircuitBreakerSet R :=
  { s with
    breakers := s.breakers.modify breakerId f
    ids_lt := fun id hid => s.ids_lt id (mem_modify.mp hid) }

def get (breakerId : Nat) : Except CircuitBreakerError (CircuitBreakerState R) :=
  okOr s.breakers[breakerId]? (.breakerNotFound breakerId)

def setEnforced (breakerId : Nat) (isEnforced : Bool) :
    Except CircuitBreakerError (CircuitBreakerOutcome R Unit × CircuitBreakerSet R) := do
  let breaker ← s.get breakerId
  if breaker.isEnforced = isEnforced then .ok (⟨(), []⟩, s)
  else
    .ok (⟨(), [.enforcementSet breakerId isEnforced]⟩,
      s.modify breakerId fun b => { b with isEnforced := isEnforced })

def rearm (breakerId armedAfterNs : Nat) :
    Except CircuitBreakerError (CircuitBreakerOutcome R Unit × CircuitBreakerSet R) := do
  let breaker ← s.get breakerId
  let status := .armedAfter armedAfterNs
  if breaker.status = status then .ok (⟨(), []⟩, s)
  else
    .ok (⟨(), [.rearmed breakerId armedAfterNs]⟩,
      s.modify breakerId fun b => { b with status := status })

/-- The set after the candidate was sampled: it joins the observed history if the
sampling interval has passed and it was published after the newest entry. -/
def sampled (price : Price) (now : Nat) : CircuitBreakerSet R :=
  if s.shouldPersistSample now && advances s.observedHistory price then
    { s with observedHistory := s.observedHistory.push ⟨price, now⟩ }
  else s

variable [CircuitBreakerRule R]

/-- Whether every breaker of the set may be kept under a configuration. -/
def allValidFor (config : CircuitBreakerSetConfig) : Bool :=
  s.breakers.toList.all fun (_, state) =>
    CircuitBreakerRule.isValidFor state.breaker config.sampleIntervalNs config.historyLen

def validate : Except CircuitBreakerSetParseError Unit :=
  ensure (s.observedHistory.capacity = s.config.historyLen ∧ s.allValidFor s.config)
    .invalidConfiguration

/-- The set with another sampling interval, and its histories cut to the length. -/
def configured (config : CircuitBreakerSetConfig) : CircuitBreakerSet R :=
  { s with
    sampleIntervalNs := config.sampleIntervalNs
    acceptedHistory := s.acceptedHistory.setCapacity config.historyLen
    observedHistory := s.observedHistory.setCapacity config.historyLen
    capacity_eq := rfl }

def setConfig (config : CircuitBreakerSetConfig) :
    Except CircuitBreakerError (CircuitBreakerOutcome R Unit × CircuitBreakerSet R) := do
  ensure (s.allValidFor config) .invalidConfiguration
  if config = s.config then .ok (⟨(), []⟩, s)
  else
    .ok (⟨(), [.configSet config]⟩, s.configured config)

def add (breakerId : Nat) (breaker : R) :
    Except CircuitBreakerError (CircuitBreakerOutcome R Unit × CircuitBreakerSet R) := do
  ensure (CircuitBreakerRule.isValidFor breaker s.config.sampleIntervalNs s.config.historyLen)
    .invalidConfiguration
  let s' ← s.addState breakerId breaker
  .ok (⟨(), [.added breakerId breaker]⟩, s')

/-- The set after every armed breaker has looked at the candidate. -/
def transitioned (proposed : ProposedPriceAcceptance) (now : Nat) : CircuitBreakerSet R :=
  { s with
    breakers := s.breakers.map fun breakerId breaker =>
      (breaker.applyArmedTransition breakerId proposed now).2
    ids_lt := fun id hid => s.ids_lt id (mem_map.mp hid) }

/-- The loop over the breakers; it does not stop at the first that trips. -/
def applyArmedBreakerTransitions (proposed : ProposedPriceAcceptance) (now : Nat) :
    CircuitBreakerOutcome R PriceAcceptance × CircuitBreakerSet R :=
  let events := s.breakers.toList.filterMap fun (breakerId, breaker) =>
    (breaker.applyArmedTransition breakerId proposed now).1
  let s' := s.transitioned proposed now
  let value : PriceAcceptance :=
    if s'.blockingBreakerIds = [] then .ok proposed.priceUpdate.price
    else .error (.breakerTripped s'.blockingBreakerIds)
  (⟨value, events⟩, s')

/-- The set after a candidate that nothing blocks was accepted and persisted. -/
def accepted (proposed : ProposedPriceAcceptance)
    (h : proposed.acceptedHistory.capacity = s.acceptedHistory.capacity) : CircuitBreakerSet R :=
  { s with
    acceptedHistory := proposed.acceptedHistory
    capacity_eq := h.trans s.capacity_eq }

def tryAcceptPrice (price : Price) (now : Nat) :
    Except CircuitBreakerError (CircuitBreakerOutcome R PriceAcceptance × CircuitBreakerSet R) := do
  ensure price.hasStrictlyPositiveConfidenceInterval .invalidPrice
  let acceptedHistoryShouldAdvance := advances s.acceptedHistory price
  let shouldPersistSample := s.shouldPersistSample now
  let observed := s.sampled price now
  if observed.isManuallyTripped then .ok (⟨.error .manuallyTripped, []⟩, observed)
  -- Breakers that block already are neither tested nor allowed to see a stale history.
  else if observed.blockingBreakerIds ≠ [] then
    .ok (⟨.error (.breakerTripped observed.blockingBreakerIds), []⟩, observed)
  else
    let proposed := ProposedPriceAcceptance.new observed.acceptedHistory ⟨price, now⟩
    let outcome := observed.applyArmedBreakerTransitions proposed now
    if outcome.1.value.isOk && shouldPersistSample && acceptedHistoryShouldAdvance then
      .ok (outcome.1, outcome.2.accepted proposed rfl)
    else .ok outcome

end CircuitBreakerSet

end Templar.Oracle
