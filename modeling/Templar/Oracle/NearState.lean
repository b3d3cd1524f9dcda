import Templar.Oracle.Proxy

/-!
# The proxy oracle on NEAR

The contract stores, for each price id, its proxy, its set of circuit breakers, the
cached result of the last update and an epoch. Every change of the proxy or of the
breakers raises the epoch. An update is requested in one receipt and finished in
another: the request carries a copy of the proxy and the epoch it was made in, and
the callback writes only if that is still the epoch.

Who may call is left out: a call that is refused changes nothing.
-/

namespace Templar.Oracle.Near

open Checked

/-- `publishTime` is an `i64` in seconds. -/
structure PythPrice where
  price : Int
  conf : Nat
  expo : Int
  publishTime : Int
  deriving DecidableEq

def checkedMulI64 (a b : Int) : Option Int :=
  if -2 ^ 63 ≤ a * b ∧ a * b < 2 ^ 63 then some (a * b) else none

def tryIntoTime (publishTime : Int) : Option Nat := do
  let ms ← checkedMulI64 publishTime 1000
  if 0 ≤ ms then some (min (ms.toNat * 1000000) (2 ^ 64 - 1)) else none

def tryFromTime (ns : Nat) : Option Int :=
  let ms := ns / 1000000
  if ms < 2 ^ 63 then some (ms / 1000 : Nat) else none

def pythPriceTryToKernel (p : PythPrice) : Option Price :=
  (tryIntoTime p.publishTime).map fun publishTimeNs => ⟨p.price, p.conf, p.expo, publishTimeNs⟩

def pythPriceTryFromKernel (p : Price) : Option PythPrice :=
  (tryFromTime p.publishTimeNs).map fun publishTime => ⟨p.price, p.conf, p.expo, publishTime⟩

inductive CachedProxyPriceStatus where
  | accepted (price : Price)
  | blocked (reason : PriceBlockedReason)
  | resolveFailed (message : String)
  deriving DecidableEq

structure CachedProxyPrice where
  updatedAtNs : Nat
  status : CachedProxyPriceStatus
  deriving DecidableEq

def CachedProxyPrice.acceptedPriceNoOlderThan (c : CachedProxyPrice) (now maxAge : Nat) :
    Option Price :=
  match c.status with
  | .accepted price =>
    if now < price.publishTimeNs then none
    else if maxAge < now - price.publishTimeNs then none
    else some price
  | _ => none

def maxCachedResolveErrorLen : Nat := 256

/-- The longest prefix of the characters that stays within a number of bytes. -/
def boundedChars : Nat → List Char → List Char
  | _, [] => []
  | bytes, c :: rest =>
    if c.utf8Size ≤ bytes then c :: boundedChars (bytes - c.utf8Size) rest else []

def boundedResolveErrorMessage (message : String) : String :=
  if message.utf8ByteSize ≤ maxCachedResolveErrorLen then message
  else String.ofList (boundedChars maxCachedResolveErrorLen message.toList)

/-- The entries of the four maps under one price id. -/
structure PriceEntry (S : Type) where
  proxy : Option (Proxy S)
  circuitBreakers : Option (CircuitBreakerSet CircuitBreaker)
  cachedPrice : Option CachedProxyPrice
  cacheEpochs : Option Nat

structure PendingProxyPriceUpdate (Id S : Type) where
  priceId : Id
  proxy : Proxy S
  epoch : Nat

namespace PriceEntry

variable {Id S : Type}

def empty : PriceEntry S := ⟨none, none, none, none⟩

variable (e : PriceEntry S)

def loadCircuitBreakerSet : Option (CircuitBreakerSet CircuitBreaker) :=
  e.circuitBreakers.filter fun set => set.validate = .ok ()

def cacheEpoch : Nat := e.cacheEpochs.getD 0

def validatedProxyEntry : Except CircuitBreakerSetParseError (Option (Proxy S)) :=
  match e.proxy with
  | none => .ok none
  | some proxy => do
    let _ ← okOr e.loadCircuitBreakerSet .invalidConfiguration
    .ok (some proxy)

def preparePriceUpdate (id : Id) (proxy : Proxy S) : PendingProxyPriceUpdate Id S :=
  ⟨id, proxy, e.cacheEpoch⟩

def bumpCacheEpoch : Outcome (PriceEntry S) := do
  let next ← expect "Cache epoch overflow" (checkedAdd 64 e.cacheEpoch 1)
  .ok { e with cacheEpochs := some next }

def invalidatePriceCache : Outcome (PriceEntry S) := bumpCacheEpoch { e with cachedPrice := none }

def cachePriceUpdateFailure (now : Nat) (message : String) :
    Outcome (CachedProxyPriceStatus × PriceEntry S) := do
  let e ← e.bumpCacheEpoch
  let status := .resolveFailed message
  .ok (status, { e with cachedPrice := some ⟨now, status⟩ })

def setProxy [DecidableEq S] (e : PriceEntry S) (proxy : Option (Proxy S)) :
    Outcome (PriceEntry S) :=
  match proxy with
  | some proxy =>
    let proxyChanged := e.proxy ≠ some proxy
    let missingBreakerSet := e.circuitBreakers.isNone
    let e' : PriceEntry S := { e with
      proxy := some proxy
      circuitBreakers := if missingBreakerSet then some .empty else e.circuitBreakers }
    if proxyChanged ∨ missingBreakerSet then e'.invalidatePriceCache else .ok e'
  | none =>
    let changed := e.proxy.isSome || e.circuitBreakers.isSome || e.cachedPrice.isSome
    let e' : PriceEntry S := { e with proxy := none, circuitBreakers := none, cachedPrice := none }
    if changed then e'.bumpCacheEpoch else .ok e'

/-- Runs an operation on the breaker set of an existing proxy and stores the result
if it differs. A refused operation aborts the call. -/
def editCircuitBreakerSet {α : Type} (e : PriceEntry S)
    (f : CircuitBreakerSet CircuitBreaker →
      Except CircuitBreakerError (α × CircuitBreakerSet CircuitBreaker)) :
    Outcome (PriceEntry S) := do
  let _ ← expect "Proxy not found" e.proxy
  let original ← expect "Invalid circuit breaker set" e.loadCircuitBreakerSet
  let (_, set) ← (f original).mapError fun error => .message error.text
  if set ≠ original then do
    let e' ← e.invalidatePriceCache
    .ok { e' with circuitBreakers := some set }
  else .ok e

/-- Writes the result of an update if its epoch is still the current one. -/
def finishPriceUpdateIfCurrent (pending : PendingProxyPriceUpdate Id S) (now : Nat)
    (f : Proxy S → CircuitBreakerSet CircuitBreaker →
      Outcome (CachedProxyPriceStatus × CircuitBreakerSet CircuitBreaker)) :
    Outcome (Option CachedProxyPriceStatus × PriceEntry S) :=
  if e.cacheEpoch ≠ pending.epoch ∨ e.proxy = none then .ok (none, e)
  else do
    let set ← expect "Circuit breaker set not found for price" e.loadCircuitBreakerSet
    let (status, set') ← f pending.proxy set
    .ok (some status, { e with
      circuitBreakers := some set'
      cachedPrice := some ⟨now, status⟩ })

end PriceEntry

def maxCircuitBreakersPerProxy : Nat := 16
def maxManualTripMetadataLen : Nat := 1024

def hasZeroWeightedSource {S : Type} (proxy : Proxy S) : Bool :=
  match proxy.aggregator with
  | .medianLow median => median.sources.any (·.weight = 0)
  | .medianHigh median => median.sources.any (·.weight = 0)
  | .priority _ => false

inductive AdminCall (S : Type) where
  | setProxy (proxy : Option (Proxy S))
  | configureCircuitBreakers (config : CircuitBreakerSetConfig)
  | addCircuitBreaker (breakerId : Nat) (breaker : CircuitBreaker)
  | removeCircuitBreaker (breakerId : Nat)
  | setManualTrip (isManuallyTripped : Bool) (actor : AccountId) (metadata : Option (List UInt8))
  | rearm (breakerId armingDelayNs : Nat)
  | setEnforced (breakerId : Nat) (isEnforced : Bool)

def AdminCall.apply {S : Type} [DecidableEq S] (call : AdminCall S) (e : PriceEntry S)
    (now : Nat) : Outcome (PriceEntry S) :=
  match call with
  | .setProxy proxy => do
    require (proxy.any hasZeroWeightedSource = false) "Proxy sources must have positive weights"
    e.setProxy proxy
  | .configureCircuitBreakers config => e.editCircuitBreakerSet (·.setConfig config)
  | .addCircuitBreaker breakerId breaker =>
    e.editCircuitBreakerSet fun set =>
      if maxCircuitBreakersPerProxy ≤ set.breakers.size then .error .tooManyBreakers
      else set.add breakerId breaker
  | .removeCircuitBreaker breakerId => e.editCircuitBreakerSet (·.remove breakerId)
  | .setManualTrip isManuallyTripped actor metadata => do
    require (metadata.all fun m => m.length ≤ maxManualTripMetadataLen)
      "Manual trip metadata is too long"
    e.editCircuitBreakerSet fun set => .ok (set.setManualTrip isManuallyTripped actor metadata)
  | .rearm breakerId armingDelayNs => do
    let armedAfterNs ←
      expect "Rearm delay overflows ledger timestamp" (checkedAdd 64 now armingDelayNs)
    e.editCircuitBreakerSet (·.rearm breakerId armedAfterNs)
  | .setEnforced breakerId isEnforced =>
    e.editCircuitBreakerSet (·.setEnforced breakerId isEnforced)

section Contract

variable {Id S : Type} [DecidableEq Id]

abbrev State (Id S : Type) := Id → PriceEntry S

abbrev Statuses (Id : Type) := List (Id × CachedProxyPriceStatus)

/-- The callback of an update: the updates it has to finish, and the statuses that
were known when it was requested. -/
structure Receipt (Id S : Type) where
  invoked : List (PendingProxyPriceUpdate Id S)
  results : Statuses Id

def listEmaPricesNoOlderThan (s : State Id S) (priceIds : List Id) (age now : Nat) :
    List (Id × Option PythPrice) :=
  let maxAge := min (age * 1000000000) (2 ^ 64 - 1)
  (priceIds.dedup.filter fun id => (s id).proxy.isSome).map fun id =>
    (id, (s id).cachedPrice.bind fun cached =>
      (cached.acceptedPriceNoOlderThan now maxAge).bind pythPriceTryFromKernel)

/-- One round of the loop that prepares the updates. -/
def prepare (now : Nat) (acc : State Id S × Receipt Id S) (id : Id) :
    Outcome (State Id S × Receipt Id S) :=
  let (s, receipt) := acc
  match (s id).validatedProxyEntry with
  | .ok (some proxy) =>
    .ok (s, { receipt with invoked := receipt.invoked ++ [(s id).preparePriceUpdate id proxy] })
  | .ok none => .ok (s, receipt)
  | .error _ => do
    let (status, e) ← (s id).cachePriceUpdateFailure now
      (boundedResolveErrorMessage "invalid circuit breaker configuration")
    .ok (Function.update s id e, { receipt with results := receipt.results ++ [(id, status)] })

/-- Requests an update. There is a callback only if some source is asked; otherwise
the statuses are returned at once. -/
def updatePrices (s : State Id S) (priceIds : List Id) (now : Nat) :
    Outcome (State Id S × Sum (Statuses Id) (Receipt Id S)) := do
  let (s', receipt) ← priceIds.dedup.foldlM (prepare now) (s, ⟨[], []⟩)
  if receipt.invoked.any fun pending => !pending.proxy.sources.isEmpty then
    .ok (s', .inr receipt)
  else .ok (s', .inl receipt.results)

/-- What an update does with the prices of its sources. -/
def resolvePending (sorter : VoteSort) (prices : List (Option Price)) (now : Nat)
    (proxy : Proxy S) (set : CircuitBreakerSet CircuitBreaker) :
    Outcome (CachedProxyPriceStatus × CircuitBreakerSet CircuitBreaker) := do
  match ← proxy.resolve sorter set prices now with
  | .ok (⟨.ok price, _⟩, set') => .ok (.accepted price, set')
  | .ok (⟨.error reason, _⟩, set') => .ok (.blocked reason, set')
  | .error error => .ok (.resolveFailed (boundedResolveErrorMessage error.text), set)

/-- What the sources of an update answered, in their order. -/
abbrev Replies (Id S : Type) := PendingProxyPriceUpdate Id S → List (Option PythPrice)

/-- One round of the loop that finishes the updates. -/
def finish (sorter : VoteSort) (replies : Replies Id S) (now : Nat)
    (acc : State Id S × Statuses Id) (pending : PendingProxyPriceUpdate Id S) :
    Outcome (State Id S × Statuses Id) := do
  let prices := (replies pending).map fun price => price.bind pythPriceTryToKernel
  let (status, e) ← (acc.1 pending.priceId).finishPriceUpdateIfCurrent pending now
    (resolvePending sorter prices now)
  let results :=
    match status with
    | some status => acc.2 ++ [(pending.priceId, status)]
    | none => acc.2
  .ok (Function.update acc.1 pending.priceId e, results)

def updatePrices01ConsumeResults (sorter : VoteSort) (s : State Id S) (receipt : Receipt Id S)
    (replies : Replies Id S) (now : Nat) : Outcome (State Id S × Statuses Id) :=
  receipt.invoked.foldlM (finish sorter replies now) (s, receipt.results)

end Contract

end Templar.Oracle.Near
