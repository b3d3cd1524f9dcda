import Templar.Oracle.Proxy

/-!
# The proxy oracle on Soroban

For each asset the contract stores a configuration, a set of circuit breakers, the
cached result of the last refresh and a history of served prices. A refresh asks the
sources, resolves a price and writes all of them in one call; the owner's calls change
the configuration and the breakers. A call that returns an error, or aborts, is rolled
back by the host.

Stored bytes are not modelled: writing a valid breaker set and reading it back gives the
same set. Events and the lifetime of entries are left out, and so is who may call.
-/

namespace Templar.Oracle.Soroban

open Checked

inductive ContractError where
  | alreadyInitialized
  | missingConfig
  | unauthorized
  | invalidInput
  | storageError
  | sourceUnavailable
  | resolveFailed
  | conversionOverflow
  | tooManySources
  | tooManyBreakers
  | breakerError
  | tooManyAssets
  | tooFewSources
  deriving DecidableEq

/-- The price of a source: an `i128` with the decimals of the source. -/
structure PriceData where
  price : Int
  timestamp : Nat
  deriving DecidableEq

structure NormalizedPrice where
  mantissa : Int
  expo : Int
  timestamp : Nat
  deriving DecidableEq

structure SourceConfig (A Asset : Type) where
  oracle : A
  asset : Asset
  deriving DecidableEq

structure ProxyConfig (A Asset : Type) where
  sources : List (SourceConfig A Asset)
  minSources : Nat
  maxAgeSecs : Option Nat
  maxClockDriftSecs : Option Nat
  deriving DecidableEq

def maxSourcesPerProxy : Nat := 16
def maxSourceAgeSecs : Nat := 7 * 24 * 60 * 60
def maxClockDriftSecs : Nat := 60 * 60
def maxHistoryRecords : Nat := 32
def maxBreakersPerProxy : Nat := 16
def maxRegisteredAssets : Nat := 64
def maxManualTripMetadataLen : Nat := 1024

def aggregationFailedCode : Nat := 1
def storageFailedCode : Nat := 3
def sourceUnavailableCode : Nat := 5

def fromSecs (secs : Nat) : Nat := min (secs * 1000000000) (2 ^ 64 - 1)

def asSecs (ns : Nat) : Nat := ns / 1000000000

section Configuration

variable {A Asset : Type} [DecidableEq A]

variable (config : ProxyConfig A Asset)

def validateProxyConfig : Except ContractError Unit := do
  ensure (config.sources ≠ []) .tooFewSources
  ensure (config.sources.length ≤ maxSourcesPerProxy) .tooManySources
  ensure (config.minSources ≠ 0 ∧ config.minSources ≤ config.sources.length) .invalidInput
  match config.maxAgeSecs, config.maxClockDriftSecs with
  | some maxAge, some maxClockDrift => do
    ensure (maxAge ≤ maxSourceAgeSecs ∧ maxClockDrift ≤ maxClockDriftSecs) .invalidInput
    ensure (config.sources.map (·.oracle)).Nodup .invalidInput
  | _, _ => .error .invalidInput

/-- Every source must answer with at most eighteen decimals. -/
def validateSourceDecimals (decimals : SourceConfig A Asset → Option Nat) :
    Except ContractError Unit :=
  ensure (config.sources.all fun source => (decimals source).any (· ≤ 18)) .invalidInput

omit [DecidableEq A] in
def kernelProxyFromConfig : Proxy Nat :=
  ⟨.medianLow ⟨(List.range config.sources.length).map fun index => ⟨index, 1⟩, config.minSources⟩,
    ⟨config.maxAgeSecs.map fromSecs, config.maxClockDriftSecs.map fromSecs⟩⟩

end Configuration

def fitsI64 (value : Int) : Bool := -2 ^ 63 ≤ value ∧ value < 2 ^ 63

/-- Divides by ten until the value fits. An `i128` has at most 39 digits, which bounds
the rounds. -/
def downscale : Nat → Int → Int → Int × Int
  | 0, value, expo => (value, expo)
  | rounds + 1, value, expo =>
    if fitsI64 value then (value, expo) else downscale rounds (value.tdiv 10) (expo + 1)

def sourcePriceToKernel (sourcePrice : PriceData) (sourceDecimals : Nat) :
    Except ContractError Price := do
  ensure (sourceDecimals ≤ 18) .invalidInput
  let (value, expo) := downscale 39 sourcePrice.price (-sourceDecimals)
  .ok ⟨value, 0, expo, fromSecs sourcePrice.timestamp⟩

def kernelPriceToNormalized (price : Price) : NormalizedPrice :=
  ⟨price.price, price.expo, asSecs price.publishTimeNs⟩

inductive CircuitBreakerConfig where
  | stepwiseChange (maxRelativeChange : Decimal)
  | monotonicRun (maxStreak : Nat) (minRelativeStepChange : Decimal)
  | windowedChangeDelta (windowLen lookbackWindows : Nat) (maxRelativeMeanChange : Decimal)
  | cumulativeChange (maxRelativeChange : Decimal)

def circuitBreakerFromConfig (config : CircuitBreakerConfig) (baseline : Option Price) :
    Except ContractError CircuitBreaker :=
  match config with
  | .stepwiseChange maxRelativeChange => do
    ensure (maxRelativeChange.isZero = false) .invalidInput
    .ok (.stepwiseChange ⟨maxRelativeChange⟩)
  | .monotonicRun maxStreak minRelativeStepChange => do
    ensure (maxStreak ≠ 0) .invalidInput
    ensure (minRelativeStepChange.isZero = false) .invalidInput
    .ok (.monotonicRun ⟨maxStreak, minRelativeStepChange⟩)
  | .windowedChangeDelta windowLen lookbackWindows maxRelativeMeanChange => do
    ensure (2 ≤ windowLen) .invalidInput
    ensure (lookbackWindows ≠ 0) .invalidInput
    ensure (maxRelativeMeanChange.isZero = false) .invalidInput
    .ok (.windowedChangeDelta ⟨windowLen, lookbackWindows, maxRelativeMeanChange⟩)
  | .cumulativeChange maxRelativeChange => do
    ensure (maxRelativeChange.isZero = false) .invalidInput
    let baseline ← okOr baseline .invalidInput
    .ok (.cumulativeChange ⟨baseline, maxRelativeChange⟩)

def blockedReasonCode : PriceBlockedReason → Nat
  | .manuallyTripped => 1
  | .breakerTripped _ => 2

def resolveErrorCode : ResolveError → Nat
  | .aggregation _ => aggregationFailedCode
  | .circuitBreaker _ => storageFailedCode

def breakerError : CircuitBreakerError → ContractError
  | .tooManyBreakers => .tooManyBreakers
  | .breakerNotFound _ => .breakerError
  | .unexpectedBreakerId _ _ => .breakerError
  | .invalidPrice => .breakerError
  | .invalidConfiguration => .breakerError

inductive CachedStatus where
  | accepted (price : NormalizedPrice)
  | blocked (code : Nat)
  | resolveFailed (code : Nat)
  deriving DecidableEq

structure CachedProxyPrice where
  updatedAt : Nat
  status : CachedStatus
  deriving DecidableEq

def cachedAcceptedNoOlderThan (cached : CachedProxyPrice) (maxAgeSecs now : Nat) :
    Option NormalizedPrice :=
  match cached.status with
  | .accepted price =>
    if maxAgeSecs < now - cached.updatedAt ∨ maxAgeSecs < now - price.timestamp then none
    else some price
  | _ => none

inductive RefreshStatus where
  | accepted (price : NormalizedPrice)
  | blocked (code : Nat)
  | resolveFailed (code : Nat)
  | unknownAsset
  | sourceUnavailable
  deriving DecidableEq

def statusToCached : RefreshStatus → Option CachedStatus
  | .unknownAsset => none
  | .accepted price => some (.accepted price)
  | .blocked code => some (.blocked code)
  | .resolveFailed code => some (.resolveFailed code)
  | .sourceUnavailable => some (.resolveFailed sourceUnavailableCode)

inductive HistoryUpdate where
  | append (history : List NormalizedPrice)
  | unchanged (last : NormalizedPrice)

/-- A price that is not newer than the last one does not enter the history; the last
one is served instead. -/
def prepareHistoryUpdate (history : Option (List NormalizedPrice)) (price : NormalizedPrice)
    (maxRecords : Nat) : HistoryUpdate :=
  let history := history.getD []
  let appended :=
    HistoryUpdate.append ((history ++ [price]).drop ((history ++ [price]).length - maxRecords))
  match history.getLast? with
  | some last => if price.timestamp ≤ last.timestamp then .unchanged last else appended
  | none => appended

structure AssetEntry (A Asset : Type) where
  proxy : Option (ProxyConfig A Asset)
  breakers : Option (CircuitBreakerSet CircuitBreaker)
  cache : Option CachedProxyPrice
  history : Option (List NormalizedPrice)

/-- What a source answers in one refresh; a failed call answers nothing. -/
structure SourceReply (Asset : Type) where
  base : Option Asset
  decimals : Option Nat
  lastprice : Option (Option PriceData)

def sourceKernelPrice {Asset : Type} [DecidableEq Asset] (reply : SourceReply Asset)
    (expectedBase : Asset) : Option Price := do
  let base ← reply.base
  if base ≠ expectedBase then none
  else
    let decimals ← reply.decimals
    let price ← (← reply.lastprice)
    (sourcePriceToKernel price decimals).toOption

structure RefreshComputation where
  status : RefreshStatus
  evaluatedPrice : Option NormalizedPrice
  deriving DecidableEq

def storeBreakers (set : CircuitBreakerSet CircuitBreaker) :
    Except ContractError (CircuitBreakerSet CircuitBreaker) := do
  ensure (set.validate = .ok ()) .storageError
  .ok set

namespace AssetEntry

variable {A Asset : Type} [DecidableEq A] [DecidableEq Asset]

def empty : AssetEntry A Asset := ⟨none, none, none, none⟩

variable (sorter : VoteSort) (e : AssetEntry A Asset)

def loadBreakers : Except ContractError (CircuitBreakerSet CircuitBreaker) := do
  let set ← okOr e.breakers .storageError
  ensure (set.validate = .ok ()) .storageError
  .ok set

/-- Runs an owner's operation on the breakers of a configured asset. -/
def withBreakers {α : Type} (e : AssetEntry A Asset)
    (op : CircuitBreakerSet CircuitBreaker →
      Except ContractError (α × CircuitBreakerSet CircuitBreaker)) :
    Except ContractError (AssetEntry A Asset) := do
  ensure e.proxy.isSome .invalidInput
  let before ← e.loadBreakers
  let (_, breakers) ← op before
  if breakers = before then .ok e
  else do
    let stored ← storeBreakers breakers
    .ok { e with breakers := some stored, cache := none }

/-- The breakers under a new configuration: a new set if the sources are aggregated in
another way, or if there is none. -/
def breakersFor (config : ProxyConfig A Asset) :
    Except ContractError (Option (CircuitBreakerSet CircuitBreaker)) :=
  let aggregationChanged := e.proxy.any fun current =>
    current.sources ≠ config.sources ∨ current.minSources ≠ config.minSources
  if aggregationChanged || e.breakers.isNone then some <$> storeBreakers .empty
  else .ok e.breakers

def setProxy (config : ProxyConfig A Asset)
    (decimals : SourceConfig A Asset → Option Nat) :
    Except ContractError (AssetEntry A Asset) := do
  validateProxyConfig config
  validateSourceDecimals config decimals
  let configChanged := e.proxy ≠ some config
  let breakers ← e.breakersFor config
  let e' : AssetEntry A Asset := { e with proxy := some config, breakers := breakers }
  if configChanged then .ok { e' with cache := none, history := none } else .ok e'

/-- The baseline of a cumulative rule is the price served now. -/
def baseline (config : CircuitBreakerConfig) (now : Nat) : Except ContractError (Option Price) :=
  match config with
  | .cumulativeChange _ => do
    let proxyConfig ← okOr e.proxy .invalidInput
    let maxAgeSecs ← okOr proxyConfig.maxAgeSecs .invalidInput
    let price := (e.cache.bind fun cached => cachedAcceptedNoOlderThan cached maxAgeSecs now).filter
      fun price => 0 < price.mantissa
    .ok (price.map fun price => ⟨price.mantissa, 0, price.expo, fromSecs price.timestamp⟩)
  | _ => .ok none

/-- What the sources' prices come to: a status that ends the refresh, or the answer of
the breakers with the set they leave. -/
def evaluate (base : Option Asset) (replies : SourceConfig A Asset → SourceReply Asset)
    (now : Nat) :
    Outcome (Except RefreshStatus (PriceAcceptance × CircuitBreakerSet CircuitBreaker)) :=
  match e.proxy, base, e.loadBreakers with
  | none, _, _ => .ok (.error .unknownAsset)
  | some _, none, _ => .ok (.error (.resolveFailed storageFailedCode))
  | some _, some _, .error _ => .ok (.error (.resolveFailed storageFailedCode))
  | some config, some expectedBase, .ok breakers =>
    let prices := config.sources.map fun source => sourceKernelPrice (replies source) expectedBase
    if prices.all Option.isNone then
      .ok (.error (breakers.blockingReason.elim .sourceUnavailable
        fun reason => .blocked (blockedReasonCode reason)))
    else do
      match ← (kernelProxyFromConfig config).resolve sorter breakers prices now with
      | .ok (outcome, breakers') => .ok (.ok (outcome.value, breakers'))
      | .error error => .ok (.error (.resolveFailed (resolveErrorCode error)))

/-- The refresh up to the cache: what it found, and the entry with the breakers and the
history written. -/
def computeRefresh (base : Option Asset) (replies : SourceConfig A Asset → SourceReply Asset)
    (now : Nat) : Outcome (RefreshComputation × AssetEntry A Asset) := do
  match ← e.evaluate sorter base replies now with
  | .error status => .ok (⟨status, none⟩, e)
  | .ok (acceptance, breakers) =>
    match storeBreakers breakers with
    | .error _ => .ok (⟨.resolveFailed storageFailedCode, none⟩, e)
    | .ok breakers =>
      let stored : AssetEntry A Asset := { e with breakers := some breakers }
      match acceptance with
      | .error reason => .ok (⟨.blocked (blockedReasonCode reason), none⟩, stored)
      | .ok price =>
        let resolvedPrice := kernelPriceToNormalized price
        match prepareHistoryUpdate e.history resolvedPrice maxHistoryRecords with
        | .append history =>
          .ok (⟨.accepted resolvedPrice, none⟩, { stored with history := some history })
        | .unchanged servedPrice =>
          .ok (⟨.accepted servedPrice,
            if resolvedPrice ≠ servedPrice then some resolvedPrice else none⟩, stored)

def applyRefresh (now : Nat) (status : RefreshStatus) : AssetEntry A Asset :=
  match statusToCached status with
  | some cached => { e with cache := some ⟨asSecs now, cached⟩ }
  | none => e

def refresh (base : Option Asset) (replies : SourceConfig A Asset → SourceReply Asset)
    (timestamp : Nat) : Outcome (RefreshComputation × AssetEntry A Asset) := do
  let now := fromSecs timestamp
  let (computation, e') ← e.computeRefresh sorter base replies now
  .ok (computation, e'.applyRefresh now computation.status)

def aggregatedLatest (now : Nat) : Option NormalizedPrice := do
  let cached ← e.cache
  let proxyConfig ← e.proxy
  let maxAge ← proxyConfig.maxAgeSecs
  cachedAcceptedNoOlderThan cached maxAge now

def aggregatedHistory (records : Nat) : Option (List NormalizedPrice) :=
  if records = 0 then none
  else do
    let breakers ← e.loadBreakers.toOption
    if breakers.isBlocking then none
    else
      let history ← e.history
      if history = [] then none else some (history.drop (history.length - records))

end AssetEntry

structure State (A Asset : Type) where
  base : Option Asset
  assets : Option (List Asset)
  entry : Asset → AssetEntry A Asset

inductive OwnerCall (A Asset : Type) where
  | setProxy (config : ProxyConfig A Asset) (decimals : SourceConfig A Asset → Option Nat)
  | removeProxy
  | configureBreakers (sampleIntervalSecs historyLen : Nat)
  | addBreaker (breaker : CircuitBreakerConfig)
  | removeBreaker (breakerId : Nat)
  | rearm (breakerId armingDelaySecs : Nat)
  | setEnforced (breakerId : Nat) (isEnforced : Bool)
  | setManualTrip (isManuallyTripped : Bool) (metadata : Option (List UInt8))

namespace State

variable {A Asset : Type} [DecidableEq A] [DecidableEq Asset]

def new (base : Asset) : State A Asset := ⟨some base, some [], fun _ => .empty⟩

variable (s : State A Asset)

def put (asset : Asset) (e : AssetEntry A Asset) : State A Asset :=
  { s with entry := Function.update s.entry asset e }

def loadAssets : Except ContractError (List Asset) := do
  let assets ← okOr s.assets .storageError
  ensure (assets.length ≤ maxRegisteredAssets) .storageError
  ensure assets.Nodup .storageError
  .ok assets

def addAsset (asset : Asset) : Except ContractError (State A Asset) := do
  let assets ← s.loadAssets
  if asset ∈ assets then .ok s
  else do
    ensure (assets.length < maxRegisteredAssets) .tooManyAssets
    .ok { s with assets := some (assets ++ [asset]) }

def removeAsset (asset : Asset) : Except ContractError (State A Asset) := do
  let assets ← okOr s.assets .storageError
  .ok { s with assets := some (assets.erase asset) }

def ownerCall (asset : Asset) (call : OwnerCall A Asset) (timestamp : Nat) :
    Except ContractError (State A Asset) :=
  let e := s.entry asset
  match call with
  | .setProxy config decimals => do
    let e' ← e.setProxy config decimals
    let s' ← s.addAsset asset
    .ok (s'.put asset e')
  | .removeProxy => do
    let s' ← s.removeAsset asset
    .ok (s'.put asset .empty)
  | .configureBreakers sampleIntervalSecs historyLen => do
    ensure (historyLen ≠ 0 ∧ historyLen ≤ maxHistoryRecords) .invalidInput
    s.put asset <$> e.withBreakers fun breakers =>
      (breakers.setConfig ⟨fromSecs sampleIntervalSecs, historyLen⟩).mapError breakerError
  | .addBreaker config => do
    let baseline ← e.baseline config timestamp
    let breaker ← circuitBreakerFromConfig config baseline
    s.put asset <$> e.withBreakers fun breakers =>
      if maxBreakersPerProxy ≤ breakers.breakers.size then .error .tooManyBreakers
      else (breakers.add breakers.nextId breaker).mapError breakerError
  | .removeBreaker breakerId =>
    s.put asset <$> e.withBreakers fun breakers =>
      (breakers.remove breakerId).mapError breakerError
  | .rearm breakerId armingDelaySecs => do
    let armedAfterSecs ← okOr (checkedAdd 64 timestamp armingDelaySecs) .invalidInput
    let armedAfterNs ← okOr (checkedMul 64 armedAfterSecs 1000000000) .invalidInput
    s.put asset <$> e.withBreakers fun breakers =>
      (breakers.rearm breakerId armedAfterNs).mapError breakerError
  | .setEnforced breakerId isEnforced =>
    s.put asset <$> e.withBreakers fun breakers =>
      (breakers.setEnforced breakerId isEnforced).mapError breakerError
  | .setManualTrip isManuallyTripped metadata => do
    ensure (metadata.all fun m => m.length ≤ maxManualTripMetadataLen) .invalidInput
    s.put asset <$> e.withBreakers fun breakers =>
      .ok (breakers.setManualTrip isManuallyTripped (Vector.replicate 64 0) metadata)

end State

end Templar.Oracle.Soroban
