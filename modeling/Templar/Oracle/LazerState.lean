import Templar.Oracle.SorobanState

/-!
# The Pyth Lazer source on Soroban

The contract stores one price for each feed it supports. An update is proved authentic by
a verifier that knows nothing of replay or age; the checks here see to both. The verifier's
answer is arbitrary. Who may call, the lifetime of entries, the events other than the list
of stored prices, and the exchange of the code are left out.
-/

namespace Templar.Oracle.Lazer

open Checked Std List
open Oracle.Soroban (NormalizedPrice PriceData ContractError)

inductive LazerSourceError where
  | invalidInput
  | unauthorized
  | invalidPayload
  | channelMismatch
  | arithmeticOverflow
  | verifierRejected
  | verifierInvokeFailed
  deriving DecidableEq

inductive VerifyError where
  | invalidEnvelopeMagic
  | truncatedEnvelope
  | invalidEnvelopeLength
  | signerNotTrusted
  | signerExpired
  | invalidRecoveryId
  | invalidPayloadMagic
  | invalidPayloadLength
  | truncatedPayload
  | invalidChannel
  | invalidProperty
  | invalidMarketSession
  | invokeFailed
  deriving DecidableEq

def LazerSourceError.ofVerifyError : VerifyError → LazerSourceError
  | .invalidEnvelopeMagic | .truncatedEnvelope | .invalidEnvelopeLength | .signerNotTrusted
  | .signerExpired | .invalidRecoveryId => .verifierRejected
  | .invalidPayloadMagic | .invalidPayloadLength | .truncatedPayload | .invalidChannel
  | .invalidProperty | .invalidMarketSession => .invalidPayload
  | .invokeFailed => .verifierInvokeFailed

inductive LazerChannel where
  | realTime
  | fixedRate50ms
  | fixedRate200ms
  | fixedRate1000ms
  deriving DecidableEq

def maxSupportedSep40Decimals : Nat := 18
def microsPerSec : Nat := 1000000
def maxLazerEnvelopeBytes : Nat := 65536
def maxSupportedFeeds : Nat := 64
def maxIngestAgeSecs : Nat := 604800
def maxIngestClockDriftSecs : Nat := 60

/-- The bytes of a symbol. -/
inductive Asset (A : Type) where
  | stellar (address : A)
  | other (symbol : List UInt8)
  deriving DecidableEq

structure FreshnessConfig where
  maxAgeSecs : Nat
  maxClockDriftSecs : Nat
  deriving DecidableEq

structure Config (A : Type) where
  verifier : A
  base : Asset A
  decimals : Nat
  channel : LazerChannel
  freshness : FreshnessConfig
  deriving DecidableEq

structure StoredPrice where
  mantissa : Int
  expo : Int
  publishTimeUs : Nat
  deriving DecidableEq

/-- Writes the digits of `rest` from position `start` downwards. The position cannot fall
below zero, which is an abort. -/
def fillDigits : Nat → Nat → List UInt8 → Outcome (List UInt8 × Nat)
  | 0, _, _ => .error .underflow
  | start + 1, rest, digits =>
    let digits := digits.set start (UInt8.ofNat (48 + rest % 10))
    let rest := rest / 10
    if rest = 0 then .ok (digits, start) else fillDigits start rest digits

def decimalDigits (feedId : UInt32) : Outcome (List UInt8 × Nat) :=
  fillDigits 10 feedId.toNat (replicate 10 0)

/-- The number that a list of digits stands for. -/
def digitsValue : List UInt8 → Nat
  | [] => 0
  | d :: digits => (d.toNat - 48) * 10 ^ digits.length + digitsValue digits

/-- The digits in the buffer stand for the number, followed by what was there. -/
theorem fillDigits_spec (start rest : Nat) (digits : List UInt8) (hpos : 0 < start)
    (hrest : rest < 10 ^ start) (hlen : start ≤ digits.length) :
    ∃ digits' start', fillDigits start rest digits = .ok (digits', start') ∧
      digitsValue (digits'.drop start') =
        rest * 10 ^ (digits.length - start) + digitsValue (digits.drop start) := by
  induction start generalizing rest digits with
  | zero => cases hpos
  | succ start ih =>
    have hlt : start < digits.length := hlen
    set written := digits.set start (UInt8.ofNat (48 + rest % 10)) with hwritten
    have hdigit : (UInt8.ofNat (48 + rest % 10)).toNat - 48 = rest % 10 := by
      rw [UInt8.toNat_ofNat']
      omega
    have hlength : written.length = digits.length := length_set
    have hdrop : digitsValue (written.drop start) =
        rest % 10 * 10 ^ (digits.length - (start + 1)) + digitsValue (digits.drop (start + 1)) := by
      have hcons : written.drop start =
          UInt8.ofNat (48 + rest % 10) :: digits.drop (start + 1) := by
        rw [hwritten, drop_eq_getElem_cons (by rwa [length_set]),
          getElem_set_self, drop_set_of_lt (Nat.lt_succ_self start)]
      rw [hcons, digitsValue, hdigit, length_drop]
    unfold fillDigits
    dsimp only
    by_cases hzero : rest / 10 = 0
    · refine ⟨written, start, if_pos hzero, ?_⟩
      have hsmall : rest % 10 = rest := Nat.mod_eq_of_lt (by omega)
      rw [hdrop, hsmall]
    · rw [if_neg hzero]
      have hrest' : rest / 10 < 10 ^ start := by
        rw [Nat.div_lt_iff_lt_mul (by decide)]
        rwa [pow_succ] at hrest
      have hpos' : 0 < start := by
        by_contra hstart
        have : start = 0 := by omega
        subst this
        omega
      obtain ⟨digits', start', hfill, hvalue⟩ := ih (rest / 10) written hpos' hrest' (by omega)
      refine ⟨digits', start', hfill, ?_⟩
      have hexp : digits.length - start = digits.length - (start + 1) + 1 := by omega
      rw [hvalue, hdrop, hlength, hexp, pow_succ]
      have hdiv := Nat.div_add_mod rest 10
      calc rest / 10 * (10 ^ (digits.length - (start + 1)) * 10) +
            (rest % 10 * 10 ^ (digits.length - (start + 1)) + digitsValue (digits.drop (start + 1)))
          = (10 * (rest / 10) + rest % 10) * 10 ^ (digits.length - (start + 1)) +
            digitsValue (digits.drop (start + 1)) := by ring
        _ = rest * 10 ^ (digits.length - (start + 1)) + digitsValue (digits.drop (start + 1)) := by
            rw [hdiv]

theorem decimalDigits_spec (feedId : UInt32) :
    ∃ digits start, decimalDigits feedId = .ok (digits, start) ∧
      digitsValue (digits.drop start) = feedId.toNat := by
  obtain ⟨digits, start, hfill, hvalue⟩ := fillDigits_spec 10 feedId.toNat (replicate 10 0)
    (by decide) (Nat.lt_trans feedId.toNat_lt (by decide)) (by simp)
  refine ⟨digits, start, hfill, ?_⟩
  simpa [digitsValue] using hvalue

/-- The key under which a feed is served: its id in decimal digits. -/
def feedAsset (A : Type) (feedId : UInt32) : Asset A :=
  match h : decimalDigits feedId with
  | .ok (digits, start) => .other (digits.drop start)
  | .error _ => absurd h (by
      obtain ⟨_, _, hok, -⟩ := decimalDigits_spec feedId
      simp [hok])

theorem feedAsset_injective (A : Type) : Function.Injective (feedAsset A) := by
  have hsymbol : ∀ feedId, ∃ symbol,
      feedAsset A feedId = .other symbol ∧ digitsValue symbol = feedId.toNat := by
    intro feedId
    obtain ⟨digits, start, hok, hvalue⟩ := decimalDigits_spec feedId
    refine ⟨digits.drop start, ?_, hvalue⟩
    unfold feedAsset
    split
    · next h =>
      rw [hok] at h
      cases h
      rfl
    · next h =>
      rw [hok] at h
      cases h
  intro a b hab
  obtain ⟨_, ha, hva⟩ := hsymbol a
  obtain ⟨_, hb, hvb⟩ := hsymbol b
  rw [ha, hb] at hab
  cases hab
  exact UInt32.toNat_inj.mp (hva.symm.trans hvb)

example : feedAsset Nat 1203 = .other "1203".toUTF8.toList := by decide +kernel

/-- The power of ten, if it is an `i128`. -/
def checkedPow10 (exponent : Nat) : Option Int :=
  if exponent ≤ 38 then some (10 ^ exponent) else none

def fitsI128 (value : Int) : Bool := -2 ^ 127 ≤ value ∧ value < 2 ^ 127

def fitsI32 (value : Int) : Bool := -2 ^ 31 ≤ value ∧ value < 2 ^ 31

def normalizedToSep40 (price : NormalizedPrice) (decimals : Nat) :
    Except ContractError PriceData := do
  ensure (decimals < 2 ^ 31) .conversionOverflow
  let scale := (decimals : Int) + price.expo
  ensure (fitsI32 scale) .conversionOverflow
  let power ← okOr (checkedPow10 scale.natAbs) .conversionOverflow
  if 0 ≤ scale then do
    ensure (fitsI128 (price.mantissa * power)) .conversionOverflow
    .ok ⟨price.mantissa * power, price.timestamp⟩
  else do
    let scaled := price.mantissa.tdiv power
    ensure (¬ (price.mantissa ≠ 0 ∧ scaled = 0)) .conversionOverflow
    .ok ⟨scaled, price.timestamp⟩

structure FeedFields where
  mantissa : Option Int
  exponent : Option Int
  publishTimeUs : Option Nat

/-- The price as it is served, at second precision. -/
def served (stored : StoredPrice) : NormalizedPrice :=
  ⟨stored.mantissa, stored.expo, stored.publishTimeUs / microsPerSec⟩

def admitFeed (feed : FeedFields) (bounds : Nat × Nat) (storedTimeUs : Option Nat)
    (servable : NormalizedPrice → Bool) : Option StoredPrice := do
  let mantissa ← feed.mantissa
  let exponent ← feed.exponent
  let publishTimeUs ← feed.publishTimeUs
  if mantissa ≤ 0 ∨ publishTimeUs < bounds.1 ∨ bounds.2 < publishTimeUs ∨
      storedTimeUs.any (publishTimeUs ≤ ·) then none
  else
    let candidate : StoredPrice := ⟨mantissa, exponent, publishTimeUs⟩
    if servable (served candidate) then some candidate else none

def validateFreshness (freshness : FreshnessConfig) : Except LazerSourceError Unit :=
  ensure (¬ (freshness.maxAgeSecs = 0 ∨ maxIngestAgeSecs < freshness.maxAgeSecs ∨
    maxIngestClockDriftSecs < freshness.maxClockDriftSecs)) .invalidInput

def freshnessBounds (nowSecs : Nat) (freshness : FreshnessConfig) :
    Except LazerSourceError (Nat × Nat) := do
  let nowUs ← okOr (checkedMul 64 nowSecs microsPerSec) .arithmeticOverflow
  let maxAgeUs ← okOr (checkedMul 64 freshness.maxAgeSecs microsPerSec) .arithmeticOverflow
  let maxDriftUs ← okOr (checkedMul 64 freshness.maxClockDriftSecs microsPerSec) .arithmeticOverflow
  .ok (nowUs - maxAgeUs, (checkedAdd 64 nowUs maxDriftUs).getD (2 ^ 64 - 1))

def isValidFeedRegistry (feedIds : List UInt32) : Bool :=
  feedIds ≠ [] ∧ feedIds.length ≤ maxSupportedFeeds ∧ feedIds.IsChain (· < ·)

def validateSupportedFeedIds (feedIds : List UInt32) : Except LazerSourceError Unit :=
  ensure (isValidFeedRegistry feedIds) .invalidInput

structure Feed where
  feedId : UInt32
  price : Option Int
  exponent : Option Int
  feedUpdateTimestamp : Option Nat

structure Update where
  channel : LazerChannel
  feeds : List Feed

structure State (A : Type) where
  config : Config A
  supportedFeedIds : List UInt32
  verificationEpoch : Nat
  storedPrices : Option (ExtTreeMap UInt32 StoredPrice)

namespace State

variable {A : Type} [DecidableEq A]

variable (s : State A) (config : Config A)

def new (supportedFeedIds : List UInt32) : Except LazerSourceError (State A) := do
  ensure (config.decimals ≤ maxSupportedSep40Decimals) .invalidInput
  validateFreshness config.freshness
  validateSupportedFeedIds supportedFeedIds
  .ok ⟨config, supportedFeedIds, 0, none⟩

def loadPrices : ExtTreeMap UInt32 StoredPrice := s.storedPrices.getD ∅

def storePrices (prices : ExtTreeMap UInt32 StoredPrice) : State A :=
  { s with storedPrices := if prices.isEmpty then none else some prices }

/-- One round of the loop over the feeds of an update: the prices, and what was stored. -/
def storeFeed (supported : List UInt32) (bounds : Nat × Nat)
    (acc : ExtTreeMap UInt32 StoredPrice × List (UInt32 × StoredPrice)) (feed : Feed) :
    ExtTreeMap UInt32 StoredPrice × List (UInt32 × StoredPrice) :=
  let (prices, updated) := acc
  if feed.feedId ∉ supported then acc
  else
    match admitFeed ⟨feed.price, feed.exponent, feed.feedUpdateTimestamp⟩ bounds
        (prices[feed.feedId]?.map (·.publishTimeUs))
        (fun normalized => (normalizedToSep40 normalized config.decimals).isOk) with
    | none => acc
    | some price => (prices.insert feed.feedId price, updated ++ [(feed.feedId, price)])

/-- The stored prices are returned in order, as the event lists them. -/
def updatePriceFeeds (now payloadLen : Nat) (answer : Except VerifyError Update) :
    Except LazerSourceError (List (UInt32 × StoredPrice) × State A) := do
  ensure (payloadLen ≤ maxLazerEnvelopeBytes) .invalidPayload
  let update ← answer.mapError .ofVerifyError
  ensure (update.channel = s.config.channel) .channelMismatch
  let bounds ← freshnessBounds now s.config.freshness
  let (prices, updated) :=
    update.feeds.foldl (storeFeed s.config s.supportedFeedIds bounds) (s.loadPrices, [])
  .ok (updated, if updated.length ≠ 0 then s.storePrices prices else s)

def setFreshness (freshness : FreshnessConfig) : Except LazerSourceError (State A) := do
  validateFreshness freshness
  if s.config.freshness = freshness then .ok s
  else .ok { s with config := { s.config with freshness := freshness } }

def setSupportedFeedIds (supportedFeedIds : List UInt32) : Except LazerSourceError (State A) := do
  validateSupportedFeedIds supportedFeedIds
  if s.supportedFeedIds = supportedFeedIds then .ok s
  else
    let prices := s.loadPrices.filter fun feedId _ => feedId ∈ supportedFeedIds
    let pricesChanged := s.loadPrices.keys.any fun feedId => feedId ∉ supportedFeedIds
    let s' := if pricesChanged then s.storePrices prices else s
    .ok { s' with supportedFeedIds := supportedFeedIds }

def startNewEpoch : Except LazerSourceError (State A) := do
  let epoch ← okOr (checkedAdd 64 s.verificationEpoch 1) .arithmeticOverflow
  .ok { s with storedPrices := none, config := config, verificationEpoch := epoch }

def setVerificationConfig (verifier : A) (channel : LazerChannel) :
    Except LazerSourceError (State A) :=
  if s.config.verifier = verifier ∧ s.config.channel = channel then .ok s
  else s.startNewEpoch { s.config with verifier := verifier, channel := channel }

def resetVerificationEpoch : Except LazerSourceError (State A) := s.startNewEpoch s.config

def supportedFeedIdForAsset (asset : Asset A) : Option UInt32 :=
  s.supportedFeedIds.find? fun feedId => asset = feedAsset A feedId

def lastprice (asset : Asset A) : Option PriceData := do
  let feedId ← s.supportedFeedIdForAsset asset
  let stored ← s.loadPrices[feedId]?
  (normalizedToSep40 (served stored) s.config.decimals).toOption

def price (asset : Asset A) (timestamp : Nat) : Option PriceData :=
  (s.lastprice asset).filter (·.timestamp = timestamp)

def prices (asset : Asset A) (records : Nat) : Option (List PriceData) :=
  if records = 0 then none else (s.lastprice asset).map fun price => [price]

def storedPrice (feedId : UInt32) : Option StoredPrice :=
  if feedId ∈ s.supportedFeedIds then s.loadPrices[feedId]? else none

end State

end Templar.Oracle.Lazer
