import Templar.Lib.Ascending
import Templar.Oracle.LazerState

/-!
# Runs of the Pyth Lazer source

An observer records every price that is stored, with the epoch and the window it was
stored under, and for each feed the publish times stored since it was last admitted to the
registry in the current epoch. The stored prices agree with these records after every call
(`Tracks`); the loop over an update is followed feed by feed, since one update may carry a
feed several times.
-/

namespace Templar.Oracle.Lazer

open Checked Std Function List Option
open Oracle.Soroban (NormalizedPrice PriceData)

/-- A price that was stored, and under what. -/
structure Storing where
  feedId : UInt32
  price : StoredPrice
  epoch : Nat
  now : Nat
  freshness : FreshnessConfig

/-- The publish time is inside the window of its update. -/
def Storing.InWindow (x : Storing) : Prop :=
  ∃ bounds, freshnessBounds x.now x.freshness = .ok bounds ∧
    bounds.1 ≤ x.price.publishTimeUs ∧ x.price.publishTimeUs ≤ bounds.2

structure Records where
  log : List Storing
  times : UInt32 → List Nat

namespace Records

def empty : Records := ⟨[], fun _ => []⟩

def store (epoch now : Nat) (freshness : FreshnessConfig) (r : Records)
    (x : UInt32 × StoredPrice) : Records :=
  ⟨r.log ++ [⟨x.1, x.2, epoch, now, freshness⟩],
    update r.times x.1 (r.times x.1 ++ [x.2.publishTimeUs])⟩

/-- Feeds that are no longer supported start anew. -/
def keep (r : Records) (supported : List UInt32) : Records :=
  { r with times := fun feedId => if feedId ∈ supported then r.times feedId else [] }

/-- A new epoch: every feed starts anew. -/
def restart (r : Records) : Records := { r with times := fun _ => [] }

end Records

structure World (A : Type) where
  state : State A
  records : Records

inductive Event (A : Type) where
  | updatePriceFeeds (now payloadLen : Nat) (answer : Except VerifyError Update)
  | setFreshness (freshness : FreshnessConfig)
  | setSupportedFeedIds (supportedFeedIds : List UInt32)
  | setVerificationConfig (verifier : A) (channel : LazerChannel)
  | resetVerificationEpoch

namespace World

variable {A : Type} [DecidableEq A]

/-- The records start anew when the epoch has changed. -/
def atEpoch (w : World A) (s : State A) : World A :=
  ⟨s, if s.verificationEpoch = w.state.verificationEpoch then w.records else w.records.restart⟩

/-- A call that returns an error is rolled back. -/
def step (w : World A) (event : Event A) : World A :=
  match event with
  | .updatePriceFeeds now payloadLen answer =>
    match w.state.updatePriceFeeds now payloadLen answer with
    | .ok (updated, s) =>
      ⟨s, updated.foldl
        (Records.store w.state.verificationEpoch now w.state.config.freshness) w.records⟩
    | .error _ => w
  | .setFreshness freshness =>
    match w.state.setFreshness freshness with
    | .ok s => { w with state := s }
    | .error _ => w
  | .setSupportedFeedIds supportedFeedIds =>
    match w.state.setSupportedFeedIds supportedFeedIds with
    | .ok s => ⟨s, w.records.keep supportedFeedIds⟩
    | .error _ => w
  | .setVerificationConfig verifier channel =>
    match w.state.setVerificationConfig verifier channel with
    | .ok s => w.atEpoch s
    | .error _ => w
  | .resetVerificationEpoch =>
    match w.state.resetVerificationEpoch with
    | .ok s => w.atEpoch s
    | .error _ => w

def run (w : World A) (events : List (Event A)) : World A := events.foldl step w

end World

variable {feed : FeedFields} {bounds : Nat × Nat} {price : StoredPrice} {now : Nat}

/-- What `admitFeed` lets through. -/
theorem admitFeed_eq_some {storedTimeUs : Option Nat} {servable : NormalizedPrice → Bool}
    (h : admitFeed feed bounds storedTimeUs servable = some price) :
    0 < price.mantissa ∧ bounds.1 ≤ price.publishTimeUs ∧ price.publishTimeUs ≤ bounds.2 ∧
      (∀ t, storedTimeUs = some t → t < price.publishTimeUs) ∧ servable (served price) = true := by
  simp only [admitFeed, bind, bind_eq_some_iff] at h
  obtain ⟨mantissa, -, exponent, -, publishTimeUs, -, h⟩ := h
  split at h
  · cases h
  next hchecks =>
  split at h
  · next hservable =>
    cases h
    simp only [not_or, Bool.not_eq_true] at hchecks
    obtain ⟨hpos, hold, hnew, hstored⟩ := hchecks
    refine ⟨Int.not_le.mp hpos, Nat.not_lt.mp hold, Nat.not_lt.mp hnew, ?_, hservable⟩
    rintro t rfl
    simpa using hstored
  · cases h

/-- The stored prices agree with the records. -/
structure Tracks {A : Type} (config : Config A) (supported : List UInt32)
    (epoch : Nat) (prices : ExtTreeMap UInt32 StoredPrice) (r : Records) : Prop where
  supported : ∀ (feedId : UInt32) (p : StoredPrice), prices[feedId]? = some p → feedId ∈ supported
  stored : ∀ (feedId : UInt32) (p : StoredPrice), prices[feedId]? = some p →
    0 < p.mantissa ∧ (normalizedToSep40 (served p) config.decimals).isOk = true ∧
      ∃ x ∈ r.log, x.feedId = feedId ∧ x.price = p ∧ x.epoch = epoch ∧ x.InWindow
  increasing : ∀ feedId, (r.times feedId).Pairwise (· < ·)
  last : ∀ feedId, (r.times feedId).getLast? = prices[feedId]?.map (·.publishTimeUs)

variable {A : Type} {config : Config A} {supported : List UInt32} {epoch : Nat}
  {prices : ExtTreeMap UInt32 StoredPrice} {r : Records}

theorem Tracks.store {feedId : UInt32} (h : Tracks config supported epoch prices r)
    (hbounds : freshnessBounds now config.freshness = .ok bounds) (hmem : feedId ∈ supported)
    (hadmitted : admitFeed feed bounds (prices[feedId]?.map (·.publishTimeUs))
      (fun normalized => (normalizedToSep40 normalized config.decimals).isOk) = some price) :
    Tracks config supported epoch (prices.insert feedId price)
      (r.store epoch now config.freshness (feedId, price)) := by
  obtain ⟨hpos, hold, hnew, hlater, hservable⟩ := admitFeed_eq_some hadmitted
  have hget : ∀ other : UInt32, (prices.insert feedId price)[other]? =
      if feedId = other then some price else prices[other]? := by
    intro other
    rw [ExtTreeMap.getElem?_insert]
    simp only [LawfulEqCmp.compare_eq_iff_eq]
  constructor
  · intro other p hp
    rw [hget] at hp
    split at hp
    · next heq => exact heq ▸ hmem
    · exact h.supported other p hp
  · intro other p hp
    rw [hget] at hp
    split at hp
    · next heq =>
      cases hp
      refine ⟨hpos, hservable, ⟨feedId, price, epoch, now, config.freshness⟩, ?_, heq, rfl, rfl,
        bounds, hbounds, hold, hnew⟩
      exact mem_append_right _ (mem_singleton_self _)
    · obtain ⟨hmantissa, hok, x, hx, hfacts⟩ := h.stored other p hp
      exact ⟨hmantissa, hok, x, mem_append_left _ hx, hfacts⟩
  · intro other
    by_cases heq : other = feedId
    · subst heq
      simp only [Records.store, update_self]
      refine Ascending.concat id (h.increasing other) fun t ht => ?_
      rw [h.last] at ht
      exact hlater t ht
    · simp only [Records.store, update_of_ne heq]
      exact h.increasing other
  · intro other
    rw [hget]
    by_cases heq : other = feedId
    · subst heq
      simp [Records.store]
    · simp only [Records.store, update_of_ne heq, if_neg (Ne.symm heq)]
      exact h.last other

/-- The prices of feeds that stay agree with the records that stay. -/
theorem Tracks.keep {prices' : ExtTreeMap UInt32 StoredPrice} (feedIds : List UInt32)
    (h : Tracks config supported epoch prices r) (hprices : ∀ feedId : UInt32, prices'[feedId]? =
      if feedId ∈ feedIds then prices[feedId]? else none) :
    Tracks config feedIds epoch prices' (r.keep feedIds) := by
  constructor
  · intro feedId p hp
    rw [hprices] at hp
    split at hp
    · assumption
    · cases hp
  · intro feedId p hp
    rw [hprices] at hp
    split at hp
    · exact h.stored feedId p hp
    · cases hp
  · intro feedId
    simp only [Records.keep]
    split
    · exact h.increasing feedId
    · exact .nil
  · intro feedId
    rw [hprices]
    simp only [Records.keep]
    split
    · exact h.last feedId
    · rfl

theorem Tracks.empty (config : Config A) (supported : List UInt32) (epoch : Nat) {r : Records}
    (htimes : ∀ feedId, r.times feedId = []) : Tracks config supported epoch ∅ r := by
  constructor
  · simp
  · simp
  · simp [htimes]
  · simp [htimes]

namespace State

variable [DecidableEq A] {s s' : State A} {feedIds : List UInt32}

omit [DecidableEq A] in
theorem loadPrices_storePrices (s : State A) (prices : ExtTreeMap UInt32 StoredPrice) :
    (s.storePrices prices).loadPrices = prices := by
  unfold storePrices loadPrices
  dsimp only
  split
  · next hempty => exact (ExtTreeMap.isEmpty_iff.mp hempty).symm
  · rfl

/-- The stored prices of a state agree with the records. -/
def Agrees (s : State A) (r : Records) : Prop :=
  Tracks s.config s.supportedFeedIds s.verificationEpoch s.loadPrices r

omit [DecidableEq A] in
theorem agrees_updatePriceFeeds {now payloadLen : Nat} {answer : Except VerifyError Update}
    {updated : List (UInt32 × StoredPrice)} (h : s.Agrees r)
    (hs : s.updatePriceFeeds now payloadLen answer = .ok (updated, s')) :
    s'.Agrees (updated.foldl (Records.store s.verificationEpoch now s.config.freshness) r) := by
  unfold updatePriceFeeds at hs
  simp only [do_ok] at hs
  obtain ⟨-, update, -, -, bounds, hbounds, rfl, rfl⟩ := hs
  have hloop := foldlRecOn update.feeds (storeFeed s.config s.supportedFeedIds bounds)
    (motive := fun acc : _ × List (UInt32 × StoredPrice) =>
      Tracks s.config s.supportedFeedIds s.verificationEpoch acc.1
        (acc.2.foldl (Records.store s.verificationEpoch now s.config.freshness) r))
    (b := (s.loadPrices, [])) h (by
      intro acc h feed _
      unfold storeFeed
      dsimp only
      split
      · exact h
      next hmem =>
      split
      · exact h
      next price hadmitted =>
      rw [foldl_append]
      exact h.store hbounds (not_not.mp hmem) hadmitted)
  split
  · unfold Agrees
    rw [loadPrices_storePrices]
    exact hloop
  · next hnone =>
    rw [not_not, length_eq_zero_iff] at hnone
    rw [hnone]
    exact h

omit [DecidableEq A] in
theorem agrees_setSupportedFeedIds (h : s.Agrees r) (hs : s.setSupportedFeedIds feedIds = .ok s') :
    s'.Agrees (r.keep feedIds) := by
  -- If nothing has to go, the prices stay as they are.
  have hkept (hall : ∀ feedId ∈ s.loadPrices, feedId ∈ feedIds) :
      Tracks s.config feedIds s.verificationEpoch s.loadPrices (r.keep feedIds) := by
    refine h.keep feedIds fun feedId => ?_
    split
    · rfl
    · next hmem => exact ExtTreeMap.getElem?_eq_none fun h => hmem (hall feedId h)
  unfold setSupportedFeedIds at hs
  obtain ⟨_, -, hs⟩ := bind_eq_ok.mp hs
  split at hs
  · next heq =>
    cases hs
    subst heq
    exact hkept fun feedId hmem => h.supported feedId _ (ExtTreeMap.getElem?_eq_some_getElem hmem)
  · cases hs
    split
    · refine h.keep feedIds fun feedId => ?_
      show (s.storePrices _).loadPrices[feedId]? = _
      rw [loadPrices_storePrices, ExtTreeMap.getElem?_filter]
      simp only [ExtTreeMap.getKey_eq]
      split
      · next hmem => cases s.loadPrices[feedId]? <;> simp [hmem]
      · next hmem => simp [hmem]
    · next hunchanged =>
      refine hkept fun feedId hmem => ?_
      by_contra hnot
      exact hunchanged (any_eq_true.mpr
        ⟨feedId, ExtTreeMap.mem_keys.mpr hmem, decide_eq_true hnot⟩)

end State

namespace World

variable [DecidableEq A] {w : World A} {s : State A}

omit [DecidableEq A] in
theorem agrees_atEpoch (hs : w.state.startNewEpoch config = .ok s) :
    (w.atEpoch s).state.Agrees (w.atEpoch s).records := by
  unfold State.startNewEpoch at hs
  simp only [do_ok] at hs
  obtain ⟨_, ⟨-, rfl⟩, rfl⟩ := hs
  simp only [atEpoch, Nat.succ_ne_self, if_false]
  exact Tracks.empty _ _ _ fun _ => rfl

theorem agrees_step (h : w.state.Agrees w.records) (event : Event A) :
    (w.step event).state.Agrees (w.step event).records := by
  cases event with
  | updatePriceFeeds now payloadLen answer =>
    simp only [step]
    split
    · next hs => exact State.agrees_updatePriceFeeds h hs
    · exact h
  | setFreshness freshness =>
    simp only [step]
    split
    · next hs =>
      unfold State.setFreshness at hs
      obtain ⟨_, -, hs⟩ := bind_eq_ok.mp hs
      split at hs
      · cases hs
        exact h
      · cases hs
        exact ⟨h.supported, h.stored, h.increasing, h.last⟩
    · exact h
  | setSupportedFeedIds feedIds =>
    simp only [step]
    split
    · next hs => exact State.agrees_setSupportedFeedIds h hs
    · exact h
  | setVerificationConfig verifier channel =>
    simp only [step]
    split
    · next s hs =>
      unfold State.setVerificationConfig at hs
      split at hs
      · cases hs
        simp only [atEpoch, if_true]
        exact h
      · exact agrees_atEpoch hs
    · exact h
  | resetVerificationEpoch =>
    simp only [step]
    split
    · next s hs => exact agrees_atEpoch hs
    · exact h

theorem agrees_run {supportedFeedIds : List UInt32} (hs : State.new config supportedFeedIds = .ok s)
    (events : List (Event A)) : ((⟨s, .empty⟩ : World A).run events).state.Agrees
      ((⟨s, .empty⟩ : World A).run events).records := by
  have hnew : s.Agrees .empty := by
    unfold State.new at hs
    obtain ⟨_, -, hs⟩ := bind_eq_ok.mp hs
    obtain ⟨_, -, hs⟩ := bind_eq_ok.mp hs
    obtain ⟨_, -, rfl, rfl⟩ := bind_eq_ok.mp hs
    exact Tracks.empty _ _ _ fun _ => rfl
  exact foldlRecOn events step (motive := fun w => w.state.Agrees w.records) (b := ⟨s, .empty⟩) hnew
    fun _ h event _ => agrees_step h event

end World

namespace State

variable [DecidableEq A] {s : State A} {feedId : UInt32} {asset : Asset A} {q : PriceData}

theorem supportedFeedIdForAsset_feedAsset (s : State A) (h : feedId ∈ s.supportedFeedIds) :
    s.supportedFeedIdForAsset (feedAsset A feedId) = some feedId := by
  unfold supportedFeedIdForAsset
  cases hfind : s.supportedFeedIds.find? fun other =>
      feedAsset A feedId = feedAsset A other with
  | none => simpa using find?_eq_none.mp hfind feedId h
  | some other =>
    have heq := find?_some hfind
    rw [decide_eq_true_eq] at heq
    rw [feedAsset_injective A heq]

/-- A price that is served is a stored one, rescaled, of the feed the asset stands for. -/
theorem lastprice_eq_some (h : s.lastprice asset = some q) :
    ∃ (feedId : UInt32) (p : StoredPrice), feedId ∈ s.supportedFeedIds ∧
      asset = feedAsset A feedId ∧ s.loadPrices[feedId]? = some p ∧
      normalizedToSep40 (served p) s.config.decimals = .ok q := by
  simp only [lastprice, bind, bind_eq_some_iff] at h
  obtain ⟨feedId, hfind, p, hp, hq⟩ := h
  unfold supportedFeedIdForAsset at hfind
  have heq := find?_some hfind
  exact ⟨feedId, p, mem_of_find?_eq_some hfind, of_decide_eq_true heq, hp,
    toOption_eq_some.mp hq⟩

theorem lastprice_of_stored {r : Records} (h : s.Agrees r) {p : StoredPrice}
    (hp : s.loadPrices[feedId]? = some p) :
    ∃ q, normalizedToSep40 (served p) s.config.decimals = .ok q ∧
      s.lastprice (feedAsset A feedId) = some q := by
  obtain ⟨-, hok, -⟩ := h.stored feedId p hp
  cases hq : normalizedToSep40 (served p) s.config.decimals with
  | error e => simp [hq, Except.isOk, Except.toBool] at hok
  | ok q =>
    refine ⟨q, rfl, ?_⟩
    simp only [lastprice, s.supportedFeedIdForAsset_feedAsset (h.supported feedId p hp), hp,
      bind_eq_bind, bind_some, hq]
    rfl

end State

/-- Over every run from a successful constructor: only supported feeds have prices; a stored
price is positive, was inside the window of its update, belongs to the current epoch and
ends the strictly increasing publish times of its feed; what is served is a stored price of
the current epoch, and a feed is served exactly when it is supported and has a price. -/
theorem served_prices_are_stored [DecidableEq A] {config : Config A}
    {supportedFeedIds : List UInt32} {s₀ : State A}
    (hnew : State.new config supportedFeedIds = .ok s₀) (events : List (Event A)) :
    let w := (⟨s₀, .empty⟩ : World A).run events
    let s := w.state
    (∀ (feedId : UInt32) (p : StoredPrice), s.loadPrices[feedId]? = some p →
      feedId ∈ s.supportedFeedIds ∧ 0 < p.mantissa ∧
      (∃ x ∈ w.records.log, x.feedId = feedId ∧ x.price = p ∧ x.epoch = s.verificationEpoch ∧
        x.InWindow)) ∧
    (∀ feedId : UInt32, (w.records.times feedId).Pairwise (· < ·) ∧
      (w.records.times feedId).getLast? = s.loadPrices[feedId]?.map (·.publishTimeUs)) ∧
    (∀ (asset : Asset A) (q : PriceData), s.lastprice asset = some q ∨
        (∃ timestamp, s.price asset timestamp = some q) ∨
        (∃ records prices, s.prices asset records = some prices ∧ q ∈ prices) →
      ∃ x ∈ w.records.log, asset = feedAsset A x.feedId ∧ x.epoch = s.verificationEpoch ∧
        s.loadPrices[x.feedId]? = some x.price ∧
        normalizedToSep40 (served x.price) s.config.decimals = .ok q) ∧
    (∀ (feedId : UInt32) (q : PriceData), s.lastprice (feedAsset A feedId) = some q ↔
      feedId ∈ s.supportedFeedIds ∧ ∃ p, s.loadPrices[feedId]? = some p ∧
        normalizedToSep40 (served p) s.config.decimals = .ok q) ∧
    (∀ feedId : UInt32, (s.lastprice (feedAsset A feedId)).isSome ↔
      feedId ∈ s.supportedFeedIds ∧ (s.loadPrices[feedId]?).isSome) ∧
    Function.Injective (feedAsset A) := by
  intro w s
  have h : s.Agrees w.records := World.agrees_run hnew events
  refine ⟨?_, ?_, ?_, ?_, ?_, feedAsset_injective A⟩
  · intro feedId p hp
    obtain ⟨hpos, -, hstored⟩ := h.stored feedId p hp
    exact ⟨h.supported feedId p hp, hpos, hstored⟩
  · exact fun feedId => ⟨h.increasing feedId, h.last feedId⟩
  · intro asset q hserved
    have hlast : s.lastprice asset = some q := by
      rcases hserved with hlast | ⟨timestamp, hprice⟩ | ⟨records, prices, hprices, hq⟩
      · exact hlast
      · exact (filter_eq_some_iff.mp hprice).1
      · unfold State.prices at hprices
        split at hprices
        · cases hprices
        · obtain ⟨q', hq', rfl⟩ := map_eq_some_iff.mp hprices
          rwa [mem_singleton.mp hq]
    obtain ⟨feedId, p, -, rfl, hp, hq⟩ := State.lastprice_eq_some hlast
    obtain ⟨-, -, x, hx, rfl, rfl, hepoch, -⟩ := h.stored feedId p hp
    exact ⟨x, hx, rfl, hepoch, hp, hq⟩
  · intro feedId q
    constructor
    · intro hq
      obtain ⟨other, p, hmem, heq, hp, hq⟩ := State.lastprice_eq_some hq
      cases feedAsset_injective A heq
      exact ⟨hmem, p, hp, hq⟩
    · rintro ⟨-, p, hp, hq⟩
      obtain ⟨q', hq', hserved⟩ := State.lastprice_of_stored h hp
      rw [hq] at hq'
      cases hq'
      exact hserved
  · intro feedId
    rw [isSome_iff_exists, isSome_iff_exists]
    constructor
    · rintro ⟨q, hq⟩
      obtain ⟨other, p, hmem, heq, hp, -⟩ := State.lastprice_eq_some hq
      cases feedAsset_injective A heq
      exact ⟨hmem, p, hp⟩
    · rintro ⟨-, p, hp⟩
      obtain ⟨q, -, hserved⟩ := State.lastprice_of_stored h hp
      exact ⟨q, hserved⟩

/-- An update that carries a feed twice, and a replay of it. -/
theorem served_prices_are_stored_after_replay :
    ∃ s₀, State.new (⟨1, .other [], 8, .realTime, ⟨60, 5⟩⟩ : Config Nat) [7] = .ok s₀ ∧
      (((⟨s₀, .empty⟩ : World Nat).run (replicate 2 (.updatePriceFeeds 1000 100
          (.ok ⟨.realTime, [⟨7, some 150, some (-2), some 999000000⟩,
            ⟨7, some 151, some (-2), some 1000000000⟩]⟩)))).state.lastprice
        (feedAsset Nat 7)).isSome = true := by
  have hnew : State.new (⟨1, .other [], 8, .realTime, ⟨60, 5⟩⟩ : Config Nat) [7] =
      .ok ⟨⟨1, .other [], 8, .realTime, ⟨60, 5⟩⟩, [7], 0, none⟩ := rfl
  obtain ⟨-, -, -, -, hserved, -⟩ := served_prices_are_stored hnew
    (replicate 2 (.updatePriceFeeds 1000 100
      (.ok ⟨.realTime, [⟨7, some 150, some (-2), some 999000000⟩,
        ⟨7, some 151, some (-2), some 1000000000⟩]⟩)))
  exact ⟨_, hnew, (hserved 7).mpr ⟨by decide +kernel, by decide +kernel⟩⟩

end Templar.Oracle.Lazer
