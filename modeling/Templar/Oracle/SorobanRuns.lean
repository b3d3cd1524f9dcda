import Templar.Lib.Ascending
import Templar.Oracle.BreakerRuns
import Templar.Oracle.SorobanState

/-!
# Runs of the proxy oracle on Soroban

An observer writes down, for each asset, which prices refreshes accepted and which
timestamps were served since the configuration last changed, and when the last refresh
was made. The four stored entries of the asset are kept consistent with each other
(`AssetEntry.Sound`) and with these records (`Tracks`).
-/

namespace Templar.Oracle.Soroban

open Checked AssetEntry List

/-- A history of increasing timestamps, within its length. -/
def Increasing (history : List NormalizedPrice) : Prop :=
  history.Pairwise (fun p q => p.timestamp < q.timestamp) ∧ history.length ≤ maxHistoryRecords

variable {last price : NormalizedPrice}

/-- The history after a newer price: it is last, everything else was there before. -/
theorem prepareHistoryUpdate_append {history : Option (List NormalizedPrice)}
    {updated : List NormalizedPrice}
    (h : prepareHistoryUpdate history price maxHistoryRecords = .append updated)
    (hinc : Increasing (history.getD [])) : Increasing updated ∧ updated.getLast? = some price ∧
      (∀ p ∈ updated, p = price ∨ p ∈ history.getD []) ∧
      ∀ last, (history.getD []).getLast? = some last → last.timestamp < price.timestamp := by
  unfold prepareHistoryUpdate at h
  dsimp only at h
  generalize history.getD [] = old at h hinc ⊢
  have hnew : ∀ last, old.getLast? = some last → last.timestamp < price.timestamp := by
    intro last hlast
    rw [hlast] at h
    by_contra hle
    simp only [Nat.not_lt.mp hle, if_true] at h
    cases h
  have hupdated : updated = (old ++ [price]).drop ((old ++ [price]).length - maxHistoryRecords) := by
    cases hlast : old.getLast? with
    | none =>
      rw [hlast] at h
      cases h
      rfl
    | some last =>
      rw [hlast] at h
      simp only [Nat.not_le.mpr (hnew last hlast), if_false] at h
      cases h
      rfl
  have hpair : (old ++ [price]).Pairwise (fun p q => p.timestamp < q.timestamp) :=
    Ascending.concat (fun p : NormalizedPrice => p.timestamp) hinc.1 hnew
  have hlen : (old ++ [price]).length - maxHistoryRecords < (old ++ [price]).length := by
    have : 0 < maxHistoryRecords := by decide
    rw [length_append, length_singleton]
    omega
  refine ⟨⟨?_, ?_⟩, ?_, ?_, hnew⟩
  · rw [hupdated]
    exact hpair.sublist (drop_sublist _ _)
  · rw [hupdated, length_drop]
    omega
  · rw [hupdated, getLast?_drop, if_neg (Nat.not_le.mpr hlen), getLast?_concat]
  · intro p hp
    rw [hupdated] at hp
    rcases mem_append.mp (mem_of_mem_drop hp) with hp | hp
    · exact .inr hp
    · exact .inl (mem_singleton.mp hp)

theorem prepareHistoryUpdate_unchanged {history : Option (List NormalizedPrice)}
    (h : prepareHistoryUpdate history price maxHistoryRecords = .unchanged last) :
    (history.getD []).getLast? = some last := by
  unfold prepareHistoryUpdate at h
  dsimp only at h
  split at h
  · next hlast =>
    split at h
    · cases h
      exact hlast
    · cases h
  · cases h

namespace AssetEntry

variable {A Asset : Type} {e e' : AssetEntry A Asset}

/-- The served price, as far as the cache says. -/
def IsAccepted (e : AssetEntry A Asset) (p : NormalizedPrice) : Prop :=
  ∃ updatedAt, e.cache = some ⟨updatedAt, .accepted p⟩

/-- The stored breakers exist and do not block. -/
def IsOpen (e : AssetEntry A Asset) : Prop := ∃ set, e.breakers = some set ∧ set.isBlocking = false

structure Sound (e : AssetEntry A Asset) : Prop where
  unknown : e.proxy = none → e.cache = none ∧ e.history = none
  increasing : Increasing (e.history.getD [])
  accepted : ∀ p, e.IsAccepted p → e.IsOpen ∧ (e.history.getD []).getLast? = some p

/-- What an owner's call does to an entry: the cache is dropped or the entry stays as it
was, and the history goes exactly when the configuration changes. -/
structure Owned (e e' : AssetEntry A Asset) : Prop where
  cache : e'.cache = none ∨ e'.cache = e.cache ∧ e'.proxy = e.proxy ∧ e'.history = e.history ∧
    (e.breakers.isSome → e'.breakers = e.breakers)
  history : e'.proxy = e.proxy ∧ e'.history = e.history ∨ e'.proxy ≠ e.proxy ∧ e'.history = none

theorem Owned.refl (e : AssetEntry A Asset) : Owned e e :=
  ⟨.inr ⟨rfl, rfl, rfl, fun _ => rfl⟩, .inl ⟨rfl, rfl⟩⟩

theorem Owned.sound (h : Owned e e') (hs : e.Sound) : e'.Sound where
  unknown hnone := by
    rcases h.history with ⟨hproxy, hhistory⟩ | ⟨-, hhistory⟩
    · obtain ⟨hcache', hhistory'⟩ := hs.unknown (hproxy ▸ hnone)
      rcases h.cache with hcache | ⟨hcache, -⟩
      · exact ⟨hcache, hhistory.trans hhistory'⟩
      · exact ⟨hcache.trans hcache', hhistory.trans hhistory'⟩
    · rcases h.cache with hcache | ⟨hcache, hproxy, hhistory', -⟩
      · exact ⟨hcache, hhistory⟩
      · exact ⟨hcache.trans (hs.unknown (hproxy ▸ hnone)).1, hhistory⟩
  increasing := by
    rcases h.history with ⟨-, hhistory⟩ | ⟨-, hhistory⟩
    · rw [hhistory]
      exact hs.increasing
    · rw [hhistory]
      exact ⟨.nil, by decide⟩
  accepted := by
    rintro p ⟨updatedAt, hp⟩
    rcases h.cache with hcache | ⟨hcache, -, hhistory, hbreakers⟩
    · rw [hcache] at hp
      cases hp
    · obtain ⟨⟨set, hset, hopen⟩, hlast⟩ := hs.accepted p ⟨updatedAt, hcache ▸ hp⟩
      exact ⟨⟨set, (hbreakers (by rw [hset]; rfl)).trans hset, hopen⟩, hhistory ▸ hlast⟩

/-- Removing an asset that was not configured changes nothing that is served. -/
theorem owned_empty (hs : e.Sound) : Owned e .empty where
  cache := .inl rfl
  history := by
    by_cases hproxy : e.proxy = none
    · exact .inl ⟨hproxy.symm, (hs.unknown hproxy).2.symm⟩
    · exact .inr ⟨fun h => hproxy h.symm, rfl⟩

theorem loadBreakers_eq_ok {set : CircuitBreakerSet CircuitBreaker}
    (h : e.loadBreakers = .ok set) : e.breakers = some set := by
  unfold loadBreakers at h
  simp only [do_ok] at h
  obtain ⟨_, hset, -, rfl⟩ := h
  exact hset

variable [DecidableEq A] [DecidableEq Asset]

omit [DecidableEq A] [DecidableEq Asset] in
theorem owned_withBreakers {α : Type}
    {op : CircuitBreakerSet CircuitBreaker →
      Except ContractError (α × CircuitBreakerSet CircuitBreaker)}
    (h : e.withBreakers op = .ok e') : Owned e e' := by
  unfold withBreakers at h
  simp only [do_ok] at h
  obtain ⟨-, before, -, ⟨_, breakers⟩, -, h⟩ := h
  split at h
  · cases h
    exact .refl _
  · obtain ⟨stored, -, rfl, rfl⟩ := bind_eq_ok.mp h
    exact ⟨.inl rfl, .inl ⟨rfl, rfl⟩⟩

theorem owned_setProxy {config : ProxyConfig A Asset} {decimals : SourceConfig A Asset → Option Nat}
    (h : e.setProxy config decimals = .ok e') : Owned e e' := by
  unfold setProxy at h
  simp only [do_ok] at h
  obtain ⟨-, -, breakers, hbreakers, h⟩ := h
  split at h
  · next hchanged =>
    cases h
    exact ⟨.inl rfl, .inr ⟨fun heq => hchanged heq.symm, rfl⟩⟩
  · next hsame =>
    cases h
    rw [not_not] at hsame
    refine ⟨.inr ⟨rfl, hsame.symm, rfl, fun hsome => ?_⟩, .inl ⟨hsame.symm, rfl⟩⟩
    have hnone : e.breakers.isNone = false := by
      cases hb : e.breakers with
      | none => simp [hb] at hsome
      | some _ => rfl
    simp only [breakersFor, hsame, Option.any_some, ne_eq, not_true_eq_false, or_self, decide_false, hnone,
      Bool.or_self, Bool.false_eq_true, if_false] at hbreakers
    cases hbreakers
    rfl

section Refresh

variable {sorter : VoteSort} {base : Option Asset}
  {replies : SourceConfig A Asset → SourceReply Asset} {now timestamp : Nat}
  {computation : RefreshComputation}

omit [DecidableEq A] in
/-- Nothing is evaluated for an unknown asset; otherwise the sources give no price, or
the breakers answer, and then they do not block after a price they accepted. -/
theorem evaluate_eq_ok
    {r : Except RefreshStatus (PriceAcceptance × CircuitBreakerSet CircuitBreaker)}
    (h : e.evaluate sorter base replies now = .ok r) :
    (e.proxy = none ∧ r = .error .unknownAsset) ∨ e.proxy ≠ none ∧
      ((∃ status cached, r = .error status ∧ statusToCached status = some cached ∧
        ∀ p, cached ≠ .accepted p) ∨
      ∃ acceptance set', r = .ok (acceptance, set') ∧
        ∀ price, acceptance = .ok price → set'.isBlocking = false) := by
  unfold evaluate at h
  cases hproxy : e.proxy with
  | none =>
    rw [hproxy] at h
    cases h
    exact .inl ⟨rfl, rfl⟩
  | some config =>
    refine .inr ⟨by simp, ?_⟩
    rw [hproxy] at h
    split at h
    · next hnone => cases hnone
    · cases h
      exact .inl ⟨_, _, rfl, rfl, by simp⟩
    · cases h
      exact .inl ⟨_, _, rfl, rfl, by simp⟩
    next breakers _ _ =>
    dsimp only at h
    split at h
    · cases h
      cases breakers.blockingReason with
      | none | some reason => exact .inl ⟨_, _, rfl, rfl, by simp⟩
    · obtain ⟨resolution, hres, h⟩ := bind_eq_ok.mp h
      split at h
      · cases h
        refine .inr ⟨_, _, rfl, fun price hprice => ?_⟩
        obtain ⟨_, -, hset⟩ := Proxy.resolve_eq_ok hres
        exact CircuitBreakerSet.isBlocking_of_accepted hset hprice
      · cases h
        exact .inl ⟨_, _, rfl, rfl, by simp⟩

end Refresh

end AssetEntry

/-- The price that the breakers accepted in a refresh, served or not. -/
def RefreshComputation.acceptedPrice (c : RefreshComputation) : Option NormalizedPrice :=
  match c.status with
  | .accepted served => some (c.evaluatedPrice.getD served)
  | _ => none

namespace AssetEntry

variable {A Asset : Type} {e e' : AssetEntry A Asset} {timestamp : Nat}
  {computation : RefreshComputation}

/-- What a refresh does to the entry of an asset that is configured. -/
structure Refreshed (e e' : AssetEntry A Asset) (computation : RefreshComputation)
    (timestamp : Nat) : Prop where
  known : e.proxy ≠ none
  proxy : e'.proxy = e.proxy
  cache : ∃ status, e'.cache = some ⟨asSecs (fromSecs timestamp), status⟩
  history : e'.history = e.history ∨ ∃ updated price, e'.history = some updated ∧
    computation.acceptedPrice = some price ∧ Increasing updated ∧
    updated.getLast? = some price ∧ (∀ p ∈ updated, p = price ∨ p ∈ e.history.getD []) ∧
    ∀ last, (e.history.getD []).getLast? = some last → last.timestamp < price.timestamp
  accepted : ∀ p, e'.IsAccepted p → e'.IsOpen ∧ (e'.history.getD []).getLast? = some p

variable [DecidableEq A] [DecidableEq Asset]

omit [DecidableEq A] in
theorem refresh_eq_ok {sorter : VoteSort} {base : Option Asset}
    {replies : SourceConfig A Asset → SourceReply Asset} (hs : e.Sound)
    (h : e.refresh sorter base replies timestamp = .ok (computation, e')) :
    (e.proxy = none ∧ e' = e ∧ computation.acceptedPrice = none) ∨
      Refreshed e e' computation timestamp := by
  unfold refresh at h
  obtain ⟨⟨computation, e₁⟩, hcomp, rfl, rfl⟩ := bind_eq_ok.mp h
  unfold computeRefresh at hcomp
  obtain ⟨r, heval, hcomp⟩ := bind_eq_ok.mp hcomp
  obtain ⟨hproxy, rfl⟩ | ⟨hknown, ⟨status, cached, rfl, hcached, hno⟩ |
    ⟨acceptance, set', rfl, hopen⟩⟩ := evaluate_eq_ok heval
  · cases hcomp
    exact .inl ⟨hproxy, rfl, rfl⟩
  · cases hcomp
    simp only [applyRefresh, hcached]
    refine .inr ⟨hknown, rfl, ⟨_, rfl⟩, .inl rfl, ?_⟩
    rintro p ⟨_, hp⟩
    cases hp
    exact absurd rfl (hno p)
  right
  dsimp only at hcomp
  split at hcomp
  · -- The breakers could not be stored.
    cases hcomp
    refine ⟨hknown, rfl, ⟨_, rfl⟩, .inl rfl, ?_⟩
    rintro p ⟨_, hp⟩
    cases hp
  next stored hstored =>
  have hstored : stored = set' := by
    unfold storeBreakers at hstored
    obtain ⟨_, -, rfl, rfl⟩ := bind_eq_ok.mp hstored
    rfl
  cases hstored
  split at hcomp
  · cases hcomp
    refine ⟨hknown, rfl, ⟨_, rfl⟩, .inl rfl, ?_⟩
    rintro p ⟨_, hp⟩
    cases hp
  next price =>
  split at hcomp
  · next updated hupdate =>
    cases hcomp
    obtain ⟨hinc, hlast, hmem, hnew⟩ := prepareHistoryUpdate_append hupdate hs.increasing
    refine ⟨hknown, rfl, ⟨_, rfl⟩, .inr ⟨updated, _, rfl, rfl, hinc, hlast, hmem, hnew⟩, ?_⟩
    rintro p ⟨_, hp⟩
    cases hp
    exact ⟨⟨set', rfl, hopen price rfl⟩, hlast⟩
  · next served hupdate =>
    cases hcomp
    refine ⟨hknown, rfl, ⟨_, rfl⟩, .inl rfl, ?_⟩
    rintro p ⟨_, hp⟩
    cases hp
    exact ⟨⟨set', rfl, hopen price rfl⟩, prepareHistoryUpdate_unchanged hupdate⟩

omit [DecidableEq A] [DecidableEq Asset] in
theorem Refreshed.sound (h : Refreshed e e' computation timestamp) (hs : e.Sound) : e'.Sound where
  unknown hnone := absurd (h.proxy ▸ hnone) h.known
  increasing := by
    rcases h.history with heq | ⟨updated, _, heq, -, hinc, -⟩
    · rw [heq]
      exact hs.increasing
    · rw [heq]
      exact hinc
  accepted := h.accepted

end AssetEntry

/-- What an observer writes down about an asset: the prices accepted and the timestamps
served since its configuration changed, and the time of its last refresh. -/
structure Record where
  accepted : List NormalizedPrice
  served : List Nat
  lastRefresh : Option Nat

def Record.empty : Record := ⟨[], [], none⟩

structure World (A Asset : Type) where
  state : State A Asset
  record : Asset → Record

inductive Event (A Asset : Type) where
  | ownerCall (asset : Asset) (call : OwnerCall A Asset) (timestamp : Nat)
  | refresh (asset : Asset) (replies : SourceConfig A Asset → SourceReply Asset) (timestamp : Nat)
  | aggregatedLatest (asset : Asset) (timestamp : Nat)
  | aggregatedHistory (asset : Asset) (records : Nat)

namespace World

variable {A Asset : Type} [DecidableEq A] [DecidableEq Asset]

def new (base : Asset) : World A Asset := ⟨.new base, fun _ => .empty⟩

/-- Writes down that prices were served. -/
def serve (w : World A Asset) (asset : Asset) (prices : List NormalizedPrice) : World A Asset :=
  let r := w.record asset
  ⟨w.state, Function.update w.record asset
    { r with served := r.served ++ prices.map (·.timestamp) }⟩

/-- A call that fails is rolled back and leaves no record. -/
def step (sorter : VoteSort) (w : World A Asset) : Event A Asset → World A Asset
  | .ownerCall asset call timestamp =>
    match w.state.ownerCall asset call timestamp with
    | .ok s =>
      let r := w.record asset
      ⟨s, Function.update w.record asset
        (if (s.entry asset).proxy = (w.state.entry asset).proxy then r
        else { r with accepted := [], served := [] })⟩
    | .error _ => w
  | .refresh asset replies timestamp =>
    match (w.state.entry asset).refresh sorter w.state.base replies timestamp with
    | .ok (computation, e) =>
      let r := w.record asset
      ⟨w.state.put asset e, Function.update w.record asset
        { r with
          accepted := r.accepted ++ computation.acceptedPrice.toList
          lastRefresh := some timestamp }⟩
    | .error _ => w
  | .aggregatedLatest asset timestamp =>
    w.serve asset ((w.state.entry asset).aggregatedLatest timestamp).toList
  | .aggregatedHistory asset records =>
    w.serve asset (((w.state.entry asset).aggregatedHistory records).getD [])

def run (sorter : VoteSort) (w : World A Asset) (events : List (Event A Asset)) : World A Asset :=
  events.foldl (step sorter) w

end World

/-- The stored entry of an asset agrees with the observer's record. -/
structure Tracks {A Asset : Type} (e : AssetEntry A Asset) (r : Record) : Prop where
  sound : e.Sound
  accepted : ∀ p ∈ e.history.getD [], p ∈ r.accepted
  served : ∀ t ∈ r.served, ∃ last, (e.history.getD []).getLast? = some last ∧ t ≤ last.timestamp
  refreshed : ∀ cached, e.cache = some cached →
    ∃ timestamp, r.lastRefresh = some timestamp ∧ cached.updatedAt ≤ timestamp

section Tracks

variable {A Asset : Type} {e e' : AssetEntry A Asset} {r : Record} {prices : List NormalizedPrice}

variable (h : Tracks e r)
include h

theorem Tracks.owned (ho : AssetEntry.Owned e e') [DecidableEq A] [DecidableEq Asset] :
    Tracks e' (if e'.proxy = e.proxy then r else { r with accepted := [], served := [] }) := by
  have hrefreshed : ∀ cached, e'.cache = some cached →
      ∃ timestamp, r.lastRefresh = some timestamp ∧ cached.updatedAt ≤ timestamp := by
    intro cached hcached
    rcases ho.cache with hnone | ⟨hsame, -⟩
    · rw [hnone] at hcached
      cases hcached
    · exact h.refreshed cached (hsame ▸ hcached)
  rcases ho.history with ⟨hproxy, hhistory⟩ | ⟨hproxy, hhistory⟩
  · rw [if_pos hproxy]
    exact ⟨ho.sound h.sound, hhistory ▸ h.accepted, hhistory ▸ h.served, hrefreshed⟩
  · rw [if_neg hproxy]
    refine ⟨ho.sound h.sound, ?_, ?_, hrefreshed⟩
    · rw [hhistory]
      simp
    · simp

theorem Tracks.refreshed_of {computation : RefreshComputation} {timestamp : Nat}
    (hr : AssetEntry.Refreshed e e' computation timestamp) :
    Tracks e' { r with
      accepted := r.accepted ++ computation.acceptedPrice.toList
      lastRefresh := some timestamp } := by
  refine ⟨hr.sound h.sound, ?_, ?_, ?_⟩
  · intro p hmem
    rcases hr.history with heq | ⟨updated, price, heq, hprice, -, -, hsub, -⟩
    · rw [heq] at hmem
      exact mem_append_left _ (h.accepted p hmem)
    · rw [heq] at hmem
      rcases hsub p hmem with rfl | hold
      · exact mem_append_right _ (by rw [hprice]; simp)
      · exact mem_append_left _ (h.accepted p hold)
  · intro t ht
    obtain ⟨last, hlast, hle⟩ := h.served t ht
    rcases hr.history with heq | ⟨updated, price, heq, -, -, hprice, -, hnew⟩
    · exact ⟨last, heq ▸ hlast, hle⟩
    · exact ⟨price, by rw [heq]; exact hprice, hle.trans (hnew last hlast).le⟩
  · intro cached hcached
    obtain ⟨status, hcache⟩ := hr.cache
    rw [hcache] at hcached
    cases hcached
    refine ⟨timestamp, rfl, ?_⟩
    show asSecs (fromSecs timestamp) ≤ timestamp
    unfold asSecs fromSecs
    omega

/-- What is served is the last entry of the history, and the breakers are open. -/
theorem Tracks.latest {now : Nat} {p : NormalizedPrice}
    (hp : e.aggregatedLatest now = some p) :
    e.IsOpen ∧ (e.history.getD []).getLast? = some p ∧
      ∃ config maxAge timestamp, e.proxy = some config ∧ config.maxAgeSecs = some maxAge ∧
        r.lastRefresh = some timestamp ∧ now ≤ timestamp + maxAge ∧ now ≤ p.timestamp + maxAge := by
  simp only [aggregatedLatest, bind, Option.bind_eq_some_iff] at hp
  obtain ⟨⟨updatedAt, status⟩, hcached, config, hproxy, maxAge, hage, hp⟩ := hp
  unfold cachedAcceptedNoOlderThan at hp
  split at hp
  · next price hstatus =>
    split at hp
    · cases hp
    · next hfresh =>
      cases hp
      cases hstatus
      obtain ⟨hopen, hlast⟩ := h.sound.accepted p ⟨updatedAt, hcached⟩
      obtain ⟨timestamp, htime, hle⟩ := h.refreshed _ hcached
      rw [not_or] at hfresh
      obtain ⟨hupdated, hpublished⟩ := hfresh
      dsimp only at hupdated hpublished hle
      exact ⟨hopen, hlast, config, maxAge, timestamp, hproxy, hage, htime, by omega, by omega⟩
  · cases hp

/-- The history served is the end of the stored one, and the breakers are open. -/
theorem Tracks.history {records : Nat}
    (hp : e.aggregatedHistory records = some prices) :
    e.IsOpen ∧ Increasing prices ∧ ∀ p ∈ prices, p ∈ e.history.getD [] := by
  unfold aggregatedHistory at hp
  split at hp
  · cases hp
  obtain ⟨breakers, hload, hp⟩ := Option.bind_eq_some_iff.mp hp
  split at hp
  · cases hp
  next hblocking =>
  obtain ⟨history, hhistory, hp⟩ := Option.bind_eq_some_iff.mp hp
  split at hp
  · cases hp
  cases hp
  rw [hhistory]
  refine ⟨⟨breakers, loadBreakers_eq_ok (toOption_eq_some.mp hload),
    by simpa using hblocking⟩, ?_, ?_⟩
  · have hinc := h.sound.increasing
    rw [hhistory] at hinc
    exact ⟨hinc.1.sublist (drop_sublist _ _), (length_drop ▸ Nat.sub_le _ _).trans hinc.2⟩
  · intro p hp
    exact mem_of_mem_drop hp

theorem Tracks.serve (hp : ∀ p ∈ prices, p ∈ e.history.getD []) :
    Tracks e { r with served := r.served ++ prices.map (·.timestamp) } := by
  refine ⟨h.sound, h.accepted, ?_, h.refreshed⟩
  intro t ht
  rcases mem_append.mp ht with ht | ht
  · exact h.served t ht
  · obtain ⟨p, hmem, rfl⟩ := mem_map.mp ht
    have hstored := hp p hmem
    cases hlast : (e.history.getD []).getLast? with
    | none =>
      rw [getLast?_eq_none_iff.mp hlast] at hstored
      cases hstored
    | some last =>
      exact ⟨last, rfl, Ascending.le_getLast (fun p : NormalizedPrice => p.timestamp)
        h.sound.increasing.1 hstored hlast⟩

end Tracks

namespace World

variable {A Asset : Type} [DecidableEq A] [DecidableEq Asset] {sorter : VoteSort}
  {w : World A Asset} {s : State A Asset} {asset : Asset}

/-- Every asset's entry agrees with its record. -/
def Tracked (w : World A Asset) : Prop := ∀ asset, Tracks (w.state.entry asset) (w.record asset)

omit [DecidableEq A] in
theorem Tracked.update {r : Record} (h : w.Tracked)
    (hs : ∀ other, other ≠ asset → s.entry other = w.state.entry other)
    (hr : Tracks (s.entry asset) r) : Tracked ⟨s, Function.update w.record asset r⟩ := by
  intro other
  by_cases heq : other = asset
  · cases heq
    simpa using hr
  · show Tracks (s.entry other) (Function.update w.record asset r other)
    rw [hs other heq, Function.update_of_ne heq]
    exact h other

theorem ownerCall_eq_ok {s' : State A Asset} {call : OwnerCall A Asset}
    {timestamp : Nat} (hs : (s.entry asset).Sound) (h : s.ownerCall asset call timestamp = .ok s') :
    ∃ e', AssetEntry.Owned (s.entry asset) e' ∧ s'.entry = Function.update s.entry asset e' := by
  -- The calls on the breakers differ in the operation only.
  have hbreakers : ∀ {α : Type} {op : CircuitBreakerSet CircuitBreaker →
      Except ContractError (α × CircuitBreakerSet CircuitBreaker)},
      s.put asset <$> (s.entry asset).withBreakers op = .ok s' →
      ∃ e', AssetEntry.Owned (s.entry asset) e' ∧ s'.entry = Function.update s.entry asset e' := by
    intro α op h
    obtain ⟨e', he', rfl⟩ := map_eq_ok.mp h
    exact ⟨e', owned_withBreakers he', rfl⟩
  cases call with
  | setProxy config decimals =>
    simp only [State.ownerCall, State.addAsset, do_ok] at h
    obtain ⟨e', he', s₁, ⟨assets, -, hs₁⟩, rfl⟩ := h
    refine ⟨e', owned_setProxy he', ?_⟩
    split at hs₁
    · cases hs₁
      rfl
    · obtain ⟨_, -, rfl, rfl⟩ := bind_eq_ok.mp hs₁
      rfl
  | removeProxy =>
    simp only [State.ownerCall, State.removeAsset, do_ok] at h
    obtain ⟨s₁, ⟨_, -, hs₁⟩, h⟩ := h
    cases hs₁
    cases h
    exact ⟨.empty, owned_empty hs, rfl⟩
  | configureBreakers sampleIntervalSecs historyLen =>
    obtain ⟨_, -, h⟩ := bind_eq_ok.mp h
    exact hbreakers h
  | addBreaker config =>
    obtain ⟨_, -, h⟩ := bind_eq_ok.mp h
    obtain ⟨_, -, h⟩ := bind_eq_ok.mp h
    exact hbreakers h
  | removeBreaker breakerId => exact hbreakers h
  | rearm breakerId armingDelaySecs =>
    obtain ⟨_, -, h⟩ := bind_eq_ok.mp h
    obtain ⟨_, -, h⟩ := bind_eq_ok.mp h
    exact hbreakers h
  | setEnforced breakerId isEnforced => exact hbreakers h
  | setManualTrip isManuallyTripped metadata =>
    obtain ⟨_, -, h⟩ := bind_eq_ok.mp h
    exact hbreakers h

omit [DecidableEq A] in
theorem Tracked.serve (h : w.Tracked) {prices : List NormalizedPrice}
    (hp : ∀ p ∈ prices, p ∈ (w.state.entry asset).history.getD []) :
    (w.serve asset prices).Tracked :=
  h.update (fun _ _ => rfl) ((h asset).serve hp)

theorem Tracked.step (h : w.Tracked) (event : Event A Asset) : (w.step sorter event).Tracked := by
  cases event with
  | ownerCall asset call timestamp =>
    simp only [World.step]
    split
    · next s hs =>
      obtain ⟨e', howned, hentry⟩ := ownerCall_eq_ok (h asset).sound hs
      apply h.update
      · intro other hne
        rw [hentry, Function.update_of_ne hne]
      · rw [hentry, Function.update_self]
        exact (h asset).owned howned
    · exact h
  | refresh asset replies timestamp =>
    simp only [World.step]
    split
    · next computation e' he' =>
      apply h.update
      · intro other hne
        exact Function.update_of_ne hne _ _
      · simp only [State.put, Function.update_self]
        rcases refresh_eq_ok (h asset).sound he' with ⟨hp, rfl, hnone⟩ | hrefreshed
        · -- An asset without configuration has no cache either.
          rw [hnone]
          refine ⟨(h asset).sound, by simpa using (h asset).accepted, (h asset).served, ?_⟩
          intro cached hcached
          rw [((h asset).sound.unknown hp).1] at hcached
          cases hcached
        · exact (h asset).refreshed_of hrefreshed
    · exact h
  | aggregatedLatest asset timestamp =>
    refine h.serve fun p hp => ?_
    exact mem_of_getLast? ((h asset).latest (Option.mem_toList.mp hp)).2.1
  | aggregatedHistory asset records =>
    refine h.serve fun p hp => ?_
    cases hserved : (w.state.entry asset).aggregatedHistory records with
    | none =>
      rw [hserved] at hp
      cases hp
    | some prices =>
      rw [hserved] at hp
      exact ((h asset).history hserved).2.2 p hp

theorem tracked_run (base : Asset) (events : List (Event A Asset)) :
    ((new base).run sorter events).Tracked := by
  have hempty : (empty : AssetEntry A Asset).Sound :=
    ⟨fun _ => ⟨rfl, rfl⟩, ⟨.nil, Nat.zero_le _⟩, fun p ⟨_, h⟩ => by cases h⟩
  have hnew : (new base : World A Asset).Tracked := fun _ =>
    ⟨hempty, by simp [new, State.new, empty], by simp [new, Record.empty],
      fun _ hcached => by cases hcached⟩
  exact foldlRecOn events (step sorter) (motive := Tracked) hnew fun _ h event _ => h.step event

/-- Over every run from a new contract. A price that is served is the last of the
history, no older than what was served since the configuration changed, and was accepted
since then; the stored breakers do not block; the price and the last refresh are within
the maximal age. A blocking set hides the history too, which is increasing and short. -/
theorem served_prices_are_current (sorter : VoteSort) (base : Asset)
    (events : List (Event A Asset)) (asset : Asset) :
    let w := (new base : World A Asset).run sorter events
    let e := w.state.entry asset
    let r := w.record asset
    (∀ now p, e.aggregatedLatest now = some p →
      (∃ set, e.breakers = some set ∧ set.isBlocking = false) ∧ p ∈ r.accepted ∧
      (e.history.getD []).getLast? = some p ∧ (∀ t ∈ r.served, t ≤ p.timestamp) ∧
      ∃ config maxAge refreshedAt, e.proxy = some config ∧ config.maxAgeSecs = some maxAge ∧
        r.lastRefresh = some refreshedAt ∧ now ≤ refreshedAt + maxAge ∧
        now ≤ p.timestamp + maxAge) ∧
    (∀ set records, e.breakers = some set → set.isBlocking = true →
      e.aggregatedHistory records = none) ∧
    ∀ records prices, e.aggregatedHistory records = some prices →
      prices.Pairwise (fun p q => p.timestamp < q.timestamp) ∧ prices.length ≤ 32 := by
  intro w e r
  have h : Tracks e r := tracked_run base events asset
  refine ⟨?_, ?_, ?_⟩
  · intro now p hp
    obtain ⟨hopen, hlast, hage⟩ := h.latest hp
    refine ⟨hopen, h.accepted p (mem_of_getLast? hlast), hlast, ?_, hage⟩
    intro t ht
    obtain ⟨last, hlast', hle⟩ := h.served t ht
    rw [hlast] at hlast'
    cases hlast'
    exact hle
  · intro set records hset hblocking
    rw [Option.eq_none_iff_forall_ne_some]
    intro prices hp
    obtain ⟨⟨set', hset', hopen⟩, -⟩ := h.history hp
    rw [hset] at hset'
    cases hset'
    rw [hblocking] at hopen
    cases hopen
  · intro records prices hp
    exact (h.history hp).2.1

-- A price that is refreshed is served, until the owner trips the breakers by hand.
example :
    let events : List (Event Nat Nat) :=
      [.ownerCall 7 (.setProxy ⟨[⟨1, 7⟩], 1, some 60, some 5⟩ fun _ => some 2) 90,
        .refresh 7 (fun _ => ⟨some 0, some 2, some (some ⟨150, 95⟩)⟩) 100]
    let latest (events : List (Event Nat Nat)) :=
      (((new 0).run .stable events).state.entry 7).aggregatedLatest 120
    latest events = some ⟨150, -2, 95⟩ ∧
      latest (events ++ [.ownerCall 7 (.setManualTrip true none) 110]) = none := by
  decide +kernel

end World

end Templar.Oracle.Soroban
