import Mathlib.Data.List.Induction
import Templar.Oracle.BreakerRuns
import Templar.Oracle.NearState

/-!
# Interleavings of the proxy oracle on NEAR

The calls of the administrator and of the public, and the callbacks of updates in
flight, come in any order. What every step may do to the entry of one price id is
said once (`Revised` for the calls, `Finished` for the callbacks); the rest follows
from the epochs.
-/

namespace Templar.Oracle.Near

open Checked PriceEntry Function List

namespace PriceEntry

variable {Id S : Type} {e e' : PriceEntry S} {now : Nat}

def IsAccepted (e : PriceEntry S) (price : Price) : Prop :=
  ∃ updatedAtNs, e.cachedPrice = some ⟨updatedAtNs, .accepted price⟩

/-- What a call may do to an entry: nothing, or raise the epoch and leave no accepted
price behind. -/
def Revised (e e' : PriceEntry S) : Prop :=
  e' = e ∨ e.cacheEpoch < e'.cacheEpoch ∧ ∀ price, ¬ e'.IsAccepted price

/-- The epoch moves on, and the cached price stays. -/
theorem cacheEpoch_bump (h : e.bumpCacheEpoch = .ok e') :
    e.cacheEpoch < e'.cacheEpoch ∧ e'.cachedPrice = e.cachedPrice := by
  unfold bumpCacheEpoch at h
  simp only [do_ok] at h
  obtain ⟨_, ⟨-, rfl⟩, rfl⟩ := h
  exact ⟨Nat.lt_succ_self _, rfl⟩

/-- An epoch that starts without a price. -/
theorem revised_of_none {e₁ : PriceEntry S}
    (h : e.cacheEpoch < e₁.cacheEpoch ∧ e₁.cachedPrice = none)
    (hsame : e'.cacheEpoch = e₁.cacheEpoch ∧ e'.cachedPrice = e₁.cachedPrice) : Revised e e' := by
  refine .inr ⟨hsame.1 ▸ h.1, ?_⟩
  rintro price ⟨_, hp⟩
  rw [hsame.2, h.2] at hp
  cases hp

theorem revised_failure {message : String} {status : CachedProxyPriceStatus}
    (h : e.cachePriceUpdateFailure now message = .ok (status, e')) : Revised e e' := by
  unfold cachePriceUpdateFailure at h
  obtain ⟨e₁, he₁, rfl, rfl⟩ := bind_eq_ok.mp h
  refine .inr ⟨(cacheEpoch_bump he₁).1, ?_⟩
  rintro price ⟨_, h⟩
  cases h

theorem revised_edit {α : Type}
    {f : CircuitBreakerSet CircuitBreaker →
      Except CircuitBreakerError (α × CircuitBreakerSet CircuitBreaker)}
    (h : e.editCircuitBreakerSet f = .ok e') : Revised e e' := by
  unfold editCircuitBreakerSet at h
  simp only [do_ok] at h
  obtain ⟨_, -, original, -, ⟨_, set⟩, -, h⟩ := h
  split at h
  · obtain ⟨e₁, he₁, rfl, rfl⟩ := bind_eq_ok.mp h
    exact revised_of_none (cacheEpoch_bump he₁) ⟨rfl, rfl⟩
  · cases h
    exact .inl rfl

theorem revised_setProxy [DecidableEq S] {proxy : Option (Proxy S)}
    (h : e.setProxy proxy = .ok e') : Revised e e' := by
  cases proxy with
  | some proxy =>
    simp only [setProxy] at h
    split at h
    · exact revised_of_none (cacheEpoch_bump h) ⟨rfl, rfl⟩
    · next hsame =>
      cases h
      rw [not_or, not_not] at hsame
      obtain ⟨hproxy, hset⟩ := hsame
      rw [if_neg hset, ← hproxy]
      exact .inl rfl
  | none =>
    simp only [setProxy] at h
    split at h
    · exact revised_of_none (cacheEpoch_bump h) ⟨rfl, rfl⟩
    · next hsame =>
      cases h
      simp only [Bool.or_eq_true, not_or, Option.not_isSome_iff_eq_none] at hsame
      obtain ⟨⟨hproxy, hset⟩, hcache⟩ := hsame
      rw [← hproxy, ← hset, ← hcache]
      exact .inl rfl

/-- What an administrator changes in an entry is a revision. -/
theorem revised_admin [DecidableEq S] {call : AdminCall S} (h : call.apply e now = .ok e') :
    Revised e e' := by
  cases call with
  | setProxy proxy =>
    obtain ⟨_, -, h⟩ := bind_eq_ok.mp h
    exact revised_setProxy h
  | configureCircuitBreakers config | addCircuitBreaker breakerId breaker
  | removeCircuitBreaker breakerId => exact revised_edit h
  | setManualTrip tripped actor metadata | rearm breakerId armingDelayNs =>
    obtain ⟨_, -, h⟩ := bind_eq_ok.mp h
    exact revised_edit h
  | setEnforced breakerId isEnforced => exact revised_edit h

/-- The epoch never falls, and within one epoch the proxy stays. -/
def Advances (e e' : PriceEntry S) : Prop :=
  e.cacheEpoch ≤ e'.cacheEpoch ∧ (e.cacheEpoch = e'.cacheEpoch → e'.proxy = e.proxy)

theorem Advances.refl (e : PriceEntry S) : Advances e e := ⟨Nat.le_refl _, fun _ => rfl⟩

theorem Advances.trans {e₁ e₂ e₃ : PriceEntry S} (h : Advances e₁ e₂) (h' : Advances e₂ e₃) :
    Advances e₁ e₃ := by
  obtain ⟨hle, hproxy⟩ := h
  obtain ⟨hle', hproxy'⟩ := h'
  refine ⟨hle.trans hle', fun heq => ?_⟩
  rw [hproxy' (by omega), hproxy (by omega)]

/-- A revision never takes the epoch back. -/
theorem Revised.advances (h : Revised e e') : Advances e e' := by
  obtain rfl | ⟨hlt, -⟩ := h
  · exact .refl e'
  · exact ⟨hlt.le, fun heq => absurd heq hlt.ne⟩

theorem Revised.eq_of_accepted {price : Price} (h : Revised e e') (hp : e'.IsAccepted price) :
    e' = e := by
  obtain rfl | ⟨-, hno⟩ := h
  · rfl
  · exact absurd hp (hno price)

/-- A new proxy or new breakers start a new epoch. -/
theorem Revised.lt_of_changed (h : Revised e e')
    (hne : e'.proxy ≠ e.proxy ∨ e'.circuitBreakers ≠ e.circuitBreakers) :
    e.cacheEpoch < e'.cacheEpoch := by
  obtain rfl | ⟨hlt, -⟩ := h
  · rcases hne with hne | hne
    · exact absurd rfl hne
    · exact absurd rfl hne
  · exact hlt

end PriceEntry

variable {price : Price}

theorem acceptedPriceNoOlderThan_eq_some {c : CachedProxyPrice} {now maxAge : Nat}
    (h : c.acceptedPriceNoOlderThan now maxAge = some price) :
    c = ⟨c.updatedAtNs, .accepted price⟩ ∧ price.publishTimeNs ≤ now ∧
      now - price.publishTimeNs ≤ maxAge := by
  obtain ⟨updatedAtNs, status⟩ := c
  unfold CachedProxyPrice.acceptedPriceNoOlderThan at h
  split at h
  · next heq =>
    split at h
    · cases h
    · split at h
      · cases h
      · cases h
        cases heq
        exact ⟨rfl, by omega, by omega⟩
  · cases h

/-- Whole seconds survive the conversion. -/
theorem publishTime_pythPriceTryFromKernel {answer : PythPrice}
    (h : pythPriceTryFromKernel price = some answer) (hdvd : 1000000000 ∣ price.publishTimeNs) :
    answer.publishTime * 1000000000 = price.publishTimeNs := by
  obtain ⟨time, htime, rfl⟩ := Option.map_eq_some_iff.mp h
  unfold tryFromTime at htime
  dsimp only at htime
  split at htime
  · cases htime
    show ((price.publishTimeNs / 1000000 / 1000 : Nat) : Int) * 1000000000 = price.publishTimeNs
    omega
  · cases htime

section Runs

variable {Id S : Type} [DecidableEq Id] {s s' s₁ s₂ s₃ : State Id S}
  {p : PendingProxyPriceUpdate Id S} {id : Id} {now : Nat} {r r' : Receipt Id S} {ids : List Id}
  {sorter : VoteSort} {replies : Replies Id S} {results : Statuses Id}
  {pendings : List (PendingProxyPriceUpdate Id S)}

/-- The contract with the callbacks that are still to come. -/
structure World (Id S : Type) where
  state : State Id S
  inFlight : List (Receipt Id S)

inductive Event (Id S : Type) where
  | updatePrices (priceIds : List Id) (now : Nat)
  | callback (index : Nat) (replies : Replies Id S) (now : Nat)
  | callbackFailed (index : Nat)
  | admin (id : Id) (call : AdminCall S) (now : Nat)

namespace World

def new : World Id S := ⟨fun _ => .empty, []⟩

/-- A call or callback that aborts leaves the state as it was. -/
def step [DecidableEq S] (sorter : VoteSort) (w : World Id S) : Event Id S → World Id S
  | .updatePrices priceIds now =>
    match Near.updatePrices w.state priceIds now with
    | .ok (s, .inl _) => { w with state := s }
    | .ok (s, .inr receipt) => ⟨s, w.inFlight ++ [receipt]⟩
    | .error _ => w
  | .callback index replies now =>
    match w.inFlight[index]? with
    | none => w
    | some receipt =>
      match updatePrices01ConsumeResults sorter w.state receipt replies now with
      | .ok (s, _) => ⟨s, w.inFlight.eraseIdx index⟩
      | .error _ => ⟨w.state, w.inFlight.eraseIdx index⟩
  | .callbackFailed index => ⟨w.state, w.inFlight.eraseIdx index⟩
  | .admin id call now =>
    match call.apply (w.state id) now with
    | .ok e => { w with state := update w.state id e }
    | .error _ => w

def run [DecidableEq S] (sorter : VoteSort) (w : World Id S) (events : List (Event Id S)) :
    World Id S :=
  events.foldl (step sorter) w

end World

/-- The update was made in an epoch that has not passed it by, and as long as that
epoch lasts its proxy is the stored one. -/
def PendingProxyPriceUpdate.Sound (s : State Id S) (p : PendingProxyPriceUpdate Id S) : Prop :=
  p.epoch ≤ (s p.priceId).cacheEpoch ∧
    (p.epoch = (s p.priceId).cacheEpoch → (s p.priceId).proxy = some p.proxy)

omit [DecidableEq Id] in
theorem PendingProxyPriceUpdate.Sound.advance (h : p.Sound s)
    (hs : PriceEntry.Advances (s p.priceId) (s' p.priceId)) : p.Sound s' := by
  obtain ⟨hle, hproxy⟩ := h
  obtain ⟨hle', hproxy'⟩ := hs
  refine ⟨hle.trans hle', fun heq => ?_⟩
  rw [hproxy' (by omega), hproxy (by omega)]

/-- What requesting an update does to the entries. -/
def Requested (s s' : State Id S) : Prop :=
  ∀ id, PriceEntry.Advances (s id) (s' id) ∧ ∀ price, (s' id).IsAccepted price → s' id = s id

omit [DecidableEq Id] in
theorem Requested.refl (s : State Id S) : Requested s s := fun _ => ⟨.refl _, fun _ _ => rfl⟩

omit [DecidableEq Id] in
theorem Requested.trans (h : Requested s₁ s₂) (h' : Requested s₂ s₃) : Requested s₁ s₃ := by
  intro id
  obtain ⟨hadv, hacc⟩ := h id
  obtain ⟨hadv', hacc'⟩ := h' id
  refine ⟨hadv.trans hadv', fun price hp => ?_⟩
  have heq := hacc' price hp
  rw [heq]
  exact hacc price (heq ▸ hp)

/-- An entry that a call revised, the others unchanged. -/
theorem Requested.update {e : PriceEntry S} (h : PriceEntry.Revised (s id) e) :
    Requested s (update s id e) := by
  intro id'
  by_cases heq : id' = id
  · cases heq
    rw [update_self]
    exact ⟨h.advances, fun price hp => h.eq_of_accepted hp⟩
  · rw [update_of_ne heq]
    exact ⟨.refl _, fun _ _ => rfl⟩

/-- An update that is requested notes the proxy and the epoch of its entry. -/
theorem prepare_spec (h : prepare now (s, r) id = .ok (s', r')) (hr : ∀ p ∈ r.invoked, p.Sound s) :
    Requested s s' ∧ ∀ p ∈ r'.invoked, p.Sound s' := by
  unfold prepare at h
  dsimp only at h
  split at h
  · next proxy hentry =>
    cases h
    refine ⟨.refl s, fun p hp => ?_⟩
    rcases mem_append.mp hp with hp | hp
    · exact hr p hp
    · cases mem_singleton.mp hp
      refine ⟨Nat.le_refl _, fun _ => ?_⟩
      show (s id).proxy = some proxy
      unfold validatedProxyEntry at hentry
      split at hentry
      · cases hentry
      · next hproxy =>
        obtain ⟨_, -, rfl, rfl⟩ := bind_eq_ok.mp hentry
        exact hproxy
  · cases h
    exact ⟨.refl s, hr⟩
  · obtain ⟨⟨status, e⟩, he, rfl, rfl⟩ := bind_eq_ok.mp h
    have hreq := Requested.update (revised_failure he)
    exact ⟨hreq, fun p hp => (hr p hp).advance (hreq p.priceId).1⟩

theorem foldlM_prepare_spec (h : ids.foldlM (prepare now) (s, r) = .ok (s', r'))
    (hr : ∀ p ∈ r.invoked, p.Sound s) : Requested s s' ∧ ∀ p ∈ r'.invoked, p.Sound s' := by
  induction ids generalizing s r with
  | nil =>
    cases h
    exact ⟨.refl _, hr⟩
  | cons id ids ih =>
    rw [foldlM_cons] at h
    obtain ⟨⟨s₁, r₁⟩, h₁, h⟩ := bind_eq_ok.mp h
    obtain ⟨hreq₁, hr₁⟩ := prepare_spec h₁ hr
    obtain ⟨hreq, hr'⟩ := ih h hr₁
    exact ⟨hreq₁.trans hreq, hr'⟩

theorem updatePrices_spec {answer : Sum (Statuses Id) (Receipt Id S)}
    (h : updatePrices s ids now = .ok (s', answer)) :
    Requested s s' ∧ ∀ receipt, answer = .inr receipt → ∀ p ∈ receipt.invoked, p.Sound s' := by
  unfold updatePrices at h
  obtain ⟨⟨s₁, receipt⟩, hfold, h⟩ := bind_eq_ok.mp h
  obtain ⟨hreq, hsound⟩ := foldlM_prepare_spec hfold (by simp)
  dsimp only at h
  split at h
  · cases h
    refine ⟨hreq, ?_⟩
    rintro _ heq
    cases heq
    exact hsound
  · cases h
    refine ⟨hreq, ?_⟩
    rintro _ heq
    cases heq

/-- The prices that the replies give for the sources of an update. -/
def pricesOf (replies : Replies Id S) (p : PendingProxyPriceUpdate Id S) : List (Option Price) :=
  (replies p).map fun price => price.bind pythPriceTryToKernel

/-- A price that the proxy of an update resolved to, with the set that was left. -/
def Resolves (sorter : VoteSort) (replies : Replies Id S) (now : Nat)
    (p : PendingProxyPriceUpdate Id S) (price : Price) (set' : CircuitBreakerSet CircuitBreaker) :
    Prop :=
  ∃ set events, p.proxy.resolve sorter set (pricesOf replies p) now =
    .ok (.ok (⟨.ok price, events⟩, set'))

/-- What a callback does to the entries: it keeps proxy and epoch, and writes to an
entry only for an update made in its epoch. -/
structure Consumed (sorter : VoteSort) (replies : Replies Id S) (now : Nat)
    (pendings : List (PendingProxyPriceUpdate Id S)) (s s' : State Id S) (id : Id) : Prop where
  epoch : (s' id).cacheEpochs = (s id).cacheEpochs
  proxy : (s' id).proxy = (s id).proxy
  written : s' id = s id ∨ ∃ p ∈ pendings, p.priceId = id ∧ p.epoch = (s id).cacheEpoch ∧
    ∀ price, (s' id).IsAccepted price → ∃ set', Resolves sorter replies now p price set' ∧
      (s' id).circuitBreakers = some set'

/-- An answer is written only for the epoch it was asked in. -/
theorem finish_spec {results' : Statuses Id}
    (h : finish sorter replies now (s, results) p = .ok (s', results')) (id : Id) :
    Consumed sorter replies now [p] s s' id := by
  unfold finish at h
  obtain ⟨⟨status, e⟩, he, rfl, rfl⟩ := bind_eq_ok.mp h
  have hkept (hsame : update s p.priceId e id = s id) :
      Consumed sorter replies now [p] s (update s p.priceId e) id :=
    ⟨by rw [hsame], by rw [hsame], .inl hsame⟩
  by_cases heq : id = p.priceId
  · cases heq
    unfold finishPriceUpdateIfCurrent at he
    split at he
    · cases he
      exact hkept (by rw [update_self])
    next hcurrent =>
    rw [not_or, not_not] at hcurrent
    simp only [do_ok] at he
    obtain ⟨set, -, ⟨status, set'⟩, hresolve, rfl, rfl⟩ := he
    refine ⟨by rw [update_self], by rw [update_self],
      .inr ⟨p, mem_singleton_self p, rfl, hcurrent.1.symm, ?_⟩⟩
    rw [update_self]
    rintro price ⟨_, hp⟩
    cases hp
    obtain ⟨resolution, hres, h⟩ := bind_eq_ok.mp hresolve
    split at h
    · next events _ =>
      cases h
      exact ⟨_, ⟨set, events, hres⟩, rfl⟩
    · cases h
    · cases h
  · exact hkept (update_of_ne heq _ _)

omit [DecidableEq Id] in
theorem Consumed.cons (h : Consumed sorter replies now [p] s₁ s₂ id)
    (h' : Consumed sorter replies now pendings s₂ s₃ id) :
    Consumed sorter replies now (p :: pendings) s₁ s₃ id := by
  refine ⟨h'.epoch.trans h.epoch, h'.proxy.trans h.proxy, ?_⟩
  rcases h'.written with heq | ⟨q, hq, hid, hepoch, hacc⟩
  · rcases h.written with heq' | ⟨q, hq, hid, hepoch, hacc⟩
    · exact .inl (heq.trans heq')
    · refine .inr ⟨q, ?_, hid, hepoch, heq ▸ hacc⟩
      rw [mem_singleton.mp hq]
      exact mem_cons_self
  · refine .inr ⟨q, mem_cons_of_mem p hq, hid, ?_, hacc⟩
    rw [hepoch, cacheEpoch, cacheEpoch, h.epoch]

theorem foldlM_finish_spec {before : Statuses Id}
    (h : pendings.foldlM (finish sorter replies now) (s, before) = .ok (s', results)) (id : Id) :
    Consumed sorter replies now pendings s s' id := by
  induction pendings generalizing s before with
  | nil =>
    cases h
    exact ⟨rfl, rfl, .inl rfl⟩
  | cons p pendings ih =>
    rw [foldlM_cons] at h
    obtain ⟨⟨s₁, results₁⟩, h₁, h⟩ := bind_eq_ok.mp h
    exact (finish_spec h₁ id).cons (ih h)

omit [DecidableEq Id] in
theorem Consumed.advances (h : Consumed sorter replies now pendings s s' id) :
    PriceEntry.Advances (s id) (s' id) :=
  ⟨by rw [cacheEpoch, cacheEpoch, h.epoch], fun _ => h.proxy⟩

namespace World

variable [DecidableEq S] {w : World Id S} {set' : CircuitBreakerSet CircuitBreaker}

/-- A step requests, administers or aborts, or it is a callback in flight that ran. -/
theorem step_state (sorter : VoteSort) (w : World Id S) (event : Event Id S) :
    Requested w.state (w.step sorter event).state ∨
      ∃ index replies now receipt, event = .callback index replies now ∧
        w.inFlight[index]? = some receipt ∧
        ∀ id, Consumed sorter replies now receipt.invoked w.state (w.step sorter event).state id := by
  cases event with
  | updatePrices priceIds now =>
    left
    simp only [step]
    split
    · next h => exact (updatePrices_spec h).1
    · next h => exact (updatePrices_spec h).1
    · exact .refl _
  | callback index replies now =>
    simp only [step]
    split
    · exact .inl (.refl _)
    · next receipt hreceipt =>
      split
      · next h =>
        exact .inr ⟨index, replies, now, receipt, rfl, hreceipt, foldlM_finish_spec h⟩
      · exact .inl (.refl _)
  | callbackFailed index => exact .inl (.refl _)
  | admin id call now =>
    left
    simp only [step]
    split
    · next h => exact .update (revised_admin h)
    · exact .refl _

theorem step_advances (w : World Id S) (event : Event Id S) (id : Id) :
    PriceEntry.Advances (w.state id) ((w.step sorter event).state id) := by
  rcases w.step_state sorter event with h | ⟨_, _, _, _, -, -, h⟩
  · exact (h id).1
  · exact (h id).advances

/-- No run takes an epoch back. -/
theorem run_advances (sorter : VoteSort) (w : World Id S) (events : List (Event Id S)) (id : Id) :
    PriceEntry.Advances (w.state id) ((w.run sorter events).state id) := by
  exact foldlRecOn events (step sorter) (motive := fun w' => Advances (w.state id) (w'.state id))
    (.refl _) fun w' h event _ => h.trans (w'.step_advances event id)

/-- A callback in flight was there before, or was just requested. -/
theorem step_inFlight (w : World Id S) (event : Event Id S) : ∀ r ∈ (w.step sorter event).inFlight,
      r ∈ w.inFlight ∨ ∀ p ∈ r.invoked, p.Sound (w.step sorter event).state := by
  intro r
  cases event with
  | updatePrices priceIds now =>
    simp only [step]
    split
    · exact .inl
    · next h =>
      intro hr
      rcases mem_append.mp hr with hr | hr
      · exact .inl hr
      · cases mem_singleton.mp hr
        exact .inr ((updatePrices_spec h).2 _ rfl)
    · exact .inl
  | callback index replies now =>
    simp only [step]
    split
    · exact .inl
    · split
      · exact fun hr => .inl (mem_of_mem_eraseIdx hr)
      · exact fun hr => .inl (mem_of_mem_eraseIdx hr)
  | callbackFailed index => exact fun hr => .inl (mem_of_mem_eraseIdx hr)
  | admin id call now =>
    simp only [step]
    split
    · exact .inl
    · exact .inl

/-- Every update in flight is sound. -/
def Sound (w : World Id S) : Prop := ∀ r ∈ w.inFlight, ∀ p ∈ r.invoked, p.Sound w.state

theorem Sound.step (h : w.Sound) (event : Event Id S) : (w.step sorter event).Sound := by
  intro r hr p hp
  rcases w.step_inFlight event r hr with hr | hnew
  · exact (h r hr p hp).advance (w.step_advances event p.priceId)
  · exact hnew p hp

/-- In every run the updates in flight fit the entries they were asked for. -/
theorem sound_run (events : List (Event Id S)) : ((new : World Id S).run sorter events).Sound := by
  refine foldlRecOn events (World.step sorter) (motive := Sound) ?_ fun _ h event _ => h.step event
  intro r hr
  cases hr

/-- Somewhere in the run a callback resolved an update of the id, made with the given
proxy, to the given price. -/
def ResolvedIn (sorter : VoteSort) (events : List (Event Id S)) (id : Id) (proxy : Proxy S)
    (price : Price) : Prop :=
  ∃ before index replies now after receipt p set',
    events = before ++ .callback index replies now :: after ∧
      ((new : World Id S).run sorter before).inFlight[index]? = some receipt ∧
      p ∈ receipt.invoked ∧ p.priceId = id ∧ p.proxy = proxy ∧
      Resolves sorter replies now p price set'

/-- An accepted price in the cache was resolved with the proxy that is stored, and
the stored breakers do not block. -/
theorem accepted_of_run (events : List (Event Id S))
    (h : (((new : World Id S).run sorter events).state id).IsAccepted price) :
    ∃ proxy set, (((new : World Id S).run sorter events).state id).proxy = some proxy ∧
      (((new : World Id S).run sorter events).state id).circuitBreakers = some set ∧
      set.isBlocking = false ∧ ResolvedIn sorter events id proxy price := by
  induction events using reverseRecOn with
  | nil =>
    obtain ⟨_, rfl, rfl⟩ := h
  | append_singleton events event ih =>
    have hrun : (new : World Id S).run sorter (events ++ [event]) =
        ((new : World Id S).run sorter events).step sorter event := by
      simp [run]
    rw [hrun] at h ⊢
    have hsound := @sound_run _ _ _ sorter _ events
    generalize hw : (new : World Id S).run sorter events = w at h ih hsound ⊢
    -- Unless the last step wrote the entry, the price was there before it.
    have hold (heq : (w.step sorter event).state id = w.state id) :
        ∃ proxy set, ((w.step sorter event).state id).proxy = some proxy ∧
          ((w.step sorter event).state id).circuitBreakers = some set ∧ set.isBlocking = false ∧
          ResolvedIn sorter (events ++ [event]) id proxy price := by
      rw [heq] at h ⊢
      obtain ⟨proxy, set, hproxy, hset, hblock, before, index, replies, now, after, receipt, p, set',
        rfl, hres⟩ := ih h
      exact ⟨proxy, set, hproxy, hset, hblock, before, index, replies, now, after ++ [event], receipt,
        p, set', by simp, hres⟩
    rcases w.step_state sorter event with hreq | ⟨index, replies, now, receipt, rfl, hr, hcons⟩
    · exact hold ((hreq id).2 price h)
    · rcases (hcons id).written with heq | ⟨p, hp, hid, hepoch, hacc⟩
      · exact hold heq
      · obtain ⟨set', hres, hset⟩ := hacc price h
        have hmem := mem_of_getElem? hr
        have hproxy := (hsound receipt hmem p hp).2 (by rw [hid]; exact hepoch)
        rw [hid] at hproxy
        have ⟨_, _, hresolve⟩ := hres
        obtain ⟨_, -, haccept⟩ := Proxy.resolve_eq_ok hresolve
        refine ⟨p.proxy, set', (hcons id).proxy.trans hproxy, hset,
          CircuitBreakerSet.isBlocking_of_accepted haccept rfl, events, index, replies, now, [], receipt,
          p, set', rfl, ?_, hp, hid, rfl, hres⟩
        rw [hw]
        exact hr

omit [DecidableEq Id] [DecidableEq S] in
/-- The publish times that reach the cache are whole seconds, or cut off at the end
of time. -/
theorem publishTime_of_resolves (h : Resolves sorter replies now p price set') :
    1000000000 ∣ price.publishTimeNs ∨ price.publishTimeNs = 2 ^ 64 - 1 := by
  obtain ⟨set, events, h⟩ := h
  obtain ⟨price', hagg, hset⟩ := Proxy.resolve_eq_ok h
  obtain ⟨rfl, -⟩ := CircuitBreakerSet.accepted_of_tryAcceptPrice hset rfl
  obtain ⟨q, hq, htime⟩ := Proxy.publishTimeNs_of_aggregate hagg
  obtain ⟨reply, -, hreply⟩ := mem_map.mp hq
  obtain ⟨pyth, -, hpyth⟩ := Option.bind_eq_some_iff.mp hreply
  obtain ⟨ns, hns, rfl⟩ := Option.map_eq_some_iff.mp hpyth
  rw [htime]
  simp only [tryIntoTime, bind, Option.bind_eq_some_iff, checkedMulI64] at hns
  obtain ⟨ms, hms, hns⟩ := hns
  split at hms
  · split at hns
    · cases hms
      cases hns
      show 1000000000 ∣ min ((pyth.publishTime * 1000).toNat * 1000000) (2 ^ 64 - 1) ∨ _
      rcases Nat.le_total ((pyth.publishTime * 1000).toNat * 1000000) (2 ^ 64 - 1) with hle | hle
      · rw [Nat.min_eq_left hle]
        exact .inl ⟨pyth.publishTime.toNat, by omega⟩
      · exact .inr (Nat.min_eq_right hle)
    · cases hns
  · cases hms

/-- An update in flight writes nothing for an id whose proxy or breakers were changed
after it was requested; and whatever the oracle answers was resolved with the proxy it
stores now, past breakers that do not block, and is no older than asked for. -/
theorem no_old_configuration (sorter : VoteSort) (events : List (Event Id S)) :
    (∀ (receipt : Receipt Id S) (id : Id) (call : AdminCall S) (changedAt : Nat)
        (later : List (Event Id S)) (index : Nat) (replies : Replies Id S) (now : Nat),
      let w := (new : World Id S).run sorter events
      let changed := w.step sorter (.admin id call changedAt)
      let current := changed.run sorter later
      receipt ∈ w.inFlight →
      ((changed.state id).proxy ≠ (w.state id).proxy ∨
        (changed.state id).circuitBreakers ≠ (w.state id).circuitBreakers) →
      current.inFlight[index]? = some receipt →
      (current.step sorter (.callback index replies now)).state id = current.state id) ∧
    (∀ (ids : List Id) (age now : Nat) (id : Id) (answer : PythPrice),
      let s := ((new : World Id S).run sorter events).state
      (id, some answer) ∈ listEmaPricesNoOlderThan s ids age now →
      ∃ proxy set price, (s id).proxy = some proxy ∧ (s id).circuitBreakers = some set ∧
        set.isBlocking = false ∧ ResolvedIn sorter events id proxy price ∧
        price.publishTimeNs ≤ now ∧ now ≤ price.publishTimeNs + age * 1000000000 ∧
        pythPriceTryFromKernel price = some answer ∧
        (now < 2 ^ 64 - 1 → answer.publishTime * 1000000000 = price.publishTimeNs)) := by
  refine ⟨?_, ?_⟩
  · intro receipt id call changedAt later index replies now w changed current hr hchanged hindex
    have hlt : (w.state id).cacheEpoch < (changed.state id).cacheEpoch := by
      simp only [changed, step] at hchanged ⊢
      split at hchanged
      · next e h =>
        simp only [update_self] at hchanged
        simp only [update_self]
        exact (revised_admin h).lt_of_changed hchanged
      · rcases hchanged with hne | hne
        · exact absurd rfl hne
        · exact absurd rfl hne
    have hadv := (changed.run_advances sorter later id).1
    have hstale : ∀ p ∈ receipt.invoked, p.priceId = id → p.epoch < (current.state id).cacheEpoch := by
      rintro p hp rfl
      exact lt_of_le_of_lt (sound_run events receipt hr p hp).1 (lt_of_lt_of_le hlt hadv)
    simp only [step, hindex]
    split
    · next h =>
      rcases (foldlM_finish_spec h id).written with heq | ⟨p, hp, hid, hepoch, -⟩
      · exact heq
      · exact absurd hepoch (hstale p hp hid).ne
    · rfl
  · intro ids age now id answer s hmem
    simp only [listEmaPricesNoOlderThan, mem_map, mem_filter, Prod.mk.injEq] at hmem
    obtain ⟨_, -, rfl, hcached⟩ := hmem
    obtain ⟨cached, hcached, hprice⟩ := Option.bind_eq_some_iff.mp hcached
    obtain ⟨price, hprice, hanswer⟩ := Option.bind_eq_some_iff.mp hprice
    obtain ⟨haccepted, hpast, hage⟩ := acceptedPriceNoOlderThan_eq_some hprice
    obtain ⟨proxy, set, hproxy, hset, hblock, hres⟩ :=
      accepted_of_run events ⟨cached.updatedAtNs, haccepted ▸ hcached⟩
    refine ⟨proxy, set, price, hproxy, hset, hblock, hres, hpast, by omega, hanswer, ?_⟩
    intro hnow
    obtain ⟨_, _, _, _, _, _, _, _, -, -, -, -, -, hresolves⟩ := hres
    rcases publishTime_of_resolves hresolves with hdvd | hend
    · exact publishTime_pythPriceTryFromKernel hanswer hdvd
    · omega

-- A price that is updated and read back; a change of the proxy in between leaves no answer.
example :
    let proxy (source : Nat) : Proxy Nat := ⟨.priority ⟨[source]⟩, ⟨none, none⟩⟩
    let update : List (Event Nat Nat) :=
      [.admin 7 (.setProxy (some (proxy 1))) 0, .updatePrices [7] 1]
    let reply : Event Nat Nat := .callback 0 (fun _ => [some ⟨100, 0, 0, 3⟩]) 6000000000
    let answer (events : List (Event Nat Nat)) :=
      listEmaPricesNoOlderThan ((new : World Nat Nat).run .stable events).state [7] 10 8000000000
    answer (update ++ [reply]) = [(7, some ⟨100, 0, 0, 3⟩)] ∧
      answer (update ++ [.admin 7 (.setProxy (some (proxy 2))) 2, reply]) = [(7, none)] := by
  decide +kernel

end World

end Runs

end Templar.Oracle.Near
