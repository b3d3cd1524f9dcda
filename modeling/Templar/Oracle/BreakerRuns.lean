import Templar.Oracle.BreakerSet

/-!
# Runs of a circuit-breaker set

One lemma for each operation says which set it leaves. From these the runs are
followed: a price is accepted only past every enforced breaker, a tripped breaker
keeps blocking until somebody releases it, ids grow and the stored configuration
stays valid.
-/

namespace Templar

/-- A buffer that keeps its capacity keeps its samples. -/
theorem RingBuffer.setCapacity_self {α : Type} (b : RingBuffer α) :
    b.setCapacity b.capacity = b := by
  refine RingBuffer.ext rfl ?_
  show b.entries.drop (b.entries.length - b.capacity) = b.entries
  rw [Nat.sub_eq_zero_of_le b.fits, List.drop_zero]

end Templar

namespace Templar.Oracle

open Checked Std

namespace CircuitBreakerSet

variable {R : Type} {s s' : CircuitBreakerSet R} {id : Nat} {b : CircuitBreakerState R}

@[ext] theorem ext (h : s.toUncheckedCircuitBreakerSet = s'.toUncheckedCircuitBreakerSet) :
    s = s' := by
  cases s
  cases s'
  cases h
  rfl

theorem forall_breakers {P : CircuitBreakerState R → Prop} : (∀ entry ∈ s.breakers.toList, P entry.2) ↔
      ∀ (id : Nat) (b : CircuitBreakerState R), s.breakers[id]? = some b → P b := by
  constructor
  · intro h id b hb
    exact h (id, b) (ExtTreeMap.mem_toList_iff_getElem?_eq_some.mpr hb)
  · rintro h ⟨id, b⟩ hmem
    exact h id b (ExtTreeMap.mem_toList_iff_getElem?_eq_some.mp hmem)

theorem blockingBreakerIds_eq_nil : s.blockingBreakerIds = [] ↔
      ∀ (id : Nat) (b : CircuitBreakerState R), s.breakers[id]? = some b → b.isBlocking = false := by
  rw [← forall_breakers, blockingBreakerIds, List.filterMap_eq_nil_iff]
  simp

/-- Prices pass if nobody has tripped the set and no breaker blocks. -/
theorem isBlocking_eq_false :
    s.isBlocking = false ↔ s.isManuallyTripped = false ∧ s.blockingBreakerIds = [] := by
  rw [isBlocking, Bool.or_eq_false_iff, blockingBreakerIds_eq_nil, ← forall_breakers,
    List.any_eq_false]
  simp

/-- One enforced breaker of the set has tripped. -/
def Blocked (s : CircuitBreakerSet R) (id : Nat) : Prop :=
  ∃ b : CircuitBreakerState R, s.breakers[id]? = some b ∧ b.isBlocking = true

theorem Blocked.isBlocking (h : s.Blocked id) : s.isBlocking = true := by
  obtain ⟨b, hb, hblock⟩ := h
  by_contra hs
  have := blockingBreakerIds_eq_nil.mp (isBlocking_eq_false.mp (by simpa using hs)).2 id b hb
  simp [this] at hblock

theorem getElem?_modify (s : CircuitBreakerSet R) (id : Nat)
    (f : CircuitBreakerState R → CircuitBreakerState R) (id' : Nat) :
    (s.modify id f).breakers[id']? = if id = id' then s.breakers[id]?.map f else s.breakers[id']? := by
  show (s.breakers.modify id f)[id']? = _
  rw [ExtTreeMap.getElem?_modify]
  simp only [Nat.compare_eq_eq]

/-- Nothing happens to a breaker that is already as asked for. -/
theorem modify_eq_self {f : CircuitBreakerState R → CircuitBreakerState R}
    (h : s.breakers[id]? = some b) (hf : f b = b) : s.modify id f = s := by
  apply ext
  have hmap : (s.modify id f).breakers = s.breakers := by
    apply ExtTreeMap.ext_getElem?
    intro id'
    rw [getElem?_modify]
    split
    · next heq => rw [← heq, h, Option.map_some, hf]
    · rfl
  simp only [modify] at hmap ⊢
  rw [hmap]

variable {outcome : CircuitBreakerOutcome R Unit}

theorem setEnforced_eq_ok {isEnforced : Bool} (h : s.setEnforced id isEnforced = .ok (outcome, s')) :
    s' = s.modify id fun b => { b with isEnforced := isEnforced } := by
  unfold setEnforced at h
  obtain ⟨b, hb, h⟩ := bind_eq_ok.mp h
  have hb := okOr_eq_ok.mp hb
  split at h
  · next heq =>
    cases h
    exact (modify_eq_self hb (by rw [← heq])).symm
  · cases h
    rfl

theorem rearm_eq_ok {armedAfterNs : Nat} (h : s.rearm id armedAfterNs = .ok (outcome, s')) :
    s' = s.modify id fun b => { b with status := .armedAfter armedAfterNs } := by
  unfold rearm at h
  obtain ⟨b, hb, h⟩ := bind_eq_ok.mp h
  have hb := okOr_eq_ok.mp hb
  dsimp only at h
  split at h
  · next heq =>
    cases h
    exact (modify_eq_self hb (by rw [← heq])).symm
  · cases h
    rfl

/-- A new breaker replaces none. -/
theorem getElem?_insert_nextId {state : CircuitBreakerState R} (h : s.breakers[id]? = some b) :
    (s.breakers.insert s.nextId state)[id]? = some b := by
  have hlt : id < s.nextId := s.ids_lt id (by
    rw [ExtTreeMap.mem_iff_isSome_getElem?, h]
    rfl)
  rw [ExtTreeMap.getElem?_insert, if_neg, h]
  rw [Nat.compare_eq_eq]
  omega

theorem getElem?_removed {id' : Nat} (h : id ≠ id') :
    (s.removed id).breakers[id']? = s.breakers[id']? := by
  show (s.breakers.erase id)[id']? = _
  rw [ExtTreeMap.getElem?_erase, if_neg]
  rw [Nat.compare_eq_eq]
  exact h

section Sampled

variable (s) (price : Price) (now : Nat)

@[simp] theorem breakers_sampled : (s.sampled price now).breakers = s.breakers := by
  unfold sampled
  split
  · rfl
  · rfl

@[simp] theorem acceptedHistory_sampled :
    (s.sampled price now).acceptedHistory = s.acceptedHistory := by
  unfold sampled
  split
  · rfl
  · rfl

@[simp] theorem isManuallyTripped_sampled :
    (s.sampled price now).isManuallyTripped = s.isManuallyTripped := by
  unfold sampled
  split
  · rfl
  · rfl

@[simp] theorem nextId_sampled : (s.sampled price now).nextId = s.nextId := by
  unfold sampled
  split
  · rfl
  · rfl

@[simp] theorem config_sampled : (s.sampled price now).config = s.config := by
  unfold sampled
  split
  · rfl
  · rfl

@[simp] theorem isBlocking_sampled : (s.sampled price now).isBlocking = s.isBlocking := by
  simp [isBlocking]

end Sampled

section Rules

variable [CircuitBreakerRule R]

theorem setConfig_eq_ok {config : CircuitBreakerSetConfig}
    (h : s.setConfig config = .ok (outcome, s')) :
    s.allValidFor config = true ∧ s' = s.configured config := by
  unfold setConfig at h
  simp only [do_ok] at h
  obtain ⟨hvalid, h⟩ := h
  refine ⟨hvalid, ?_⟩
  split at h
  · next heq =>
    cases h
    apply ext
    have ho : s.config.historyLen = s.observedHistory.capacity := s.capacity_eq
    have hs : s.config.historyLen = s.acceptedHistory.capacity := rfl
    rw [heq, configured]
    simp only [RingBuffer.setCapacity_self, hs]
    rw [← hs, ho, RingBuffer.setCapacity_self]
    rfl
  · cases h
    rfl

/-- The candidate with the history it is judged on. -/
abbrev proposal (s : CircuitBreakerSet R) (price : Price) (now : Nat) : ProposedPriceAcceptance :=
  .new s.acceptedHistory ⟨price, now⟩

/-- The set after every breaker looked at a candidate that nothing blocked. -/
def judged (s : CircuitBreakerSet R) (price : Price) (now : Nat) : CircuitBreakerSet R :=
  (s.sampled price now).transitioned (s.proposal price now) now

/-- Each breaker judges the price by itself. -/
theorem getElem?_judged (s : CircuitBreakerSet R) (price : Price) (now id : Nat) :
    (s.judged price now).breakers[id]? =
      s.breakers[id]?.map fun b => (b.applyArmedTransition id (s.proposal price now) now).2 := by
  rw [← breakers_sampled s price now]
  exact ExtTreeMap.getElem?_map

variable {answer : CircuitBreakerOutcome R PriceAcceptance} {price : Price} {now : Nat}

/-- A candidate is turned away by a set that blocks; otherwise every breaker looks
at it, and it is accepted if none of them blocks afterwards. -/
theorem tryAcceptPrice_eq_ok (h : s.tryAcceptPrice price now = .ok (answer, s')) :
    (s.isBlocking = true ∧ s' = s.sampled price now ∧ ∃ reason, answer.value = .error reason) ∨
    (s.isBlocking = false ∧ (s.judged price now).isBlocking = true ∧ s' = s.judged price now ∧
      ∃ reason, answer.value = .error reason) ∨
    (s.isBlocking = false ∧ (s.judged price now).isBlocking = false ∧ answer.value = .ok price ∧
      s' = if s.shouldPersistSample now && advances s.acceptedHistory price then
        (s.judged price now).accepted (s.proposal price now) (by simp [judged, transitioned,
          ProposedPriceAcceptance.new])
      else s.judged price now) := by
  unfold tryAcceptPrice at h
  simp only [do_ok] at h
  obtain ⟨-, h⟩ := h
  split at h
  · next hm =>
    cases h
    rw [isManuallyTripped_sampled] at hm
    exact .inl ⟨by simp [isBlocking, hm], rfl, _, rfl⟩
  next hm =>
  rw [isManuallyTripped_sampled, Bool.not_eq_true] at hm
  split at h
  · next hids =>
    cases h
    refine .inl ⟨?_, rfl, _, rfl⟩
    rw [← isBlocking_sampled s price now]
    by_contra hb
    exact hids (isBlocking_eq_false.mp (by simpa using hb)).2
  next hids =>
  have hquiet : s.isBlocking = false := by
    rw [← isBlocking_sampled s price now, isBlocking_eq_false]
    exact ⟨by simpa using hm, by simpa using hids⟩
  have hprop : ProposedPriceAcceptance.new (s.sampled price now).acceptedHistory ⟨price, now⟩ =
      s.proposal price now := by
    rw [acceptedHistory_sampled]
  have hmanual : (s.judged price now).isManuallyTripped = false := by
    rw [← hm, ← isManuallyTripped_sampled s price now]
    rfl
  by_cases hnil : (s.judged price now).blockingBreakerIds = []
  · have hval : ((s.sampled price now).applyArmedBreakerTransitions (s.proposal price now) now).1.value =
      .ok price := if_pos hnil
    refine .inr (.inr ⟨hquiet, isBlocking_eq_false.mpr ⟨hmanual, hnil⟩, ?_⟩)
    simp only [hprop, hval, Except.isOk, Except.toBool, Bool.true_and] at h
    split at h
    · next hc =>
      cases h
      exact ⟨hval, by rw [if_pos hc]; rfl⟩
    · next hc =>
      cases h
      exact ⟨hval, by rw [if_neg hc]; rfl⟩
  · have hblock : (s.judged price now).isBlocking = true := by
      by_contra hb
      have hb : (s.judged price now).isBlocking = false := by simpa using hb
      exact hnil (isBlocking_eq_false.mp hb).2
    have hval : ((s.sampled price now).applyArmedBreakerTransitions (s.proposal price now) now).1.value =
      .error _ := if_neg hnil
    simp only [hprop, hval, Except.isOk, Except.toBool, Bool.false_and] at h
    cases h
    exact .inr (.inl ⟨hquiet, hblock, rfl, _, hval⟩)

end Rules

end CircuitBreakerSet

/-- The calls on a set. -/
inductive BreakerOperation where
  | add (breakerId : Nat) (breaker : CircuitBreaker)
  | remove (breakerId : Nat)
  | setEnforced (breakerId : Nat) (isEnforced : Bool)
  | rearm (breakerId armedAfterNs : Nat)
  | setConfig (config : CircuitBreakerSetConfig)
  | setManualTrip (isManuallyTripped : Bool) (actor : AccountId) (metadata : Option (List UInt8))
  | tryAcceptPrice (price : Price) (now : Nat)

/-- The operations that release the breaker of the given id. -/
def BreakerOperation.Releases (id : Nat) : BreakerOperation → Prop
  | .remove breakerId => breakerId = id
  | .rearm breakerId _ => breakerId = id
  | .setEnforced breakerId isEnforced => breakerId = id ∧ isEnforced = false
  | _ => False

/-- The operations that rewrite the status of the breaker of the given id. -/
def BreakerOperation.Resets (id : Nat) : BreakerOperation → Prop
  | .remove breakerId => breakerId = id
  | .rearm breakerId _ => breakerId = id
  | _ => False

def BreakerOperation.Reconfigures : BreakerOperation → Prop
  | .setConfig _ => True
  | _ => False

namespace CircuitBreakerSet

variable {s s' : CircuitBreakerSet CircuitBreaker} {id now : Nat} {op : BreakerOperation}
  {ops : List BreakerOperation} {answer : CircuitBreakerOutcome CircuitBreaker PriceAcceptance}
  {price p : Price} {config : CircuitBreakerSetConfig}

section

variable (s : CircuitBreakerSet CircuitBreaker)

/-- The set that a successful operation leaves. -/
def apply : BreakerOperation → Except CircuitBreakerError (CircuitBreakerSet CircuitBreaker)
  | .add breakerId breaker => (s.add breakerId breaker).map Prod.snd
  | .remove breakerId => (s.remove breakerId).map Prod.snd
  | .setEnforced breakerId isEnforced => (s.setEnforced breakerId isEnforced).map Prod.snd
  | .rearm breakerId armedAfterNs => (s.rearm breakerId armedAfterNs).map Prod.snd
  | .setConfig config => (s.setConfig config).map Prod.snd
  | .setManualTrip isManuallyTripped actor metadata =>
    .ok (s.setManualTrip isManuallyTripped actor metadata).2
  | .tryAcceptPrice price now => (s.tryAcceptPrice price now).map Prod.snd

/-- A refused operation leaves the set as it was. -/
def next (op : BreakerOperation) : CircuitBreakerSet CircuitBreaker :=
  match s.apply op with
  | .ok s' => s'
  | .error _ => s

def run (ops : List BreakerOperation) : CircuitBreakerSet CircuitBreaker := ops.foldl next s

end

theorem map_snd_eq_ok {α β ε : Type} {x : Except ε (α × β)} {b : β} :
    x.map Prod.snd = .ok b ↔ ∃ a, x = .ok (a, b) := by
  cases x with
  | error e => simp [Except.map]
  | ok p => simp [Except.map, Prod.ext_iff]

/-- What a successful operation does. -/
inductive Applied (s : CircuitBreakerSet CircuitBreaker) :
    BreakerOperation → CircuitBreakerSet CircuitBreaker → Prop where
  | add {breaker : CircuitBreaker} {s' : CircuitBreakerSet CircuitBreaker}
      (valid : breaker.isValidFor s.config.sampleIntervalNs s.config.historyLen = true)
      (nextId : s'.nextId = s.nextId + 1)
      (breakers : s'.breakers = s.breakers.insert s.nextId (.new breaker))
      (history : s'.acceptedHistory = s.acceptedHistory) (config : s'.config = s.config) :
      Applied s (.add s.nextId breaker) s'
  | remove (id : Nat) : Applied s (.remove id) (s.removed id)
  | setEnforced (id : Nat) (isEnforced : Bool) : Applied s (.setEnforced id isEnforced)
      (s.modify id fun b => { b with isEnforced := isEnforced })
  | rearm (id armedAfterNs : Nat) : Applied s (.rearm id armedAfterNs)
      (s.modify id fun b => { b with status := .armedAfter armedAfterNs })
  | setConfig {config : CircuitBreakerSetConfig} (hvalid : s.allValidFor config = true) :
      Applied s (.setConfig config) (s.configured config)
  | setManualTrip (tripped : Bool) (actor : AccountId) (metadata : Option (List UInt8)) :
      Applied s (.setManualTrip tripped actor metadata) { s with isManuallyTripped := tripped }
  | tryAcceptPrice {price : Price} {now : Nat} {s' answer}
      (h : s.tryAcceptPrice price now = .ok (answer, s')) : Applied s (.tryAcceptPrice price now) s'

/-- Every call that succeeds does what `Applied` says. -/
theorem applied_of_apply (hs : s.apply op = .ok s') : s.Applied op s' := by
  cases op with
  | add breakerId breaker =>
    obtain ⟨_, hs⟩ := map_snd_eq_ok.mp hs
    simp only [add, addState, do_ok] at hs
    obtain ⟨hvalid, _, ⟨rfl, -, rfl⟩, rfl, rfl⟩ := hs
    exact .add hvalid rfl rfl rfl rfl
  | remove breakerId =>
    obtain ⟨_, hs⟩ := map_snd_eq_ok.mp hs
    simp only [remove, do_ok] at hs
    obtain ⟨-, rfl, rfl⟩ := hs
    exact .remove breakerId
  | setEnforced breakerId isEnforced =>
    obtain ⟨_, hs⟩ := map_snd_eq_ok.mp hs
    cases setEnforced_eq_ok hs
    exact .setEnforced breakerId isEnforced
  | rearm breakerId armedAfterNs =>
    obtain ⟨_, hs⟩ := map_snd_eq_ok.mp hs
    cases rearm_eq_ok hs
    exact .rearm breakerId armedAfterNs
  | setConfig config =>
    obtain ⟨_, hs⟩ := map_snd_eq_ok.mp hs
    obtain ⟨hvalid, rfl⟩ := setConfig_eq_ok hs
    exact .setConfig hvalid
  | setManualTrip tripped actor metadata =>
    cases hs
    unfold CircuitBreakerSet.setManualTrip
    split
    · next h =>
      cases h
      exact .setManualTrip _ actor metadata
    · exact .setManualTrip tripped actor metadata
  | tryAcceptPrice price now =>
    obtain ⟨_, hs⟩ := map_snd_eq_ok.mp hs
    exact .tryAcceptPrice hs

/-- What holds of a set and is kept by every successful operation holds after
every run. -/
theorem run_induction {P : CircuitBreakerSet CircuitBreaker → Prop} (h : P s)
    (step : ∀ s op s', op ∈ ops → s.apply op = .ok s' → P s → P s') : P (s.run ops) := by
  induction ops generalizing s with
  | nil => exact h
  | cons op ops ih =>
    refine ih ?_ fun s op' s' hop => step s op' s' (List.mem_cons_of_mem _ hop)
    show P (s.next op)
    unfold next
    split
    · next hs => exact step s op _ List.mem_cons_self hs h
    · exact h

/-- While the set blocks, a breaker that is not rearmed or removed keeps its status, and it is enforced
as it was or as it is told. -/
theorem kept_of_blocking {b : CircuitBreakerState CircuitBreaker} (h : s.isBlocking = true)
    (hs : s.apply op = .ok s') (hb : s.breakers[id]? = some b) (hop : ¬ op.Resets id) :
    ∃ b' : CircuitBreakerState CircuitBreaker, s'.breakers[id]? = some b' ∧ b'.status = b.status ∧
      (b'.isEnforced = b.isEnforced ∨ op = .setEnforced id b'.isEnforced) := by
  cases applied_of_apply hs with
  | add _ _ hbr => exact ⟨b, by rw [hbr, getElem?_insert_nextId hb], rfl, .inl rfl⟩
  | remove breakerId => exact ⟨b, by rw [getElem?_removed hop, hb], rfl, .inl rfl⟩
  | setEnforced breakerId isEnforced =>
    by_cases heq : breakerId = id
    · cases heq
      exact ⟨{ b with isEnforced := isEnforced }, by rw [getElem?_modify, if_pos rfl, hb]; rfl, rfl,
        .inr rfl⟩
    · exact ⟨b, by rw [getElem?_modify, if_neg heq, hb], rfl, .inl rfl⟩
  | rearm breakerId armedAfterNs =>
    have hne : breakerId ≠ id := hop
    exact ⟨b, by rw [getElem?_modify, if_neg hne, hb], rfl, .inl rfl⟩
  | setConfig | setManualTrip => exact ⟨b, hb, rfl, .inl rfl⟩
  | tryAcceptPrice hs =>
    obtain ⟨-, rfl, -⟩ | ⟨hq, -⟩ | ⟨hq, -⟩ := tryAcceptPrice_eq_ok hs
    · exact ⟨b, by rw [breakers_sampled, hb], rfl, .inl rfl⟩
    · simp [h] at hq
    · simp [h] at hq

theorem releases_of_resets (h : op.Resets id) : op.Releases id := by
  cases op <;> first | exact h | exact h.elim

/-- A tripped and enforced breaker stays so until it is released. -/
theorem Blocked.apply (h : s.Blocked id) (hs : s.apply op = .ok s') (hop : ¬ op.Releases id) :
    s'.Blocked id := by
  obtain ⟨b, hb, hblock⟩ := h
  obtain ⟨b', hb', hstatus, henforced⟩ :=
    kept_of_blocking (Blocked.isBlocking ⟨b, hb, hblock⟩) hs hb (hop <| releases_of_resets ·)
  refine ⟨b', hb', ?_⟩
  simp only [CircuitBreakerState.isBlocking, Bool.and_eq_true, hstatus] at hblock ⊢
  refine ⟨?_, hblock.2⟩
  rcases henforced with henforced | rfl
  · rw [henforced, hblock.1]
  · by_contra hfree
    exact hop ⟨rfl, Bool.eq_false_of_not_eq_true hfree⟩

/-- A breaker that has tripped blocks until it is released. -/
theorem Blocked.run (h : s.Blocked id) (hops : ∀ op ∈ ops, ¬ op.Releases id) :
    (s.run ops).Blocked id :=
  run_induction h fun _ op _ hop hs hb => Blocked.apply hb hs (hops op hop)

/-- While the set blocks only a smaller capacity shortens the accepted history. -/
theorem acceptedHistory_of_blocking (h : s.isBlocking = true) (hs : s.apply op = .ok s') :
    s'.acceptedHistory.entries <:+ s.acceptedHistory.entries ∧
      (¬ op.Reconfigures → s'.acceptedHistory = s.acceptedHistory) := by
  have same (heq : s'.acceptedHistory = s.acceptedHistory) :
      s'.acceptedHistory.entries <:+ s.acceptedHistory.entries ∧
        (¬ op.Reconfigures → s'.acceptedHistory = s.acceptedHistory) :=
    ⟨heq ▸ List.suffix_refl _, fun _ => heq⟩
  cases applied_of_apply hs with
  | add _ _ _ hacc => exact same hacc
  | remove | setEnforced | rearm | setManualTrip => exact same rfl
  | setConfig => exact ⟨RingBuffer.setCapacity_suffix _ _, fun hn => absurd trivial hn⟩
  | tryAcceptPrice hs =>
    obtain ⟨-, rfl, -⟩ | ⟨hq, -⟩ | ⟨hq, -⟩ := tryAcceptPrice_eq_ok hs
    · exact same (acceptedHistory_sampled s _ _)
    · simp [h] at hq
    · simp [h] at hq

/-- An addition takes the next id; nothing else moves the counter. -/
theorem nextId_of_apply (hs : s.apply op = .ok s') :
    (∃ breaker, op = .add s.nextId breaker ∧ s'.nextId = s.nextId + 1) ∨
      ((∀ id breaker, op ≠ .add id breaker) ∧ s'.nextId = s.nextId) := by
  cases applied_of_apply hs with
  | add _ hnext => exact .inl ⟨_, rfl, hnext⟩
  | remove | setEnforced | rearm | setConfig | setManualTrip => exact .inr ⟨by simp, rfl⟩
  | tryAcceptPrice hs =>
    refine .inr ⟨by simp, ?_⟩
    obtain ⟨-, rfl, -⟩ | ⟨-, -, rfl, -⟩ | ⟨-, -, -, rfl⟩ := tryAcceptPrice_eq_ok hs
    · exact nextId_sampled s _ _
    · exact nextId_sampled s _ _
    · split
      · exact nextId_sampled s _ _
      · exact nextId_sampled s _ _

/-- The ids that the successful additions of a run used, in order. -/
def addedIds (s : CircuitBreakerSet CircuitBreaker) : List BreakerOperation → List Nat
  | [] => []
  | op :: ops =>
    match op, s.apply op with
    | .add breakerId _, .ok s' => breakerId :: s'.addedIds ops
    | _, .ok s' => s'.addedIds ops
    | _, .error _ => s.addedIds ops

/-- The ids of the additions of a run grow from the first free one. -/
theorem addedIds_increasing (s : CircuitBreakerSet CircuitBreaker) (ops : List BreakerOperation) :
    (∀ id ∈ s.addedIds ops, s.nextId ≤ id) ∧ (s.addedIds ops).Pairwise (· < ·) := by
  induction ops generalizing s with
  | nil => simp [addedIds]
  | cons op ops ih =>
    unfold addedIds
    split
    · next breakerId breaker s' hs =>
      obtain ⟨hge, hinc⟩ := ih s'
      obtain ⟨_, heq, hnext⟩ | ⟨hne, -⟩ := nextId_of_apply hs
      · cases heq
        refine ⟨?_, List.pairwise_cons.mpr ⟨?_, hinc⟩⟩
        · intro id hid
          rcases List.mem_cons.mp hid with rfl | hid
          · exact Nat.le_refl _
          · have := hge id hid
            omega
        · intro id hid
          have := hge id hid
          omega
      · exact absurd rfl (hne _ _)
    · next s' _ hs =>
      obtain ⟨hge, hinc⟩ := ih s'
      refine ⟨?_, hinc⟩
      intro id hid
      have := hge id hid
      obtain ⟨_, -, hnext⟩ | ⟨-, hnext⟩ := nextId_of_apply hs
      · omega
      · omega
    · exact ih s

theorem allValidFor_iff : s.allValidFor config = true ↔
      ∀ (id : Nat) (b : CircuitBreakerState CircuitBreaker), s.breakers[id]? = some b →
        b.breaker.isValidFor config.sampleIntervalNs config.historyLen = true := by
  rw [← forall_breakers, allValidFor, List.all_eq_true]
  rfl

theorem validate_eq_ok : s.validate = .ok () ↔ s.allValidFor s.config = true := by
  rw [validate, ensure_eq_ok]
  exact and_iff_right s.capacity_eq.symm

/-- Every breaker of the second set has its rule from the first. -/
def KeepsRules (s s' : CircuitBreakerSet CircuitBreaker) : Prop :=
  ∀ (id : Nat) (b' : CircuitBreakerState CircuitBreaker), s'.breakers[id]? = some b' →
    ∃ b : CircuitBreakerState CircuitBreaker, s.breakers[id]? = some b ∧ b'.breaker = b.breaker

theorem KeepsRules.allValidFor (h : s.KeepsRules s') (hs : s.allValidFor config = true) :
    s'.allValidFor config = true := by
  rw [allValidFor_iff] at hs ⊢
  intro id b' hb'
  obtain ⟨b, hb, heq⟩ := h id b' hb'
  rw [heq]
  exact hs id b hb

theorem keepsRules_modify {f : CircuitBreakerState CircuitBreaker → CircuitBreakerState CircuitBreaker}
    (hf : ∀ b, (f b).breaker = b.breaker) : s.KeepsRules (s.modify id f) := by
  intro id' b' h
  rw [getElem?_modify] at h
  split at h
  · next heq =>
    cases heq
    obtain ⟨b, hb, rfl⟩ := Option.map_eq_some_iff.mp h
    exact ⟨b, hb, hf b⟩
  · exact ⟨b', h, rfl⟩

theorem config_judged (price : Price) (now : Nat) : (s.judged price now).config = s.config := by
  rw [← config_sampled s price now]
  rfl

theorem config_accepted (proposed : ProposedPriceAcceptance)
    (h : proposed.acceptedHistory.capacity = s.acceptedHistory.capacity) :
    (s.accepted proposed h).config = s.config := by
  simp [config, accepted, h]

/-- A call that succeeds leaves rules that fit the configuration. -/
theorem allValidFor_apply (h : s.allValidFor s.config = true) (hs : s.apply op = .ok s') :
    s'.allValidFor s'.config = true := by
  cases applied_of_apply hs with
  | add hvalid _ hbr _ hconf =>
    rw [hconf]
    rw [allValidFor_iff] at h ⊢
    intro id b hb
    rw [hbr, ExtTreeMap.getElem?_insert] at hb
    split at hb
    · cases hb
      exact hvalid
    · exact h id b hb
  | remove breakerId =>
    refine KeepsRules.allValidFor (fun id b hb => ⟨b, ?_, rfl⟩) h
    have hb : (s.breakers.erase breakerId)[id]? = some b := hb
    rw [ExtTreeMap.getElem?_erase] at hb
    split at hb
    · cases hb
    · exact hb
  | setEnforced | rearm => exact KeepsRules.allValidFor (keepsRules_modify (by simp)) h
  | setConfig hvalid => exact hvalid
  | setManualTrip => exact h
  | @tryAcceptPrice price now _ _ hs =>
    have hjudged : (s.judged price now).allValidFor s.config = true := by
      refine KeepsRules.allValidFor (fun id b' hb => ?_) h
      rw [getElem?_judged] at hb
      obtain ⟨b, hbefore, rfl⟩ := Option.map_eq_some_iff.mp hb
      exact ⟨b, hbefore, b.breaker_applyArmedTransition _ _ _⟩
    obtain ⟨-, rfl, -⟩ | ⟨-, -, rfl, -⟩ | ⟨-, -, -, rfl⟩ := tryAcceptPrice_eq_ok hs
    · rw [config_sampled]
      exact KeepsRules.allValidFor (fun _ b hb => ⟨b, by rwa [breakers_sampled] at hb, rfl⟩) h
    · rw [config_judged]
      exact hjudged
    · split
      · rw [config_accepted, config_judged]
        exact hjudged
      · rw [config_judged]
        exact hjudged

/-- The rules of a set fit its configuration in every run. -/
theorem allValidFor_run (config : CircuitBreakerSetConfig) (ops : List BreakerOperation) :
    ((new config).run ops).allValidFor ((new config).run ops).config = true := by
  refine run_induction (P := fun s => s.allValidFor s.config = true) ?_
    fun s op s' _ hs h => allValidFor_apply h hs
  rfl

/-- What a set of breakers guarantees, whatever is done with it next. -/
structure Guards (s : CircuitBreakerSet CircuitBreaker) : Prop where
  /-- The stored configuration passes its own check. -/
  valid : s.validate = .ok ()
  /-- A price is accepted only if nothing blocks and no enforced breaker that is
  armed trips on it. -/
  accepted : ∀ price now answer s', s.tryAcceptPrice price now = .ok (answer, s') →
    ∀ p, answer.value = .ok p → p = price ∧ s.isManuallyTripped = false ∧
      ∀ (id : Nat) (b : CircuitBreakerState CircuitBreaker), s.breakers[id]? = some b →
        b.isEnforced = true → b.status.isTripped = false ∧
          (b.isArmedAt now = true →
            b.breaker.shouldTrip (s.acceptedHistory.push ⟨price, now⟩) = false)
  /-- Every breaker looks at a price that nothing blocks, and all that trip on it
  are tripped by the same call. -/
  together : ∀ price now answer s', s.tryAcceptPrice price now = .ok (answer, s') →
    s.isBlocking = false → ∀ (id : Nat) (b : CircuitBreakerState CircuitBreaker),
      s.breakers[id]? = some b → ∃ b' : CircuitBreakerState CircuitBreaker,
        s'.breakers[id]? = some b' ∧ b'.isEnforced = b.isEnforced ∧ b'.status =
          if b.isArmedAt now && b.breaker.shouldTrip (s.acceptedHistory.push ⟨price, now⟩) then
            .tripped now ⟨price, now⟩
          else b.status
  /-- A tripped and enforced breaker turns every later price away until it is
  rearmed, removed or no longer enforced. -/
  held : ∀ id, s.Blocked id → ∀ later : List BreakerOperation, (∀ op ∈ later, ¬ op.Releases id) →
    ∀ price now answer s', (s.run later).tryAcceptPrice price now = .ok (answer, s') →
      ∃ reason, answer.value = .error reason
  /-- While the set blocks, a price changes neither the accepted history nor any
  breaker. -/
  frozen : s.isBlocking = true → ∀ price now answer s',
    s.tryAcceptPrice price now = .ok (answer, s') →
      s'.acceptedHistory = s.acceptedHistory ∧ s'.breakers = s.breakers
  /-- While the set blocks, the other operations change what they name only. -/
  administered : s.isBlocking = true → ∀ op s', s.apply op = .ok s' →
    (s'.acceptedHistory.entries <:+ s.acceptedHistory.entries ∧
      (¬ op.Reconfigures → s'.acceptedHistory = s.acceptedHistory)) ∧
    ∀ (id : Nat) (b : CircuitBreakerState CircuitBreaker), s.breakers[id]? = some b →
      ¬ op.Resets id → ∃ b' : CircuitBreakerState CircuitBreaker,
        s'.breakers[id]? = some b' ∧ b'.status = b.status

section

variable (hs : s.tryAcceptPrice price now = .ok (answer, s'))
include hs

/-- The set blocks neither before nor after it judges a price that it accepts. -/
theorem accepted_of_tryAcceptPrice (hp : answer.value = .ok p) :
    p = price ∧ s.isBlocking = false ∧ (s.judged price now).isBlocking = false := by
  obtain ⟨-, -, _, he⟩ | ⟨-, -, -, _, he⟩ | ⟨hq, hj, he, -⟩ := tryAcceptPrice_eq_ok hs
  · rw [he] at hp
    cases hp
  · rw [he] at hp
    cases hp
  · rw [he] at hp
    cases hp
    exact ⟨rfl, hq, hj⟩

/-- A set that accepted a price does not block. -/
theorem isBlocking_of_accepted (hp : answer.value = .ok p) : s'.isBlocking = false := by
  obtain ⟨-, -, _, he⟩ | ⟨-, -, -, _, he⟩ | ⟨-, hj, -, rfl⟩ := tryAcceptPrice_eq_ok hs
  · rw [he] at hp
    cases hp
  · rw [he] at hp
    cases hp
  · split
    · exact hj
    · exact hj

/-- Accepted or not, the breakers keep what they found. -/
theorem breakers_of_tryAcceptPrice (hq : s.isBlocking = false) : s'.breakers = (s.judged price now).breakers := by
  obtain ⟨hb, -⟩ | ⟨-, -, rfl, -⟩ | ⟨-, -, -, rfl⟩ := tryAcceptPrice_eq_ok hs
  · simp [hq] at hb
  · rfl
  · split
    · rfl
    · rfl

end

theorem guards_of_valid (h : s.allValidFor s.config = true) : s.Guards where
  valid := validate_eq_ok.mpr h
  accepted := by
    intro price now answer s' hs p hp
    obtain ⟨rfl, hq, hj⟩ := accepted_of_tryAcceptPrice hs hp
    obtain ⟨hm, hids⟩ := isBlocking_eq_false.mp hq
    refine ⟨rfl, hm, fun id b hb he => ?_⟩
    have hbb := blockingBreakerIds_eq_nil.mp hids id b hb
    refine ⟨by simpa [CircuitBreakerState.isBlocking, he] using hbb, fun harmed => ?_⟩
    -- Had the rule tripped, the breaker would block after the call.
    have hafter := blockingBreakerIds_eq_nil.mp (isBlocking_eq_false.mp hj).2 id
      (b.applyArmedTransition id (s.proposal p now) now).2 (by rw [getElem?_judged, hb]; rfl)
    rw [CircuitBreakerState.isBlocking, CircuitBreakerState.isEnforced_applyArmedTransition, he,
      CircuitBreakerState.status_applyArmedTransition, Bool.true_and] at hafter
    cases htrip : b.breaker.shouldTrip (s.acceptedHistory.push ⟨p, now⟩) with
    | false => rfl
    | true =>
      have htrips : b.trips (s.proposal p now) now = true := by
        rw [CircuitBreakerState.trips, harmed, Bool.true_and]
        exact htrip
      rw [if_pos htrips] at hafter
      cases hafter
  together := by
    intro price now answer s' hs hq id b hb
    refine ⟨(b.applyArmedTransition id (s.proposal price now) now).2, ?_,
      b.isEnforced_applyArmedTransition _ _ _, b.status_applyArmedTransition _ _ _⟩
    rw [breakers_of_tryAcceptPrice hs hq, getElem?_judged, hb]
    rfl
  held := by
    intro id hid later hlater price now answer s' hs
    have hblock := (hid.run hlater).isBlocking
    obtain ⟨-, -, he⟩ | ⟨hq, -⟩ | ⟨hq, -⟩ := tryAcceptPrice_eq_ok hs
    · exact he
    · simp [hblock] at hq
    · simp [hblock] at hq
  frozen := by
    intro hblock price now answer s' hs
    obtain ⟨-, rfl, -⟩ | ⟨hq, -⟩ | ⟨hq, -⟩ := tryAcceptPrice_eq_ok hs
    · exact ⟨acceptedHistory_sampled s price now, breakers_sampled s price now⟩
    · simp [hblock] at hq
    · simp [hblock] at hq
  administered := by
    intro hblock op s' hs
    exact ⟨acceptedHistory_of_blocking hblock hs, fun id b hb hop =>
        let ⟨b', hb', hstatus, _⟩ := kept_of_blocking hblock hs hb hop
        ⟨b', hb', hstatus⟩⟩

/-- Every set that a run reaches guards its prices, and the run never gives out an
id twice. -/
theorem run_guards (config : CircuitBreakerSetConfig) (ops : List BreakerOperation) :
    ((new config).run ops).Guards ∧ ((new config).addedIds ops).Pairwise (· < ·) := by
  exact ⟨guards_of_valid (allValidFor_run config ops), (addedIds_increasing _ _).2⟩

/-- A smaller history length shortens the accepted history of a set that blocks. -/
theorem setConfig_shortens_blocking :
    let s := (new ⟨0, 2⟩).run [.tryAcceptPrice ⟨100, 0, 0, 1⟩ 1,
      .setManualTrip true (Vector.replicate 64 0) none]
    s.isBlocking = true ∧
      s.acceptedHistory.entries = [⟨⟨100, 0, 0, 1⟩, 1⟩] ∧
      (s.run [.setConfig ⟨0, 0⟩]).isBlocking = true ∧
      (s.run [.setConfig ⟨0, 0⟩]).acceptedHistory.entries = [] := by
  decide +kernel

end CircuitBreakerSet

end Templar.Oracle
