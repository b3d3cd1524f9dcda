import Templar.Vault.Number

/-!
# Governance decisions shared by the executors

A queue of values that wait for a time, and the rules that say which change of a setting has to
wait. A change waits if it gives somebody more room than before: a higher cap or none where there
was one, a higher fee, another recipient, a shorter delay, a wider restriction.
-/

namespace Templar.Curator

open Checked Vault List

structure PendingValue (T : Type) where
  value : T
  readyAtNs : Nat
  deriving DecidableEq, Repr

def PendingValue.isMature {T : Type} (p : PendingValue T) (nowNs : Nat) : Bool :=
  decide (p.readyAtNs ≤ nowNs)

inductive TakePending (T : Type) where
  | missing
  | pending (readyAtNs : Nat)
  | ready (value : T)
  deriving DecidableEq, Repr

/-- The queue of pending values, oldest first unless it has been restored in another order. -/
abbrev PendingActions (T : Type) := List (PendingValue T)

namespace PendingActions

variable {T K : Type} {nowNs : Nat} {key : K} {keyOf : T → K} {next : Option Nat}
  {q rest : PendingActions T} {value : T}

def schedule (q : PendingActions T) (value : T) (nowNs timelockNs : Nat) : Nat × PendingActions T :=
  let readyAtNs := saturatingAdd 64 nowNs timelockNs
  (readyAtNs, q ++ [⟨value, readyAtNs⟩])

variable [DecidableEq K]

def hasPendingKey (q : PendingActions T) (key : K) (keyOf : T → K) : Bool :=
  q.any fun entry => decide (keyOf entry.value = key)

/-- The first mature value under the key, taken out; else the earliest time at which one of
the values under the key matures. The second argument is the earliest such time so far. -/
def takeFrom (nowNs : Nat) (key : K) (keyOf : T → K) :
    Option Nat → PendingActions T → TakePending T × PendingActions T
  | none, [] => (.missing, [])
  | some readyAtNs, [] => (.pending readyAtNs, [])
  | nextReadyAt, entry :: rest =>
    if keyOf entry.value = key then
      if entry.isMature nowNs then (.ready entry.value, rest)
      else
        let next := match nextReadyAt with
          | some current => min current entry.readyAtNs
          | none => entry.readyAtNs
        let (taken, rest) := takeFrom nowNs key keyOf (some next) rest
        (taken, entry :: rest)
    else
      let (taken, rest) := takeFrom nowNs key keyOf nextReadyAt rest
      (taken, entry :: rest)

def takeByKey (q : PendingActions T) (nowNs : Nat) (key : K) (keyOf : T → K) :
    TakePending T × PendingActions T := takeFrom nowNs key keyOf none q

/-- The values under the key, and the queue without them. -/
def revokeByKey (q : PendingActions T) (key : K) (keyOf : T → K) : List T × PendingActions T :=
  ((q.filter fun entry => decide (keyOf entry.value = key)).map PendingValue.value,
    q.filter fun entry => !decide (keyOf entry.value = key))

structure ScheduledPending (T : Type) where
  readyAtNs : Nat
  replaced : List T

def scheduleReplacing (q : PendingActions T) (key : K) (keyOf : T → K) (value : T)
    (nowNs timelockNs : Nat) : ScheduledPending T × PendingActions T :=
  let (replaced, q) := revokeByKey q key keyOf
  let (readyAtNs, q) := schedule q value nowNs timelockNs
  (⟨readyAtNs, replaced⟩, q)

/-- What is taken was in the queue under the key and mature; the rest stays in its order. -/
theorem takeFrom_eq_ready (h : takeFrom nowNs key keyOf next q = (.ready value, rest)) :
    ∃ before entry after, q = before ++ entry :: after ∧ rest = before ++ after ∧
      entry.value = value ∧ keyOf value = key ∧ entry.readyAtNs ≤ nowNs := by
  induction q generalizing next rest with
  | nil => cases next <;> simp [takeFrom] at h
  | cons entry q ih =>
    -- an entry that is passed over joins the ones before the one taken
    have hpass : ∀ next', (let (taken, rest) := takeFrom nowNs key keyOf next' q
        (taken, entry :: rest)) = (.ready value, rest) →
        ∃ before e after, entry :: q = before ++ e :: after ∧ rest = before ++ after ∧
          e.value = value ∧ keyOf value = key ∧ e.readyAtNs ≤ nowNs := by
      intro next' hnext
      simp only [Prod.mk.injEq] at hnext
      obtain ⟨htaken, rfl⟩ := hnext
      obtain ⟨before, e, after, rfl, hrest, he⟩ := ih (Prod.ext htaken rfl)
      exact ⟨entry :: before, e, after, rfl, congrArg (entry :: ·) hrest, he⟩
    cases next <;> rw [takeFrom] at h
    all_goals
      split at h
      · next hkey =>
        split at h
        · next hmature =>
          cases h
          exact ⟨[], entry, q, rfl, rfl, rfl, hkey, of_decide_eq_true hmature⟩
        · exact hpass _ h
      · exact hpass _ h

/-- A mature value is taken if no other is under its key. -/
theorem takeFrom_of_mem {entry : PendingValue T} (hmem : entry ∈ q)
    (hmature : entry.readyAtNs ≤ nowNs)
    (hunique : ∀ e ∈ q, keyOf e.value = keyOf entry.value → e = entry) :
    ∃ rest, takeFrom nowNs (keyOf entry.value) keyOf next q = (.ready entry.value, rest) := by
  induction q with
  | nil => cases hmem
  | cons e q ih =>
    by_cases hkey : keyOf e.value = keyOf entry.value
    · cases hunique e mem_cons_self hkey
      have hready : entry.isMature nowNs = true := decide_eq_true hmature
      refine ⟨q, ?_⟩
      cases next <;> rw [takeFrom, if_pos rfl, if_pos hready]
    · have hmem : entry ∈ q := by
        rcases mem_cons.mp hmem with rfl | hmem
        · exact absurd rfl hkey
        · exact hmem
      obtain ⟨rest, hrest⟩ := ih hmem fun e' he' => hunique e' (mem_cons_of_mem e he')
      refine ⟨e :: rest, ?_⟩
      cases next <;> rw [takeFrom, if_neg hkey, hrest]

end PendingActions

inductive TimelockDecision where
  | immediate
  | timelocked
  deriving DecidableEq, Repr

namespace TimelockDecision

def fromRequiresTimelock (requiresTimelock : Bool) : TimelockDecision :=
  if requiresTimelock then .timelocked else .immediate

end TimelockDecision

inductive TimelockConfigError where
  | noChange
  | outOfBounds
  deriving DecidableEq, Repr

def timelockConfigDecision (current proposed min max : Nat) :
    Except TimelockConfigError TimelockDecision := do
  ensure (proposed ≠ current) .noChange
  ensure (min ≤ proposed ∧ proposed ≤ max) .outOfBounds
  return if proposed < current then .timelocked else .immediate

def maxManagementFeeWad : Nat := Wad.scale / 100 * 5

def maxPerformanceFeeWad : Nat := Wad.scale / 100 * 50

structure FeeConfig (R : Type) where
  performanceFee : Nat
  managementFee : Nat
  performanceRecipient : R
  managementRecipient : R
  maxRate : Option Nat
  deriving DecidableEq, Repr

inductive FeeChangeError where
  | noChange
  | performanceFeeTooHigh
  | managementFeeTooHigh
  deriving DecidableEq, Repr

structure FeeChangeDecision where
  timelocked : Bool
  feeIncrease : Bool
  recipientChanged : Bool
  maxRateRelaxed : Bool
  deriving DecidableEq, Repr

/-- No limit is wider than any limit. -/
def maxRateRelaxed : Option Nat → Option Nat → Bool
  | none, _ => false
  | some _, none => true
  | some old, some new => decide (old < new)

namespace FeeConfig

variable {R : Type} [DecidableEq R]

def evaluateChange (current proposed : FeeConfig R) : Except FeeChangeError FeeChangeDecision := do
  ensure (proposed.performanceFee ≤ maxPerformanceFeeWad) .performanceFeeTooHigh
  ensure (proposed.managementFee ≤ maxManagementFeeWad) .managementFeeTooHigh
  let performanceRecipientChanged :=
    decide (proposed.performanceRecipient ≠ current.performanceRecipient)
  let managementRecipientChanged :=
    decide (proposed.managementRecipient ≠ current.managementRecipient)
  ensure (proposed.performanceFee ≠ current.performanceFee ∨
    proposed.managementFee ≠ current.managementFee ∨ performanceRecipientChanged = true ∨
    managementRecipientChanged = true ∨ proposed.maxRate ≠ current.maxRate) .noChange
  let feeIncrease := decide (current.performanceFee < proposed.performanceFee ∨
    current.managementFee < proposed.managementFee)
  let recipientChanged := performanceRecipientChanged || managementRecipientChanged
  let relaxed := maxRateRelaxed current.maxRate proposed.maxRate
  return ⟨feeIncrease || recipientChanged || relaxed, feeIncrease, recipientChanged, relaxed⟩

end FeeConfig

inductive CapChangeError where
  | noChange
  deriving DecidableEq, Repr

inductive RelativeCapChangeError where
  | noChange
  | relativeCapTooHigh
  deriving DecidableEq, Repr

inductive MembershipChangeError where
  | noChange
  deriving DecidableEq, Repr

namespace TimelockDecision

/-- A market without a record of a cap is new, and so waits. -/
def fromCapChange (current : Option Nat) (proposed : Nat) :
    Except CapChangeError TimelockDecision :=
  match current with
  | some existing =>
    if proposed = existing then .error .noChange
    else if existing < proposed then .ok .timelocked
    else .ok .immediate
  | none => .ok .timelocked

def fromCapGroupCapChange (current proposed : Option Nat) :
    Except CapChangeError TimelockDecision :=
  match current, proposed with
  | none, none => .error .noChange
  | none, some _ => .ok .immediate
  | some _, none => .ok .timelocked
  | some existing, some next =>
    if next = existing then .error .noChange
    else if existing < next then .ok .timelocked
    else .ok .immediate

def fromRelativeCapChange (current proposed : Option Nat) :
    Except RelativeCapChangeError TimelockDecision := do
  match proposed with
  | some proposed => ensure (proposed ≤ Wad.scale) .relativeCapTooHigh
  | none => .ok ()
  (fromCapGroupCapChange current proposed).mapError fun _ => .noChange

/-- Whatever changes, a market that joins, leaves or changes its group waits. -/
def fromMembershipAssignmentChange {T : Type} [DecidableEq T] (current proposed : Option T) :
    Except MembershipChangeError TimelockDecision :=
  if current = proposed then .error .noChange else .ok .timelocked

end TimelockDecision

inductive GovernanceRestrictions (T : Type) where
  | paused
  | blacklist (members : List T)
  | whitelist (members : List T)
  deriving DecidableEq, Repr

/-- The members in order, each once. -/
def normalizeMembers {T : Type} [DecidableEq T] (members : List T) : List T :=
  members.foldl (fun normalized member =>
    if member ∈ normalized then normalized else normalized ++ [member]) []

namespace GovernanceRestrictions

variable {T : Type} [DecidableEq T]

def ofBlacklist (members : List T) : GovernanceRestrictions T :=
  .blacklist (normalizeMembers members)

def ofWhitelist (members : List T) : GovernanceRestrictions T :=
  .whitelist (normalizeMembers members)

def anyMissingFrom (source candidateSuperset : List T) : Bool :=
  source.any fun item => !decide (item ∈ candidateSuperset)

def anyOverlap (left right : List T) : Bool := left.any fun item => decide (item ∈ right)

/-- Whether somebody may act under the next restrictions who could not under the current. -/
def determineRelaxed : Option (GovernanceRestrictions T) → Option (GovernanceRestrictions T) → Bool
  | none, _ => false
  | some _, none => true
  | some .paused, some .paused => false
  | some .paused, some (.whitelist new) => !new.isEmpty
  | some .paused, some (.blacklist _) => true
  | some (.blacklist old), some (.blacklist new) => anyMissingFrom old new
  | some (.whitelist old), some (.whitelist new) => anyMissingFrom new old
  | some (.blacklist old), some (.whitelist new) => anyOverlap old new
  | some (.whitelist _), some .paused => false
  | some (.blacklist _), some .paused => false
  | some (.whitelist _), some (.blacklist _) => true

def Allows (account : T) : Option (GovernanceRestrictions T) → Prop
  | none => True
  | some .paused => False
  | some (.blacklist members) => account ∉ members
  | some (.whitelist members) => account ∈ members

/-- A change that is not a relaxation allows nobody new. -/
theorem allows_of_not_relaxed {current next : Option (GovernanceRestrictions T)} {account : T}
    (h : determineRelaxed current next = false) (hnext : Allows account next) :
    Allows account current := by
  cases current with
  | none => trivial
  | some current =>
    cases next with
    | none => cases h
    | some next =>
      cases current <;> cases next
      case paused.whitelist new => simp_all [determineRelaxed, Allows]
      case blacklist.blacklist old new =>
        simp only [determineRelaxed, anyMissingFrom, any_eq_false, Bool.not_eq_true',
          decide_eq_false_iff_not, not_not] at h
        exact fun hold => hnext (h account hold)
      case blacklist.whitelist old new =>
        simp only [determineRelaxed, anyOverlap, any_eq_false, decide_eq_true_eq] at h
        exact fun hold => h account hold hnext
      case whitelist.whitelist old new =>
        simp only [determineRelaxed, anyMissingFrom, any_eq_false, Bool.not_eq_true',
          decide_eq_false_iff_not, not_not] at h
        exact h account hnext
      case whitelist.paused | blacklist.paused | paused.paused => exact hnext.elim
      case paused.blacklist | whitelist.blacklist => cases h

end GovernanceRestrictions

theorem mem_normalizeMembers {T : Type} [DecidableEq T] {members : List T} {account : T} :
    account ∈ normalizeMembers members ↔ account ∈ members := by
  -- the loop keeps what it has and adds what it reads
  have hloop (acc : List T) : account ∈ members.foldl (fun normalized member =>
      if member ∈ normalized then normalized else normalized ++ [member]) acc ↔
        account ∈ acc ∨ account ∈ members := by
    induction members generalizing acc with
    | nil => simp
    | cons member members ih =>
      rw [foldl_cons, ih, mem_cons]
      by_cases hmem : member ∈ acc
      · rw [if_pos hmem]
        have hacc : account = member → account ∈ acc := fun h => h ▸ hmem
        tauto
      · rw [if_neg hmem, mem_append, mem_singleton, or_assoc]
  simpa [normalizeMembers] using hloop []

end Templar.Curator
