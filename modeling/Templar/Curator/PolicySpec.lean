import Templar.Curator.Policy
import Templar.Lib.Folds

/-!
# What the policy operations do

The loops over markets and principals as sums, and for each operation how it changes the
`Rules`: what governance decides about the markets, apart from what they hold.
-/

namespace Templar.Curator

open Checked OrderedMap Function Option

namespace SupplyQueue

variable {q q' : SupplyQueue} {e : SupplyQueueEntry} {u : Unit}

theorem mem_entries : e ∈ q.entries ↔ ∃ priority, e ∈ q.buckets priority := by
  simp [entries]

/-- How many entries the buckets hold together. -/
def size (q : SupplyQueue) : Nat := ((List.finRange 256).map fun p => (q.buckets p).length).sum

theorem countEntries_eq_ok {n : Nat} : q.countEntries = .ok n ↔ n = q.size ∧ n < 2 ^ 32 := by
  -- a bucket that is too long for the length fails the addition as well, with the same error
  have hstep : (fun (count : Nat) (p : Fin 256) => (do
      ensure ((q.buckets p).length < 2 ^ 32) SupplyQueueError.lengthOverflow
      okOr (checkedAdd 32 count (q.buckets p).length) SupplyQueueError.lengthOverflow)) =
      fun count p => okOr (checkedAdd 32 count (q.buckets p).length) SupplyQueueError.lengthOverflow := by
    funext count p
    by_cases h : (q.buckets p).length < 2 ^ 32
    · rw [ensure_of h]
      rfl
    · rw [ensure_of_not h, okOr_checkedAdd_of_le (by omega)]
      rfl
  unfold countEntries
  rw [hstep, foldlM_checkedAdd_eq_ok (Nat.two_pow_pos 32), Nat.zero_add]
  rfl

/-- The queue is in order: its length is right, within bounds, and every entry has an amount
and lies in the bucket of its priority. -/
structure Ordered (q : SupplyQueue) : Prop where
  len : q.len = q.size
  fits : q.len < 2 ^ 32
  bounded : ∀ m ∈ q.maxLength, q.len ≤ m
  amount : ∀ p, ∀ e ∈ q.buckets p, e.amount ≠ 0
  priority : ∀ p, ∀ e ∈ q.buckets p, e.priority = p

theorem validateLength_eq_ok : q.validateLength = .ok u ↔ ∀ m ∈ q.maxLength, q.len ≤ m := by
  unfold validateLength
  cases q.maxLength <;> simp

/-- The check of a queue passes exactly the ordered ones. -/
theorem validate_eq_ok : q.validate = .ok u ↔ q.Ordered := by
  simp only [validate, validateBucket, SupplyQueueEntry.validate, do_ok, countEntries_eq_ok,
    validateLength_eq_ok, forM_eq_ok]
  constructor
  · intro h
    obtain ⟨n, ⟨hn, hlt⟩, hlen, hbound, hbuckets⟩ := h
    refine ⟨hlen.trans hn, hlen ▸ hlt, hbound, ?_, ?_⟩
    · intro p e he
      obtain ⟨hamount, -⟩ := hbuckets p (List.mem_finRange p) e he
      exact hamount
    · intro p e he
      obtain ⟨-, hpriority⟩ := hbuckets p (List.mem_finRange p) e he
      exact hpriority
  · intro h
    exact ⟨q.size, ⟨rfl, h.len ▸ h.fits⟩, h.len, h.bounded,
      fun p _ e he => ⟨h.amount p e he, h.priority p e he⟩⟩

theorem ordered_new : (SupplyQueue.new none).Ordered where
  len := by
    symm
    apply List.sum_eq_zero
    intro n hn
    obtain ⟨p, -, rfl⟩ := List.mem_map.mp hn
    rfl
  fits := Nat.two_pow_pos 32
  bounded := by simp [SupplyQueue.new]
  amount := by simp [SupplyQueue.new]
  priority := by simp [SupplyQueue.new]

theorem mem_entries_removeTarget {targetId : Nat} :
    e ∈ (q.removeTarget targetId).entries ↔ e ∈ q.entries ∧ e.targetId ≠ targetId := by
  simp only [mem_entries, removeTarget, List.mem_filter, decide_eq_true_eq, exists_and_right]

/-- A queue stays in order without a target. -/
theorem Ordered.removeTarget (h : q.Ordered) (targetId : Nat) : (q.removeTarget targetId).Ordered := by
  -- what the buckets lose and what they keep makes up what they held
  have hsplit : q.size = (q.removeTarget targetId).size + ((List.finRange 256).map fun p =>
      (q.buckets p).length - ((q.removeTarget targetId).buckets p).length).sum := by
    unfold size
    rw [← List.sum_map_add]
    congr 1
    apply List.map_congr_left
    intro p _
    have hle : ((q.removeTarget targetId).buckets p).length ≤ (q.buckets p).length :=
      List.length_filter_le ..
    omega
  have hlen := h.len
  have hfits := h.fits
  have hremoved : (q.removeTarget targetId).len = (q.removeTarget targetId).size := by
    change q.len - (List.finRange 256).foldl (fun removed p => saturatingAdd 32 removed
      ((q.buckets p).length - ((q.removeTarget targetId).buckets p).length)) 0 = _
    rw [foldl_saturatingAdd (by omega)]
    omega
  refine ⟨hremoved, by omega, ?_, ?_, ?_⟩
  · intro m hm
    have hbound := h.bounded m hm
    omega
  · intro p e he
    exact h.amount p e (List.mem_filter.mp he).1
  · intro p e he
    exact h.priority p e (List.mem_filter.mp he).1

end SupplyQueue

namespace PolicyState

variable {p p' : PolicyState} {targetId : Nat} {totals : OrderedMap CapGroupId Nat} {u : Unit}

/-- What all markets hold together. -/
def principalTotal (p : PolicyState) : Nat := p.principals.total fun _ principal => principal

theorem externalAssets_eq_ok {n : Nat} :
    p.externalAssets = .ok n ↔ n = p.principalTotal ∧ n < 2 ^ 128 := by
  unfold externalAssets
  rw [foldlM_checkedAdd_eq_ok (Nat.two_pow_pos 128), Nat.zero_add]
  rfl

/-- What the markets of a group hold together. -/
def groupTotal (p : PolicyState) (id : CapGroupId) : Nat :=
  p.markets.total fun market config =>
    if config.capGroupId = some id then (p.principalFor market).getD 0 else 0

/-- The total of a group after one more market. -/
theorem addToGroupTotal_getD {totals' : OrderedMap CapGroupId Nat} {e : Nat × MarketConfig}
    (h : p.addToGroupTotal totals e = .ok totals') (id : CapGroupId) :
    (totals'.get id).getD 0 = (totals.get id).getD 0 +
      if e.2.capGroupId = some id then (p.principalFor e.1).getD 0 else 0 := by
  unfold addToGroupTotal at h
  split at h
  · next hnone =>
    cases h
    rw [hnone, if_neg (by simp), Nat.add_zero]
  · next groupId hgroup =>
    rw [hgroup]
    dsimp only at h
    split at h
    · next sum hsum =>
      simp only [do_ok] at h
      obtain ⟨_, ⟨-, rfl⟩, rfl⟩ := h
      by_cases hid : id = groupId
      · subst hid
        simp [hsum, principalFor]
      · rw [get_insert_of_ne hid, if_neg (fun heq => hid (some.inj heq).symm), Nat.add_zero]
    · next hsum =>
      cases h
      by_cases hid : id = groupId
      · subst hid
        simp [hsum, principalFor]
      · rw [get_insert_of_ne hid, if_neg (fun heq => hid (some.inj heq).symm), Nat.add_zero]

/-- The computed totals are the sums over the members. -/
theorem computeCapGroupTotals_getD (h : p.computeCapGroupTotals = .ok totals) (id : CapGroupId) :
    (totals.get id).getD 0 = p.groupTotal id := by
  suffices ∀ (es : List (Nat × MarketConfig)) (start : OrderedMap CapGroupId Nat),
      es.foldlM p.addToGroupTotal start = .ok totals →
      (totals.get id).getD 0 = (start.get id).getD 0 + (es.map fun e =>
        if e.2.capGroupId = some id then (p.principalFor e.1).getD 0 else 0).sum by
    have hall := this _ _ h
    rw [get_empty, getD_none, Nat.zero_add] at hall
    exact hall
  intro es
  induction es with
  | nil =>
    intro start h
    obtain rfl := pure_eq_ok.mp h
    rfl
  | cons e es ih =>
    intro start h
    obtain ⟨middle, hmiddle, h⟩ := foldlM_cons_eq_ok.mp h
    rw [ih middle h, addToGroupTotal_getD hmiddle id, List.map_cons, List.sum_cons, Nat.add_assoc]

/-- Every market that is in a group is in one that exists. -/
def KnownGroups (p : PolicyState) : Prop :=
  ∀ market config, p.marketConfig market = some config → ∀ id ∈ config.capGroupId, id ∈ p.capGroups.keys

theorem ensureKnownCapGroup_eq_ok {group : Option CapGroupId} :
    p.ensureKnownCapGroup group = .ok u ↔ ∀ id ∈ group, id ∈ p.capGroups.keys := by
  cases group with
  | none => simp [ensureKnownCapGroup]
  | some id => simp [ensureKnownCapGroup, contains_iff]

theorem validateCapGroupMemberships_eq_ok :
    p.validateCapGroupMemberships = .ok u ↔ p.KnownGroups := by
  simp only [validateCapGroupMemberships, forM_eq_ok, ensureKnownCapGroup_eq_ok, KnownGroups,
    marketConfig, get_eq_some]
  constructor
  · intro h market config hmem
    exact h (market, config) hmem
  · intro h e he
    exact h e.1 e.2 he

/-- The same state with the given totals as principals of the groups. -/
def withGroupTotals (p : PolicyState) (totals : OrderedMap CapGroupId Nat) : PolicyState :=
  { p with
    capGroups := p.capGroups.mapValues fun groupId record =>
      { record with principal := (totals.get groupId).getD 0 } }

/-- Recomputing fails for an unknown group or a sum that is too large. -/
theorem recompute_eq_ok : p.recomputeCapGroupPrincipals = .ok p' ↔ p.KnownGroups ∧
      ∃ totals, p.computeCapGroupTotals = .ok totals ∧ p' = p.withGroupTotals totals := by
  simp only [recomputeCapGroupPrincipals, do_ok, validateCapGroupMemberships_eq_ok]
  rfl

/-- Recomputing once more changes nothing. -/
theorem recompute_idem (h : p.recomputeCapGroupPrincipals = .ok p') :
    p'.recomputeCapGroupPrincipals = .ok p' := by
  obtain ⟨hknown, totals, htotals, rfl⟩ := recompute_eq_ok.mp h
  refine recompute_eq_ok.mpr ⟨?_, totals, htotals, ?_⟩
  · intro market config hconfig id hid
    simpa [withGroupTotals] using hknown market config hconfig id hid
  · unfold withGroupTotals
    congr 1
    apply ext_get
    · simp
    · intro k
      simp [map_map, comp_def]

/-- The totals depend on the markets only through their groups. -/
theorem computeCapGroupTotals_congr (hprincipals : p'.principals = p.principals)
    (hgroups : p'.markets.entries.map (fun e => (e.1, e.2.capGroupId)) =
      p.markets.entries.map (fun e => (e.1, e.2.capGroupId))) :
    p'.computeCapGroupTotals = p.computeCapGroupTotals := by
  -- both loops run over the pairs of market and group
  have hpairs : ∀ q : PolicyState, q.computeCapGroupTotals =
      (q.markets.entries.map fun e => (e.1, e.2.capGroupId)).foldlM
        (fun totals e => q.addToGroupTotal totals (e.1, ⟨true, 0, e.2⟩)) .empty := by
    intro q
    rw [List.foldlM_map]
    rfl
  rw [hpairs, hpairs, hgroups]
  unfold addToGroupTotal
  rw [hprincipals]

/-- A state is what recomputing makes of it if and only if its groups carry the totals. -/
theorem recompute_self : p.recomputeCapGroupPrincipals = .ok p ↔ p.KnownGroups ∧ ∃ totals,
      p.computeCapGroupTotals = .ok totals ∧
      ∀ id record, p.capGroup id = some record → record.principal = (totals.get id).getD 0 := by
  rw [recompute_eq_ok]
  refine and_congr_right fun _ => exists_congr fun totals => and_congr_right fun _ => ?_
  constructor
  · intro h id record hrecord
    have hget := congrArg (fun q : PolicyState => q.capGroup id) h
    simp only [capGroup, withGroupTotals, get_mapValues] at hget
    rw [capGroup] at hrecord
    rw [hrecord, map_some, some.injEq] at hget
    exact congrArg CapGroupRecord.principal hget
  · intro h
    have hgroups : p.capGroups = p.capGroups.mapValues fun id record =>
        { record with principal := (totals.get id).getD 0 } := by
      apply ext_get
      · simp
      · intro id
        rw [get_mapValues]
        cases hrecord : p.capGroups.get id with
        | none => rfl
        | some record => rw [map_some, ← h id record hrecord]
    unfold withGroupTotals
    rw [← hgroups]

end PolicyState

/-- What governance decides about the markets: how each is configured, what bounds the groups
and which markets are supplied. -/
structure Rules where
  market : Nat → Option MarketConfig
  cap : CapGroupId → Option CapGroup
  queue : SupplyQueue

namespace PolicyState

variable {p p' : PolicyState} {targetId principal : Nat}

def rules (p : PolicyState) : Rules where
  market := p.marketConfig
  cap := fun id => (p.capGroup id).map CapGroupRecord.cap
  queue := p.supplyQueue

theorem recompute_rules (h : p.recomputeCapGroupPrincipals = .ok p') : p'.rules = p.rules := by
  obtain ⟨-, totals, -, rfl⟩ := recompute_eq_ok.mp h
  unfold rules
  congr 1
  funext id
  simp [capGroup, withGroupTotals, map_map, comp_def]

/-- A queue without the market that may not be supplied any more. -/
def purged (queue : SupplyQueue) (c : Bool) (targetId : Nat) : SupplyQueue :=
  if c then queue.removeTarget targetId else queue

theorem purgeIf_eq (p : PolicyState) (c : Bool) (targetId : Nat) :
    p.purgeIf c targetId = { p with supplyQueue := purged p.supplyQueue c targetId } := by
  unfold purgeIf purged
  cases c <;> rfl

theorem setPrincipal_rules (h : p.setPrincipal targetId principal = .ok p') :
    p'.rules = p.rules := by
  obtain ⟨_, -, h⟩ := bind_eq_ok.mp h
  rw [recompute_rules h]
  rfl

theorem part_principal (p : PolicyState) (targetId : Nat) :
    part (fun _ principal => principal) p.principals targetId =
      (p.principalFor targetId).getD 0 := by
  unfold part principalFor
  cases p.principals.get targetId <;> rfl

/-- Recomputing the groups moves no principal. -/
theorem recompute_total (h : p.recomputeCapGroupPrincipals = .ok p') :
    p'.principalTotal = p.principalTotal := by
  obtain ⟨-, totals, -, rfl⟩ := recompute_eq_ok.mp h
  rfl

/-- The total changes by what the principal changes. -/
theorem setPrincipal_principals (h : p.setPrincipal targetId principal = .ok p') :
    p'.principalFor targetId = some principal ∧
      p'.principalTotal + (p.principalFor targetId).getD 0 = p.principalTotal + principal := by
  obtain ⟨_, -, h⟩ := bind_eq_ok.mp h
  obtain ⟨-, totals, -, rfl⟩ := recompute_eq_ok.mp h
  refine ⟨get_insert_self, ?_⟩
  have htotal := total_insert (fun _ principal => principal) p.principals targetId principal
  rw [part_principal] at htotal
  exact htotal

section

variable (p : PolicyState) (id : CapGroupId)

theorem capGroup_ensureCapGroup : (p.ensureCapGroup id).capGroup =
      update p.capGroup id (some ((p.capGroup id).getD ⟨⟨none, none⟩, 0⟩)) := by
  unfold ensureCapGroup
  split
  · next hmem =>
    obtain ⟨record, hrecord⟩ := mem_keys_iff.mp (contains_iff.mp hmem)
    rw [capGroup, hrecord, getD_some, ← hrecord]
    exact (update_eq_self id p.capGroup).symm
  · next hmem =>
    have hnone : p.capGroups.get id = none := get_eq_none.mpr fun h => hmem (contains_iff.mpr h)
    change (p.capGroups.insert id _).get = _
    rw [get_insert_eq_update, capGroup, hnone]
    rfl

/-- The groups after a change to the bounds of one. A group that did not exist is unlimited
before. -/
theorem capGroup_modify (f : CapGroup → CapGroup) :
    (((p.ensureCapGroup id).capGroups.modify id fun r => { r with cap := f r.cap }).get) =
      update p.capGroup id
        (some { (p.capGroup id).getD ⟨⟨none, none⟩, 0⟩ with
          cap := f (((p.capGroup id).map CapGroupRecord.cap).getD ⟨none, none⟩) }) := by
  funext a
  have hensure := congrFun (capGroup_ensureCapGroup p id) a
  rw [get_modify, ← capGroup, hensure]
  by_cases ha : a = id
  · subst ha
    rw [if_pos rfl, update_self, update_self]
    cases p.capGroup a <;> rfl
  · rw [if_neg ha, update_of_ne ha, update_of_ne ha]

end

end PolicyState

namespace Rules

variable (r : Rules)

/-- A market whose cap is set. One that is new is enabled and in no group. -/
def withMarketCap (marketId cap : Nat) : Rules :=
  { r with
    market := update r.market marketId
      (some { (r.market marketId).getD ⟨true, cap, none⟩ with cap })
    queue := PolicyState.purged r.queue (cap == 0) marketId }

def withoutMarket (marketId : Nat) : Rules :=
  { r with
    market := update r.market marketId none
    queue := r.queue.removeTarget marketId }

def withMember (marketId : Nat) (capGroupId : Option CapGroupId) : Rules :=
  { r with
    market := update r.market marketId
      ((r.market marketId).map fun config => { config with capGroupId }) }

def withGroup (id : CapGroupId) (f : CapGroup → CapGroup) : Rules :=
  { r with cap := update r.cap id (some (f ((r.cap id).getD ⟨none, none⟩))) }

/-- The rules after a change to a group. -/
def updated : CapGroupUpdate → Rules
  | .setCap id newCap => r.withGroup id fun c => { c with absoluteCap := newCap }
  | .setRelativeCap id newRelativeCap => r.withGroup id fun c => { c with relativeCap := newRelativeCap }
  | .setMembership marketId id => r.withMember marketId id

end Rules

end Templar.Curator
