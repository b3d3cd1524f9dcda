import Templar.Curator.PolicySpec

/-!
# What the policy operations keep

`PolicyState.Sound` says that principals are kept for exactly the markets, that the principals
of the groups are what recomputing them would give, and that the supply queue is in order and
names markets that may be supplied. Every operation keeps it. `Edited` says this of an operation
of governance, together with the rules it makes and that it moves no principal.
-/

namespace Templar.Curator.PolicyState

open Checked OrderedMap SupplyQueue Function

variable {p p' : PolicyState} {targetId : Nat} {queue : SupplyQueue} {id : CapGroupId}
  {config : MarketConfig}

/-- A market that may be supplied. -/
def Open (config : MarketConfig) : Prop := config.enabled = true ∧ config.cap ≠ 0

structure Sound (p : PolicyState) : Prop where
  keys : ∀ targetId, targetId ∈ p.principals.keys ↔ targetId ∈ p.markets.keys
  groups : p.recomputeCapGroupPrincipals = .ok p
  ordered : p.supplyQueue.Ordered
  targets : ∀ e ∈ p.supplyQueue.entries, ∃ config, p.marketConfig e.targetId = some config ∧ Open config

theorem validateSupplyQueueTargetsWith_eq_ok {u : Unit} :
    p.validateSupplyQueueTargetsWith queue = .ok u ↔
      ∀ e ∈ queue.entries, ∃ config, p.marketConfig e.targetId = some config ∧ Open config := by
  simp only [validateSupplyQueueTargetsWith, forM_eq_ok, validateSupplyQueueTarget, do_ok, Open]

/-- The principal recorded for a group is what its markets hold. -/
theorem Sound.group_principal (h : p.Sound) {record : CapGroupRecord}
    (hrecord : p.capGroup id = some record) : record.principal = p.groupTotal id := by
  obtain ⟨-, totals, htotals, hprincipal⟩ := recompute_self.mp h.groups
  rw [hprincipal id record hrecord, computeCapGroupTotals_getD htotals]

theorem sound_default : PolicyState.default.Sound where
  keys := by simp [PolicyState.default]
  groups := rfl
  ordered := ordered_new
  targets := by
    intro e he
    obtain ⟨_, he⟩ := mem_entries.mp he
    cases he

/-- An operation that ends with a recomputation has the groups right. -/
theorem Sound.of_recompute (h : p.recomputeCapGroupPrincipals = .ok p')
    (hkeys : ∀ targetId, targetId ∈ p.principals.keys ↔ targetId ∈ p.markets.keys)
    (hordered : p.supplyQueue.Ordered)
    (htargets : ∀ e ∈ p.supplyQueue.entries,
      ∃ config, p.marketConfig e.targetId = some config ∧ Open config) : p'.Sound := by
  have hidem := recompute_idem h
  obtain ⟨-, totals, -, rfl⟩ := recompute_eq_ok.mp h
  exact ⟨hkeys, hidem, hordered, htargets⟩

/-- Loading gives back what was stored if that is sound, and the same rules in any case. -/
theorem fromParts_eq_ok
    (h : fromParts p.markets p.principals p.capGroups p.leases p.supplyQueue = .ok p') :
    p'.rules = p.rules ∧ (p.Sound → p' = p) := by
  simp only [fromParts, do_ok] at h
  obtain ⟨-, -, h⟩ := h
  refine ⟨(recompute_rules h).trans rfl, ?_⟩
  intro hs
  have hprune : p.pruneOrphanPrincipals = p := by
    have hkept : p.principals.retain (fun targetId _ => p.markets.contains targetId) = p.principals := by
      refine OrderedMap.ext (List.filter_eq_self.mpr ?_)
      intro e he
      exact contains_iff.mpr ((hs.keys e.1).mp (List.mem_map_of_mem he))
    rw [pruneOrphanPrincipals, hkept]
  have hinit : p.initializeMissingPrincipals = p := by
    unfold initializeMissingPrincipals
    rw [List.foldlRecOn p.markets.keys _ (motive := fun principals => principals = p.principals) rfl]
    rintro _ rfl targetId hmem
    exact if_pos (contains_iff.mpr ((hs.keys targetId).mpr hmem))
  rw [hprune, hinit] at h
  exact Except.ok.inj (h.symm.trans hs.groups)

section

variable (h : p.Sound)
include h

/-- The queue stays in order when a market that is no longer open leaves it. -/
theorem Sound.purged (c : Bool) (targetId : Nat) : (purged p.supplyQueue c targetId).Ordered := by
  unfold PolicyState.purged
  cases c
  · exact h.ordered
  · exact h.ordered.removeTarget targetId

/-- Markets other than the changed one are open as before; the changed one is open, or it has
left the queue. -/
theorem Sound.targets_purged {c : Bool} (hopen : c = false → Open config) :
    ∀ e ∈ (PolicyState.purged p.supplyQueue c targetId).entries, ∃ config',
      update p.marketConfig targetId (some config) e.targetId = some config' ∧
        Open config' := by
  intro e he
  by_cases htarget : e.targetId = targetId
  · rw [htarget, update_self]
    refine ⟨config, rfl, hopen ?_⟩
    cases c with
    | false => rfl
    | true => exact absurd htarget (mem_entries_removeTarget.mp he).2
  · rw [update_of_ne htarget]
    apply h.targets e
    cases c with
    | false => exact he
    | true => exact (mem_entries_removeTarget.mp he).1

theorem Sound.setPrincipal {principal : Nat}
    (hp : p.setPrincipal targetId principal = .ok p') : p'.Sound := by
  simp only [PolicyState.setPrincipal, do_ok, contains_iff] at hp
  obtain ⟨hmem, hp⟩ := hp
  refine .of_recompute hp ?_ h.ordered h.targets
  intro k
  rw [mem_keys_insert, h.keys]
  constructor
  · rintro (rfl | hk)
    · exact hmem
    · exact hk
  · exact .inr

end

/-- A group that no market knows of has nothing in it. -/
theorem groupTotal_of_unknown (h : p.KnownGroups) (hid : id ∉ p.capGroups.keys) :
    p.groupTotal id = 0 := by
  unfold groupTotal total
  apply List.sum_eq_zero
  intro n hn
  obtain ⟨e, he, rfl⟩ := List.mem_map.mp hn
  apply if_neg
  intro hgroup
  exact hid (h e.1 e.2 (get_eq_some.mpr he) id hgroup)

/-- What an operation of governance does: the rules are `r` afterwards, no principal has moved,
and a state that was sound is sound. -/
structure Edited (p : PolicyState) (r : Rules) (p' : PolicyState) : Prop where
  rules : p'.rules = r
  total : p'.principalTotal = p.principalTotal
  sound : p.Sound → p'.Sound

theorem replaceSupplyQueue_edited (hp : p.replaceSupplyQueue queue = .ok p') :
    p.Edited { p.rules with queue } p' := by
  simp only [replaceSupplyQueue, do_ok, validate_eq_ok, validateSupplyQueueTargetsWith_eq_ok] at hp
  obtain ⟨hordered, htargets, rfl⟩ := hp
  refine ⟨rfl, rfl, fun h => ⟨h.keys, ?_, hordered, htargets⟩⟩
  -- the totals of the groups do not depend on the queue
  have hgroups := recompute_self.mp h.groups
  exact recompute_self.mpr hgroups

/-- A market that is new starts without principal. -/
theorem setMarketConfig_edited (hp : p.setMarketConfig targetId config = .ok p') : p.Edited
      { p.rules with
        market := update p.rules.market targetId (some config)
        queue := purged p.supplyQueue (!config.enabled || config.cap == 0) targetId } p' := by
  simp only [setMarketConfig, do_ok, purgeIf_eq] at hp
  obtain ⟨-, hp⟩ := hp
  refine ⟨?_, ?_, fun h => .of_recompute hp ?_ (h.purged _ _) ?_⟩
  · rw [recompute_rules hp]
    unfold rules marketConfig
    rw [get_insert_eq_update]
    rfl
  · rw [recompute_total hp]
    have htotal := total_insert (fun _ principal => principal) p.principals targetId
      ((p.principalFor targetId).getD 0)
    rw [part_principal] at htotal
    exact Nat.add_right_cancel htotal
  · intro k
    rw [mem_keys_insert, mem_keys_insert, h.keys]
  · intro e he
    rw [marketConfig, get_insert_eq_update]
    refine h.targets_purged ?_ e he
    intro hc
    simpa [Open] using hc

theorem setMarketCapGroup_edited {group : Option CapGroupId}
    (hp : p.setMarketCapGroup targetId group = .ok p') :
    (p.rules.market targetId).isSome = true ∧ p.Edited (p.rules.withMember targetId group) p' := by
  simp only [setMarketCapGroup, do_ok] at hp
  obtain ⟨-, config, hconfig, hp⟩ := hp
  have hmarket : p.rules.market targetId = some config := hconfig
  refine ⟨Option.isSome_of_eq_some hmarket, ?_, ?_, fun h => .of_recompute hp ?_ h.ordered ?_⟩
  · rw [recompute_rules hp, Rules.withMember, hmarket]
    unfold rules marketConfig
    rw [get_insert_eq_update]
    rfl
  · rw [recompute_total hp]
    rfl
  · intro k
    rw [h.keys, keys_insert_of_mem (mem_of_get hconfig)]
  · intro e he
    obtain ⟨config', hconfig', hopen⟩ := h.targets e he
    rw [marketConfig, get_insert_eq_update]
    by_cases htarget : e.targetId = targetId
    · -- the group of a market is not what opens it
      rw [htarget] at hconfig' ⊢
      obtain rfl : config = config' := Option.some.inj (hconfig.symm.trans hconfig')
      rw [update_self]
      exact ⟨_, rfl, hopen⟩
    · rw [update_of_ne htarget]
      exact ⟨config', hconfig', hopen⟩

/-- A cap does not count towards the totals, so they need not be computed anew. -/
theorem setMarketCap_edited {cap : Nat} (hp : p.setMarketCap targetId cap = .ok p') :
    p.Edited (p.rules.withMarketCap targetId cap) p' := by
  simp only [setMarketCap, do_ok, purgeIf_eq] at hp
  obtain ⟨config, hconfig, rfl⟩ := hp
  have hmarket : p.rules.market targetId = some config := hconfig
  refine ⟨?_, rfl, fun h => ⟨?_, ?_, h.purged _ _, ?_⟩⟩
  · rw [Rules.withMarketCap, hmarket]
    unfold rules marketConfig
    rw [get_insert_eq_update]
    rfl
  · intro k
    rw [h.keys, keys_insert_of_mem (mem_of_get hconfig)]
  · obtain ⟨hknown, totals, htotals, hprincipal⟩ := recompute_self.mp h.groups
    refine recompute_self.mpr ⟨?_, totals, ?_, hprincipal⟩
    · intro market config' hconfig' id hid
      rw [marketConfig, get_insert] at hconfig'
      split at hconfig'
      · cases hconfig'
        exact hknown targetId config hconfig id hid
      · exact hknown market config' hconfig' id hid
    · rw [← htotals]
      exact computeCapGroupTotals_congr rfl (map_entries_insert hconfig rfl)
  · intro e he
    rw [marketConfig, get_insert_eq_update]
    by_cases htarget : e.targetId = targetId
    · refine h.targets_purged ?_ e he
      intro hc
      obtain ⟨config', hconfig', hopen⟩ := h.targets e (by simpa [purged, hc] using he)
      rw [htarget] at hconfig'
      obtain rfl : config = config' := Option.some.inj (hconfig.symm.trans hconfig')
      exact ⟨hopen.1, by simpa using hc⟩
    · rw [update_of_ne htarget]
      apply h.targets e
      unfold purged at he
      split at he
      · exact (mem_entries_removeTarget.mp he).1
      · exact he

/-- Only a market without principal may go. -/
theorem removeMarket_edited (hconfig : p.marketConfig targetId = some config)
    (hzero : (p.principalFor targetId).getD 0 = 0) (hp : p.removeMarket targetId = .ok p') :
    p.Edited (p.rules.withoutMarket targetId) p' := by
  unfold marketConfig at hconfig
  simp only [removeMarket, hconfig] at hp
  refine ⟨?_, ?_, fun h => .of_recompute hp ?_ (h.ordered.removeTarget targetId) ?_⟩
  · rw [recompute_rules hp]
    unfold rules marketConfig
    rw [get_remove_eq_update]
    rfl
  · rw [recompute_total hp]
    have htotal := total_remove (fun _ principal => principal) p.principals targetId
    rw [part_principal, hzero] at htotal
    exact htotal
  · intro k
    rw [mem_keys_remove, mem_keys_remove, h.keys]
  · intro e he
    obtain ⟨he, htarget⟩ := mem_entries_removeTarget.mp he
    rw [marketConfig, get_remove_eq_update, update_of_ne htarget]
    exact h.targets e he

/-- Both bounds of a group are set alike. -/
theorem modify_edited (p : PolicyState) (id : CapGroupId) (f : CapGroup → CapGroup) :
    p.Edited (p.rules.withGroup id f) { p.ensureCapGroup id with
      capGroups := (p.ensureCapGroup id).capGroups.modify id
        fun r => { r with cap := f r.cap } } := by
  have hsame : (p.ensureCapGroup id).markets = p.markets ∧
      (p.ensureCapGroup id).principals = p.principals ∧
      (p.ensureCapGroup id).supplyQueue = p.supplyQueue := by
    unfold ensureCapGroup
    split <;> exact ⟨rfl, rfl, rfl⟩
  obtain ⟨hmarkets, hprincipals, hqueue⟩ := hsame
  refine ⟨?_, ?_, ?_⟩
  · simp only [rules, capGroup, Rules.withGroup, hmarkets, hqueue, Rules.mk.injEq, and_true]
    refine ⟨rfl, funext fun a => ?_⟩
    rw [capGroup_modify, update_apply, update_apply]
    split <;> rfl
  · simp only [principalTotal, hprincipals]
  intro h
  obtain ⟨hknown, totals, htotals, hprincipal⟩ := recompute_self.mp h.groups
  refine ⟨?_, recompute_self.mpr ⟨?_, totals, ?_, ?_⟩, ?_, ?_⟩
  · simpa [hmarkets, hprincipals] using h.keys
  · intro market config hconfig group hgroup
    simp only [marketConfig, hmarkets] at hconfig
    obtain ⟨record, hrecord⟩ := mem_keys_iff.mp (hknown market config hconfig group hgroup)
    rw [mem_keys_iff, capGroup_modify, update_apply]
    split
    · exact ⟨_, rfl⟩
    · exact ⟨record, hrecord⟩
  · rw [← htotals]
    exact computeCapGroupTotals_congr hprincipals (by rw [hmarkets])
  · intro group record hrecord
    rw [capGroup, capGroup_modify, update_apply] at hrecord
    split at hrecord
    · next heq =>
      subst heq
      cases hrecord
      cases hgroup : p.capGroup group with
      | some record => exact hprincipal group record hgroup
      | none =>
        rw [computeCapGroupTotals_getD htotals,
          groupTotal_of_unknown hknown (get_eq_none.mp hgroup)]
        rfl
    · exact hprincipal group record hrecord
  · exact hqueue ▸ h.ordered
  · simpa [marketConfig, hmarkets, hqueue] using h.targets

/-- A market joins a group only if it is known. -/
theorem groupUpdate_edited {update : CapGroupUpdate} (hp : p.groupUpdate update = .ok p') :
    (∀ market id, update = .setMembership market id → (p.rules.market market).isSome = true) ∧
      p.Edited (p.rules.updated update) p' := by
  cases update with
  | setCap id newCap =>
    cases hp
    exact ⟨by simp, p.modify_edited id fun c => { c with absoluteCap := newCap }⟩
  | setRelativeCap id newRelativeCap =>
    cases hp
    exact ⟨by simp, p.modify_edited id fun c => { c with relativeCap := newRelativeCap }⟩
  | setMembership marketId id =>
    obtain ⟨hknown, hedited⟩ := setMarketCapGroup_edited hp
    refine ⟨?_, hedited⟩
    rintro market group ⟨⟩
    exact hknown

end Templar.Curator.PolicyState
