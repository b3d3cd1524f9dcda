import Templar.SorobanVault.Work

/-!
# The two books of the Soroban vault

The kernel knows how much of the vault's money is outside, and the policy state knows in which
market. They are stored apart and written at different points of a call. Every public command
keeps the settings and leaves the two books in agreement; every command of governance leaves
them in agreement too.
-/

namespace Templar.SorobanVault

open Checked Curator Vault CuratorVault PolicyState

variable {A σ α : Type} [DecidableEq A] {host : Host A σ}
  {l l' : Ledger A σ} {v v' w : CuratorVault A σ}
  {timestamp nowNs opId market total next external : Nat} {a : α}
  {f : CuratorVault A σ → CallM (α × CuratorVault A σ)}
  {changed refreshed supply : Bool} {owner receiver caller operator : A}
  {assets shares minAssetsOut amount : Int} {action : KernelAction A} {staged p : PolicyState}
  {positions : List (Nat × Nat)}

theorem loadVault_eq_ok (h : loadVault host l = .ok v) : Loaded v ∧ v.storage = l.contract := by
  simp only [loadVault, loadPolicyState, do_ok] at h
  obtain ⟨-, policy, hpolicy, rfl⟩ := h
  obtain ⟨hrules, hsame⟩ := fromParts_eq_ok hpolicy
  exact ⟨⟨rfl, hrules, hsame⟩, rfl⟩

theorem withContractVault_eq_ok (h : withContractVault host l f = .ok (a, l')) :
    ∃ v v', Loaded v ∧ v.storage = l.contract ∧ f v = .ok (a, v') ∧ l' = ⟨v'.storage, v'.world⟩ := by
  simp only [withContractVault, do_ok] at h
  obtain ⟨v, hv, ⟨b, v'⟩, hf, rfl, rfl⟩ := h
  obtain ⟨hloaded, hstorage⟩ := loadVault_eq_ok hv
  exact ⟨v, v', hloaded, hstorage, hf, rfl⟩

/-- A session whose storage keeps what it has to. -/
theorem withContractVault_kept
    (hf : ∀ v v', Loaded v → f v = .ok (a, v') → v.storage.Kept v'.storage)
    (h : withContractVault host l f = .ok (a, l')) : l.contract.Kept l'.contract := by
  obtain ⟨v, v', hloaded, hstorage, hv', rfl⟩ := withContractVault_eq_ok h
  rw [← hstorage]
  exact hf v v' hloaded hv'

theorem refreshFeesIfDue_worked (h : v.refreshFeesIfDue host nowNs = .ok v') :
    Worked v v' ∧ (v.feesDueForValueTransfer nowNs = true → v'.storage.state = v'.state) ∧
      (Sound maxPending v.state → v.state.opState = .idle → v'.state.opState = .idle) := by
  unfold CuratorVault.refreshFeesIfDue at h
  split at h
  · have hacted := refreshFees_acted h
    exact ⟨.single (.acted rfl hacted), fun _ => hacted.stored, fun hs _ => hacted.idle hs rfl⟩
  · next hdue =>
    cases h
    exact ⟨.refl, fun hrefreshed => absurd hrefreshed hdue, fun _ => id⟩

/-- A session that has looked at its balance is at rest, and its state is stored if only fees
were settled. -/
theorem reconcile_worked
    (h : reconcileFeesAndCurrentIdleBalance host v nowNs = .ok ((changed, refreshed), v')) :
    Worked v v' ∧ (changed = false → refreshed = true → v'.storage.state = v'.state) ∧
      (Sound maxPending v.state → v'.state.opState = .idle) := by
  simp only [reconcileFeesAndCurrentIdleBalance, do_ok] at h
  obtain ⟨hidle, u, hu, actual, -, ⟨_, state⟩, hstate, ⟨rfl, rfl⟩, rfl⟩ := h
  obtain ⟨hworked, hstored, hrest⟩ := refreshFeesIfDue_worked hu
  have hidle := OpState.isIdle_iff.mp hidle
  refine ⟨hworked.tail (.reconcile hstate), ?_⟩
  rcases reconcileActualIdleAssets_eq_ok hstate with ⟨rfl, -⟩ | ⟨-, rfl, anchor, rfl⟩
  · exact ⟨fun _ => hstored, fun hs => hrest hs hidle⟩
  · exact ⟨by simp, fun hs => hrest hs hidle⟩

theorem depositWithMinCall_kept {assets minSharesOut : Nat} {result : DepositResult} (hv : Loaded v)
    (h : depositWithMinCall host owner receiver assets minSharesOut nowNs v = .ok (result, v')) :
    v.storage.Kept v'.storage := by
  simp only [depositWithMinCall, deposit, do_ok] at h
  obtain ⟨⟨flags, u⟩, hu, -, w, hw, -, -, ⟨r, summary, x⟩, hx, rfl, rfl⟩ := h
  exact kept_of_acted hv ((reconcile_worked hu).1.tail (.still (mapPair_still hw)))
    (applyKernelActionResult_acted hx) rfl rfl

theorem depositWithMinImpl_kept {minSharesOut minted : Int}
    (h : depositWithMinImpl host timestamp l owner receiver assets minSharesOut = .ok (minted, l')) :
    l.contract.Kept l'.contract := by
  simp only [depositWithMinImpl, do_ok] at h
  obtain ⟨-, _, -, _, -, _, -, ⟨result, m⟩, hm, _, -, -, rfl⟩ := h
  have hkept : l.contract.Kept m.contract :=
    withContractVault_kept (fun _ _ hv hf => depositWithMinCall_kept hv hf) hm
  split
  · exact ⟨hkept.settings, hkept.booked⟩
  · exact hkept

theorem requestWithdrawImpl_kept {receipt : RequestWithdrawReceipt}
    (h : requestWithdrawImpl host timestamp l owner receiver shares minAssetsOut =
      .ok (receipt, l')) : l.contract.Kept l'.contract := by
  simp only [requestWithdrawImpl, do_ok] at h
  obtain ⟨-, _, -, _, -, _, -, ⟨id, m⟩, hm, _, -, -, rfl⟩ := h
  refine withContractVault_kept ?_ hm
  intro v v' hv hf
  simp only [requestWithdraw, do_ok] at hf
  obtain ⟨u, hu, -, -, ⟨summary, w⟩, hw, rfl, rfl⟩ := hf
  exact kept_of_acted hv (.single (.still (mapPair_still hu))) (applyKernelAction_acted hw) rfl rfl

theorem abortWithdrawingImpl_kept (h : abortWithdrawingImpl host timestamp l caller opId = .ok l') :
    l.contract.Kept l'.contract := by
  simp only [abortWithdrawingImpl, do_ok] at h
  obtain ⟨_, -, ⟨_, m⟩, hm, rfl⟩ := h
  refine withContractVault_kept ?_ hm
  intro v v' hv hf
  simp only [abortWithdrawing, do_ok] at hf
  obtain ⟨u, hu, _, ⟨-, ⟨summary, w⟩, hw, rfl⟩, -, rfl⟩ := hf
  exact kept_of_acted hv (.single (.still (mapCaller_still hu))) (applyKernelAction_acted hw) rfl rfl

theorem atomicWithdrawImpl_kept {maxSharesBurned burned : Int}
    (h : atomicWithdrawImpl host timestamp l owner receiver operator assets maxSharesBurned =
      .ok (burned, l')) : l.contract.Kept l'.contract := by
  obtain ⟨_, -, h⟩ := bind_eq_ok.mp h
  refine withContractVault_kept ?_ h
  intro v v' hv hf
  simp only [atomicWithdraw, do_ok] at hf
  obtain ⟨-, u, hu, now, -, _, -, _, -, ⟨summary, w⟩, hw, _, -, -, rfl⟩ := hf
  exact kept_of_acted hv (.single (.still (prepareAtomicCall_still hu))) (applyKernelAction_acted hw)
    rfl rfl

theorem atomicRedeemImpl_kept {paid : Int}
    (h : atomicRedeemImpl host timestamp l owner receiver operator shares minAssetsOut =
      .ok (paid, l')) : l.contract.Kept l'.contract := by
  obtain ⟨_, -, h⟩ := bind_eq_ok.mp h
  refine withContractVault_kept ?_ h
  intro v v' hv hf
  simp only [atomicRedeem, do_ok] at hf
  obtain ⟨-, u, hu, now, -, _, -, _, -, ⟨summary, w⟩, hw, _, -, -, rfl⟩ := hf
  exact kept_of_acted hv (.single (.still (prepareAtomicCall_still hu))) (applyKernelAction_acted hw)
    rfl rfl

/-- The queue is carried out in one call: a withdrawal is started if none is under way, and one
that is under way is paid out or refunded. -/
theorem executeWithdraw_kept {result : ExecuteWithdrawResult A} (hv : Loaded v)
    (hstill : Still v w) (h : w.executeWithdraw host caller nowNs = .ok (result, v')) :
    v.storage.Kept v'.storage := by
  simp only [executeWithdraw, do_ok] at h
  obtain ⟨-, -, ⟨summary, u⟩, hu, h⟩ := h
  have hstarted := startWithdrawalIfIdle_acted hu
  have hworked : Worked v u := by
    rcases hstarted with rfl | hacted
    · exact .single (.still hstill)
    · exact .tail (.single (.still hstill)) (.acted rfl hacted)
  split at h
  · simp only [do_ok] at h
    obtain ⟨⟨settle, completed, x⟩, hx, -, rfl⟩ := h
    obtain ⟨r, outcome, opId, hpayout, hsettled⟩ := completeWithdrawalFromIdle_acted hx
    exact kept_of_acted hv (hworked.tail (.payout hpayout)) hsettled rfl rfl
  · next hnot =>
    cases h
    rcases hstarted with rfl | hacted
    · refine kept_of_worked hv hworked ?_ fun _ hidle => hstill.state ▸ hidle
      rw [hstill.stored, ← hv.state, hstill.state]
    · refine kept_of_worked hv hworked hacted.stored ?_
      intro _ _
      obtain ⟨effects, heffects⟩ := hacted.computed
      exact (handleExecuteWithdraw_untouched heffects).2.resolve_right hnot

theorem executeWithdrawImpl_kept {receipt : ExecuteWithdrawReceipt A}
    (h : executeWithdrawImpl host timestamp l caller = .ok (receipt, l')) :
    l.contract.Kept l'.contract := by
  simp only [executeWithdrawImpl, do_ok] at h
  obtain ⟨now, -, ⟨⟨before, result, after⟩, m⟩, hm, h⟩ := h
  have hkept : l.contract.Kept m.contract := by
    refine withContractVault_kept ?_ hm
    intro v v' hv hf
    simp only [executeWithdrawCall, do_ok] at hf
    obtain ⟨u, hu, ⟨result, w⟩, hw, -, rfl⟩ := hf
    exact executeWithdraw_kept hv (mapCaller_still hu) hw
  cases result with
  | noPayout summary =>
    cases h
    exact hkept
  | payout summary completed =>
    simp only [do_ok] at h
    obtain ⟨-, -, -, rfl⟩ := h
    exact hkept

/-- A session that has looked at its balance and saves what it has found. -/
theorem kept_of_saved (hv : Loaded v)
    (h : reconcileFeesAndCurrentIdleBalance host v nowNs = .ok ((changed, refreshed), w))
    (hsave : w.saveState = .ok v') : v.storage.Kept v'.storage := by
  obtain ⟨hworked, -, hidle⟩ := reconcile_worked h
  refine kept_of_worked hv (hworked.tail (.save hsave)) ?_ ?_
  · obtain ⟨rfl, -⟩ := saveState_eq_ok hsave
    rfl
  · intro hs _
    rw [(saveState_eq_ok hsave).1]
    exact hidle hs

theorem refreshFeesImpl_kept (h : refreshFeesImpl host timestamp l = .ok l') :
    l.contract.Kept l'.contract := by
  simp only [refreshFeesImpl, do_ok] at h
  obtain ⟨-, now, -, ⟨_, m⟩, hm, rfl⟩ := h
  refine withContractVault_kept ?_ hm
  intro v v' hv hf
  simp only [refreshFeesCall, CuratorVault.saveOrRefresh, do_ok] at hf
  obtain ⟨⟨⟨changed, refreshed⟩, u⟩, hu, w, hw, -, rfl⟩ := hf
  obtain ⟨hworked, hstored, hidle⟩ := reconcile_worked hu
  split at hw
  · exact kept_of_saved hv hu hw
  · next hchanged =>
    split at hw
    · next hrefreshed =>
      cases hw
      exact kept_of_worked hv hworked (hstored (Bool.eq_false_of_not_eq_true hchanged) hrefreshed)
        fun hs _ => hidle hs
    · exact kept_of_acted hv hworked (refreshFees_acted hw) rfl rfl

theorem resyncIdleBalanceImpl_kept (h : resyncIdleBalanceImpl host timestamp l = .ok l') :
    l.contract.Kept l'.contract := by
  simp only [resyncIdleBalanceImpl, do_ok] at h
  obtain ⟨-, now, -, -, ⟨_, m⟩, hm, rfl⟩ := h
  have hkept : l.contract.Kept m.contract := by
    refine withContractVault_kept ?_ hm
    intro v v' hv hf
    simp only [do_ok] at hf
    obtain ⟨⟨flags, u⟩, hu, w, hw, -, rfl⟩ := hf
    exact kept_of_saved hv hu hw
  exact ⟨hkept.settings, hkept.booked⟩

/-- A session that is not used changes nothing. -/
theorem withContractVault_same (hf : ∀ v v', f v = .ok (a, v') → v' = v)
    (h : withContractVault host l f = .ok (a, l')) : l'.contract = l.contract := by
  obtain ⟨v, v', -, hstorage, hv', rfl⟩ := withContractVault_eq_ok h
  cases hf v v' hv'
  exact hstorage

theorem allocatePreflight_same {amount : Nat}
    (h : allocatePreflight host l caller market amount supply = .ok (total, l')) :
    l'.contract = l.contract := by
  refine withContractVault_same ?_ h
  intro v v' hf
  cases supply with
  | true =>
    simp only [if_true, do_ok] at hf
    obtain ⟨-, -, -, rfl⟩ := hf
    rfl
  | false =>
    simp only [Bool.false_eq_true, if_false, do_ok] at hf
    obtain ⟨-, -, rfl⟩ := hf
    rfl

/-- The kernel is told the sum of the staged principals. -/
theorem acted_syncExternalAssets (h : Acted v (.syncExternalAssets total opId nowNs) w)
    (htotal : staged.externalAssets = .ok total) :
    w.state.externalAssets = staged.principalTotal := by
  obtain ⟨effects, heffects⟩ := h.computed
  obtain ⟨-, -, -, -, hr⟩ := handleSyncExternalAssets_eq_ok heffects
  rw [(KernelResult.mk.inj hr).1]
  exact (externalAssets_eq_ok.mp htotal).1

theorem acted_rebalanceWithdraw {amount : Nat}
    (h : Acted v (.rebalanceWithdraw opId amount nowNs) w) :
    w.state.externalAssets + amount = v.state.externalAssets := by
  obtain ⟨effects, heffects⟩ := h.computed
  obtain ⟨-, hle, -, hr⟩ := handleRebalanceWithdraw_eq_ok heffects
  rw [(KernelResult.mk.inj hr).1]
  exact Nat.sub_add_cancel hle

/-- An operation that has told the kernel of new principals ends, and they are stored. -/
theorem kept_of_reported {begun finish : KernelAction A} {u x y : CuratorVault A σ} (hv : Loaded v)
    (hbegun : Acted (v.renumbered next) begun u) (hrules : staged.rules = u.policyState.rules)
    (hstaged : u.policyState.Sound → staged.Sound) (hframed : Framed u x)
    (hsound : Sound maxPending u.state → Sound maxPending x.state)
    (hexternal : x.state.externalAssets = staged.principalTotal) (hfinish : Acted x finish y)
    (hlocal : finish.isLocal = true) (hends : finish.endsIdle = true) :
    v.storage.Kept (y.savePolicyState staged).storage := by
  have hbegan : Framed v u := Framed.trans (Work.framed .renumber) hbegun.framed
  rw [hbegan.policyState] at hrules hstaged
  refine kept_of_staged hv (hbegan.trans (hframed.trans hfinish.framed)) hrules hfinish.stored ?_
  intro hbooked
  have hs := hsound (hbegun.sound (sound_renumber hbooked.kernel _ _))
  exact ⟨hfinish.sound hs, hstaged hbooked.policy, (hfinish.external hs hlocal).trans hexternal,
    hfinish.idle hs hends⟩

theorem allocateSupply_kept {preTotal : Nat}
    (h : allocateSupply host l caller market amount preTotal nowNs = .ok (external, l')) :
    l.contract.Kept l'.contract := by
  simp only [allocateSupply, do_ok] at h
  obtain ⟨adapter, -, moved, -, supplied, -, ⟨value, world⟩, -, amount', -, h⟩ := h
  refine withContractVault_kept (l := { l with world }) ?_ h
  intro v v' hv hf
  simp only [completeSupplyAllocation, do_ok, policyOrInvalidState_eq_ok] at hf
  obtain ⟨⟨opId, u⟩, hu, _, -, _, -, -, -, staged, hstaged, total, htotal, ⟨_, x⟩, hx, y, hy, -,
    rfl⟩ := hf
  have hsync := syncExternalAssets_acted hx
  exact kept_of_reported hv (beginAllocationInternal_acted hu) (setPrincipal_rules hstaged)
    (fun hs => hs.setPrincipal hstaged) hsync.framed hsync.sound
    (acted_syncExternalAssets hsync htotal) (finishAllocationInternal_acted hy) rfl rfl

theorem allocateWithdraw_kept
    (h : allocateWithdraw host l caller market amount nowNs = .ok (external, l')) :
    l.contract.Kept l'.contract := by
  simp only [allocateWithdraw, beginAllocationWithdrawInternal, do_ok] at h
  obtain ⟨adapter, -, before, -, ⟨paid, paidWorld⟩, -, after, -, -, -, realized, -, ⟨value, world⟩,
    -, h⟩ := h
  refine withContractVault_kept (l := { l with world }) ?_ h
  intro v v' hv hf
  simp only [completeWithdrawAllocation, rebalanceWithdraw, do_ok, policyOrInvalidState_eq_ok] at hf
  obtain ⟨⟨opId, u⟩, hu, -, _, ⟨-, rfl⟩, marked, hmarked, total, htotal, ⟨_, x⟩, hx, staged, hstaged,
    _, ⟨-, ⟨summary, y⟩, hy, rfl⟩, z, hz, -, rfl⟩ := hf
  have hsync := syncExternalAssets_acted hx
  have hmove := applyKernelAction_acted hy
  refine kept_of_reported hv (beginAllocationInternal_acted hu) ?_
    (fun hs => (hs.setPrincipal hmarked).setPrincipal hstaged) (hsync.framed.trans hmove.framed)
    (fun hs => hmove.sound (hsync.sound hs)) ?_ (finishAllocationInternal_acted hz) rfl rfl
  · rw [setPrincipal_rules hstaged, setPrincipal_rules hmarked]
  · -- the principal is marked up to what the market was worth and down to what is left in it; the
    -- difference is what the kernel moves to the idle assets
    have hmoved := acted_rebalanceWithdraw hmove
    have hafter := (setPrincipal_principals hstaged).2
    rw [(setPrincipal_principals hmarked).1, Option.getD_some] at hafter
    rw [acted_syncExternalAssets hsync htotal] at hmoved
    omega

theorem allocateImpl_kept {external : Int}
    (h : allocateImpl host timestamp l caller market amount supply = .ok (external, l')) :
    l.contract.Kept l'.contract := by
  simp only [allocateImpl, do_ok] at h
  obtain ⟨-, amount', -, ⟨total, m⟩, hm, now, -, ⟨ext, n⟩, hn, _, -, -, rfl⟩ := h
  rw [← allocatePreflight_same hm]
  unfold allocateMove at hn
  cases supply with
  | true => exact allocateSupply_kept hn
  | false => exact allocateWithdraw_kept hn

/-- Staging the reports keeps the policy state in order. -/
theorem stageRefreshedPositions_kept (h : stageRefreshedPositions p positions = .ok staged) :
    staged.rules = p.rules ∧ (p.Sound → staged.Sound) := by
  refine foldlM_rel (R := fun p p' : PolicyState => p'.rules = p.rules ∧ (p.Sound → p'.Sound))
    (fun p => ⟨rfl, id⟩) (fun p q r h h' => ⟨h'.1.trans h.1, h'.2 ∘ h.2⟩) ?_ h
  intro p position _ p' hp
  simp only [do_ok, policyOrInvalidState_eq_ok] at hp
  obtain ⟨-, hp⟩ := hp
  exact ⟨setPrincipal_rules hp, fun hsound => hsound.setPrincipal hp⟩

theorem refreshMarketsCall_kept (hv : Loaded v)
    (h : refreshMarketsCall host caller positions nowNs v = .ok (external, v')) :
    v.storage.Kept v'.storage := by
  simp only [refreshMarketsCall, beginRefreshing, completeRefreshWithPositions, finishRefreshing,
    do_ok, policyOrInvalidState_eq_ok] at h
  obtain ⟨_, ⟨-, ⟨opId, r⟩, hr, ⟨_, u⟩, hu, rfl⟩, _, ⟨-, staged, hstaged, total, htotal, -, ⟨_, x⟩, hx,
    _, ⟨-, ⟨_, y⟩, hy, rfl⟩, rfl⟩, -, rfl⟩ := h
  cases reserveAuthorizedOpId_eq_ok hr
  have hsync := syncExternalAssets_acted hx
  obtain ⟨hrules, hsound⟩ := stageRefreshedPositions_kept hstaged
  have hkept : v.storage.Kept (y.savePolicyState staged).storage :=
    kept_of_reported hv (applyKernelAction_acted hu) hrules hsound hsync.framed hsync.sound
      (acted_syncExternalAssets hsync htotal) (applyKernelAction_acted hy) rfl rfl
  split
  · exact ⟨hkept.settings, hkept.booked⟩
  · exact hkept

theorem refreshMarketsImpl_kept {markets : List Nat} {external : Int}
    (h : refreshMarketsImpl host timestamp l caller markets = .ok (external, l')) :
    l.contract.Kept l'.contract := by
  simp only [refreshMarketsImpl, do_ok] at h
  obtain ⟨⟨_, m⟩, hm, now, -, ⟨positions, world⟩, -, ⟨ext, n⟩, hn, _, -, -, rfl⟩ := h
  have hsame : m.contract = l.contract := by
    refine withContractVault_same ?_ hm
    intro v v' hf
    simp only [do_ok] at hf
    obtain ⟨-, -, rfl⟩ := hf
    rfl
  rw [← hsame]
  exact withContractVault_kept (l := { m with world }) (fun _ _ hv hf => refreshMarketsCall_kept hv hf) hn

/-- Every public command keeps the settings and the books. -/
theorem executePublicCommand_kept {command : VaultCommand A} {receipt : Receipt A}
    (h : executePublicCommand host timestamp l command = .ok (receipt, l')) :
    l.contract.Kept l'.contract := by
  cases command <;> simp only [executePublicCommand, do_ok] at h
  case depositWithMin =>
    obtain ⟨⟨out, m⟩, hm, -, rfl⟩ := h
    exact depositWithMinImpl_kept hm
  case requestWithdraw =>
    obtain ⟨⟨out, m⟩, hm, -, rfl⟩ := h
    exact requestWithdrawImpl_kept hm
  case executeWithdraw =>
    obtain ⟨⟨out, m⟩, hm, -, rfl⟩ := h
    exact executeWithdrawImpl_kept hm
  case abortWithdrawing =>
    obtain ⟨m, hm, -, rfl⟩ := h
    exact abortWithdrawingImpl_kept hm
  case atomicWithdraw =>
    obtain ⟨⟨out, m⟩, hm, -, rfl⟩ := h
    exact atomicWithdrawImpl_kept hm
  case atomicRedeem =>
    obtain ⟨⟨out, m⟩, hm, -, rfl⟩ := h
    exact atomicRedeemImpl_kept hm
  case allocate =>
    obtain ⟨⟨out, m⟩, hm, -, rfl⟩ := h
    exact allocateImpl_kept hm
  case refreshMarkets =>
    obtain ⟨⟨out, m⟩, hm, -, rfl⟩ := h
    exact refreshMarketsImpl_kept hm
  case refreshFees =>
    obtain ⟨m, hm, -, rfl⟩ := h
    exact refreshFeesImpl_kept hm
  case resyncIdleBalance =>
    obtain ⟨m, hm, -, rfl⟩ := h
    exact resyncIdleBalanceImpl_kept hm
  case cancelMigration caller =>
    simp only [cancelMigrationImpl, do_ok] at h
    obtain ⟨m, ⟨-, -, rfl⟩, -, rfl⟩ := h
    exact ⟨rfl, id⟩
  case extendTtl =>
    obtain ⟨-, rfl⟩ := h
    exact .refl _

end Templar.SorobanVault
