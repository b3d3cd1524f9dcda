import Templar.Vault.Settlement

/-!
# Ending an operation without paying

What an operation holds is in different places: an allocation has taken its plan out of the idle
assets, a withdrawal and a payout have taken nothing yet. The handlers that end an operation
give back what they take it to hold. For an allocation that is what it took, also when it has been
reported outside in the meantime; for a payout the emergency reset gives back an amount that never
left.
-/

namespace Templar.Vault

variable {A : Type} [DecidableEq A] {s : VaultState A} {call : Call A}
  {alloc : AllocatingState} {calls : List (Call A)}

theorem Move.unspent {holder : A → Prop} {limit : Nat} {selfId : A}
    {s' : VaultState A} {E : List (KernelEffect A)}
    (h : Move holder limit selfId s E s') (hs : s.opState.Unspent) : s'.opState.Unspent := by
  cases h with
  | accrue | deposit | exit | request | skip => exact hs
  | start => trivial
  | settle => trivial
  | shift _ _ _ _ _ hplan =>
    rcases hplan with hplan | hplan
    · exact hplan
    · rw [hplan]
      exact hs
  | release _ _ idle => rw [idle]; trivial
  | pay _ _ idle => rw [idle]; trivial

/-- A state that some run reaches: sound, and with its allocation unspent. -/
structure Settled (s : VaultState A) : Prop where
  sound : Sound maxPending s
  unspent : s.opState.Unspent

theorem Call.settled {r : KernelResult A} (hs : Settled s) (h : call.result s = .ok r) :
    Settled r.state := by
  refine ⟨call.sound call.within_maxPending hs.sound h, ?_⟩
  cases call with
  | payout minWithdrawalAssets =>
    obtain ⟨w, -⟩ := startIdlePayout_eq_ok h
    have move : Move (fun _ => True) maxPending w.owner s r.effects r.state := startIdlePayout_move h
    exact move.unspent hs.unspent
  | act config restrictions own action =>
    have hself : Call.IsFor own (.act config restrictions own action) := rfl
    have moves : Moves (fun _ => True) maxPending own s r.effects r.state :=
      Call.moves hs.sound.shares (fun _ _ => trivial) (Call.within_maxPending _) hself h
    exact moves.induct (P := fun t => t.opState.Unspent) (fun move ht => move.unspent ht) hs.unspent

theorem runFrom_settled (calls : List (Call A)) : Settled (runFrom .new calls) :=
  runFrom_induct ⟨.of_new, trivial⟩ fun _ call _ _ ht h => call.settled ht h

/-- The actions that start something and so need the vault to be idle. -/
def KernelAction.needsIdle : KernelAction A → Bool
  | .beginAllocating .. => true
  | .deposit .. => true
  | .atomicWithdraw .. => true
  | .atomicRedeem .. => true
  | .requestWithdraw .. => true
  | .executeWithdraw .. => true
  | .beginRefreshing .. => true
  | .refreshFees .. => true
  | _ => false

variable {config : VaultConfig A} {restrictions : Option (Restrictions A)} {selfId : A}
  {action : KernelAction A} {r a : KernelResult A}

theorem idle_of_needsIdle (hneeds : action.needsIdle = true) (hs : s.totalShares < 2 ^ 128)
    (h : applyAction s config restrictions selfId action = .ok r) : s.opState = .idle := by
  cases action with
  | beginAllocating opId plan nowNs => exact (handleBeginAllocating_eq_ok h).1
  | deposit owner receiver assetsIn minSharesOut nowNs =>
    obtain ⟨_, _, hidle, -⟩ := handleDeposit_eq_ok h
    exact hidle
  | atomicWithdraw | atomicRedeem | requestWithdraw =>
    obtain ⟨_, hidle, -⟩ := applyAction_leaves rfl h
    exact hidle
  | executeWithdraw nowNs =>
    simp only [applyAction, handleExecuteWithdraw, Checked.bind_eq_ok, Checked.ensure_eq_ok,
      OpState.isIdle_iff] at h
    obtain ⟨_, hidle, -⟩ := h
    exact hidle
  | beginRefreshing opId plan nowNs =>
    simp only [applyAction, applyTransitionResult_eq_ok, startRefresh_eq_ok] at h
    obtain ⟨_, ⟨hidle, -⟩, -⟩ := h
    exact hidle
  | refreshFees nowNs => exact (handleRefreshFees_accrual hs h).idle
  | _ => cases hneeds

/-- What an action that ends an operation adds to the assets: the plan of an allocation that is
called off. -/
def addedBack : OpState A → KernelAction A → Nat
  | .allocating alloc, .abortAllocating _ => planTotal alloc.plan
  | .allocating alloc, .emergencyReset => planTotal alloc.plan
  | _, _ => 0

/-- An end that neither pays nor resets a payout adds back a called-off plan and nothing else. -/
theorem Settled.totalAssets_of_end (hs : Settled s) (hbusy : s.opState ≠ .idle)
    (hpays : ∀ opId, action ≠ .settlePayout opId .success)
    (hreset : action = .emergencyReset → ∀ p, s.opState ≠ .payout p)
    (h : applyAction s config restrictions selfId action = .ok r) (hidle : r.state.opState = .idle) :
    r.state.totalAssets = s.totalAssets + addedBack s.opState action := by
  have hneeds : action.needsIdle = false := by
    cases hn : action.needsIdle with
    | false => rfl
    | true => exact absurd (idle_of_needsIdle hn hs.sound.shares h) hbusy
  have hbalanced := hs.sound.balanced
  have hunspent := hs.unspent
  unfold VaultState.Balanced at hbalanced
  -- whether aborted or reset, a plan comes back whole, and a withdrawal has collected nothing
  have hplan {alloc} (hop : s.opState = .allocating alloc) :
      s.idleAssets + alloc.remaining + s.externalAssets = s.totalAssets + planTotal alloc.plan := by
    rw [hop] at hunspent
    change alloc.remaining = planTotal alloc.plan at hunspent
    omega
  have hnone {w} (hop : s.opState = .withdrawing w) :
      s.idleAssets + w.collected + s.externalAssets = s.totalAssets + 0 := by
    obtain ⟨id, q, rest, hserved⟩ := hs.sound.served_of_withdrawing hop
    have hcollected := hserved.collected_eq_zero hop
    omega
  cases action with
  | finishAllocating opId nowNs =>
    obtain ⟨alloc, hop, -, rfl⟩ := handleFinishAllocating_eq_ok h
    rw [hop]
    rfl
  | finishRefreshing opId nowNs =>
    simp only [applyAction, applyTransitionResult_eq_ok, completeRefresh_eq_ok] at h
    obtain ⟨_, ⟨f, hop, -, rfl⟩, rfl⟩ := h
    rw [hop]
    rfl
  | syncExternalAssets newExternalAssets opId nowNs =>
    obtain ⟨-, -, -, -, rfl⟩ := handleSyncExternalAssets_eq_ok h
    exact absurd hidle hbusy
  | rebalanceWithdraw opId amount nowNs =>
    obtain ⟨-, -, -, rfl⟩ := handleRebalanceWithdraw_eq_ok h
    exact absurd hidle hbusy
  | pause paused =>
    cases h
    exact absurd hidle hbusy
  | abortRefreshing opId =>
    obtain ⟨f, hop, -, rfl⟩ := handleAbortRefreshing_eq_ok h
    rw [hop]
    rfl
  | abortAllocating opId =>
    obtain ⟨alloc, hop, -, -, rfl⟩ := handleAbortAllocating_eq_ok h
    rw [hop]
    exact hplan hop
  | abortWithdrawing opId =>
    obtain ⟨w, o, queue, hop, -, -, -, rfl⟩ := handleAbortWithdrawing_eq_ok h
    rw [hop]
    exact hnone hop
  | settlePayout opId outcome =>
    obtain ⟨p, o, queue, hop, -, -, hr⟩ := handleSettlePayout_eq_ok h
    cases outcome with
    | success => exact absurd rfl (hpays opId)
    | failure =>
      cases hr
      rw [hop]
      rfl
  | emergencyReset =>
    have hr := handleEmergencyReset_eq_ok h
    cases hop : s.opState with
    | idle => exact absurd hop hbusy
    | refreshing f =>
      rw [hop] at hr
      cases hr
      rfl
    | allocating alloc =>
      rw [hop] at hr
      obtain ⟨-, rfl⟩ := hr
      exact hplan hop
    | withdrawing w =>
      rw [hop] at hr
      obtain ⟨-, o, queue, -, rfl⟩ := hr
      exact hnone hop
    | payout p => exact absurd hop (hreset rfl p)
  | _ => cases hneeds

/-- Whether a call reports external assets or moves them back. -/
def Call.syncs : Call A → Bool
  | .act _ _ _ (.syncExternalAssets ..) => true
  | .act _ _ _ (.rebalanceWithdraw ..) => true
  | _ => false

/-- Calls between the start and the end of one allocation that sync nothing. -/
def Undisturbed : VaultState A → List (Call A) → Prop
  | _, [] => True
  | s, call :: calls => call.syncs = false ∧ (∃ alloc, (call.next s).opState = .allocating alloc) ∧
      Undisturbed (call.next s) calls

/-- Without a sync, an allocation that goes on leaves everything as it is. -/
theorem Call.next_of_allocating {alloc' : AllocatingState} (hs : s.totalShares < 2 ^ 128)
    (hop : s.opState = .allocating alloc) (hsyncs : call.syncs = false)
    (hnext : (call.next s).opState = .allocating alloc') : call.next s = s := by
  unfold Call.next at hnext ⊢
  split
  · rename_i r hr
    rw [hr] at hnext
    change r.state.opState = .allocating alloc' at hnext
    cases call with
    | payout minWithdrawalAssets =>
      obtain ⟨w, _, _, hop', -⟩ := startIdlePayout_eq_ok hr
      rw [hop] at hop'
      cases hop'
    | act config restrictions selfId action =>
      cases hn : action.needsIdle with
      | true =>
        rw [idle_of_needsIdle hn hs hr] at hop
        cases hop
      | false =>
        cases hend : action.isEnd with
        | true =>
          obtain ⟨-, hidle, -⟩ : _ ∧ _ ∧ Move (fun _ => True) maxPending selfId _ _ _ :=
            applyAction_end hend hr
          rw [hidle] at hnext
          cases hnext
        | false =>
          -- what is left neither starts nor ends anything
          cases action with
          | pause paused =>
            cases hr
            rfl
          | finishAllocating opId nowNs =>
            obtain ⟨_, -, -, rfl⟩ := handleFinishAllocating_eq_ok hr
            cases hnext
          | finishRefreshing opId nowNs =>
            simp only [Call.result, applyAction, applyTransitionResult_eq_ok, completeRefresh_eq_ok] at hr
            obtain ⟨_, ⟨f, hop', -⟩, -⟩ := hr
            rw [hop] at hop'
            cases hop'
          | syncExternalAssets => cases hsyncs
          | rebalanceWithdraw => cases hsyncs
          | abortRefreshing | abortAllocating | abortWithdrawing | settlePayout | emergencyReset =>
            cases hend
          | _ => cases hn
  · rfl

theorem Undisturbed.runFrom_eq (hs : s.totalShares < 2 ^ 128) (hop : s.opState = .allocating alloc)
    (h : Undisturbed s calls) : runFrom s calls = s := by
  induction calls with
  | nil => rfl
  | cons call calls ih =>
    obtain ⟨hsyncs, ⟨alloc', hnext⟩, hrest⟩ := h
    have hsame := Call.next_of_allocating hs hop hsyncs hnext
    change runFrom (call.next s) calls = s
    rw [hsame] at hrest ⊢
    exact ih hrest

/-- The actions that call an allocation off. -/
def KernelAction.callsOff : KernelAction A → Bool
  | .abortAllocating _ => true
  | .emergencyReset => true
  | _ => false

/-- An allocation that is called off with nothing synced since its start leaves the assets as
they were before. -/
theorem Settled.assets_of_callOff {opId nowNs : Nat} {plan : List AllocationPlanEntry}
    {config' : VaultConfig A} {restrictions' : Option (Restrictions A)}
    {selfId' : A} (hs : Settled s)
    (hbegin : applyAction s config restrictions selfId (.beginAllocating opId plan nowNs) = .ok a)
    (hcalls : Undisturbed a.state calls) (hoff : action.callsOff = true)
    (h : applyAction (runFrom a.state calls) config' restrictions' selfId' action = .ok r) :
    a.state.totalAssets + planTotal plan = s.totalAssets ∧ r.state.totalAssets = s.totalAssets ∧
      r.state.idleAssets = s.idleAssets ∧ r.state.externalAssets = s.externalAssets := by
  have hbalanced := hs.sound.balanced
  unfold VaultState.Balanced at hbalanced
  obtain ⟨-, -, hle, -, ha⟩ := handleBeginAllocating_eq_ok hbegin
  have hshares : a.state.totalShares < 2 ^ 128 := by
    rw [ha]
    exact hs.sound.shares
  have hop : a.state.opState = .allocating ⟨opId, 0, planTotal plan, plan⟩ := by rw [ha]
  have hassets : a.state.idleAssets + planTotal plan = s.idleAssets := by
    rw [ha]
    exact Nat.sub_add_cancel hle
  have hexternal : a.state.externalAssets = s.externalAssets := by rw [ha]
  have htotal : a.state.totalAssets = a.state.idleAssets + a.state.externalAssets := by rw [ha]
  rw [hcalls.runFrom_eq hshares hop] at h
  cases action with
  | abortAllocating opId' =>
    obtain ⟨alloc, hop', -, -, rfl⟩ := handleAbortAllocating_eq_ok h
    cases hop.symm.trans hop'
    dsimp only
    omega
  | emergencyReset =>
    have hr := handleEmergencyReset_eq_ok h
    rw [hop] at hr
    obtain ⟨-, rfl⟩ := hr
    dsimp only
    omega
  | _ => cases hoff

/-- Whether the last allocation that began has been followed by a report of external assets. -/
def Call.syncedAfter (s : VaultState A) (synced : Bool) (call : Call A) : Bool :=
  match call, call.result s with
  | .act _ _ _ (.beginAllocating ..), .ok _ => false
  | .act _ _ _ (.syncExternalAssets ..), .ok _ => true
  | _, _ => synced

def syncedSince : VaultState A → Bool → List (Call A) → Bool
  | _, synced, [] => synced
  | s, synced, call :: calls => syncedSince (call.next s) (call.syncedAfter s synced) calls

/-- A failed settlement of a payout leaves the assets as they are. A reset differs from it by the
amount of the payout, in the idle assets and in the total, and by nothing else. -/
def EndsOfPayout (config : VaultConfig A) (restrictions : Option (Restrictions A)) (selfId : A)
    (s : VaultState A) (p : PayoutState A) : Prop :=
  p.amount ≠ 0 ∧ ∃ f event,
    applyAction s config restrictions selfId (.settlePayout p.opId .failure) = .ok f ∧
    f.state.idleAssets = s.idleAssets ∧ f.state.externalAssets = s.externalAssets ∧
    f.state.totalAssets = s.totalAssets ∧ f.state.totalShares = s.totalShares ∧
    f.effects = refundShares selfId p.owner p.escrowShares ++ [.emitEvent event] ∧
    ∀ r, applyAction s config restrictions selfId .emergencyReset = .ok r →
      r.state.idleAssets = f.state.idleAssets + p.amount ∧
      r.state.totalAssets = f.state.totalAssets + p.amount ∧
      r.state.externalAssets = f.state.externalAssets ∧
      r.state.totalShares = f.state.totalShares ∧
      r.state.withdrawQueue = f.state.withdrawQueue ∧
      ∃ event', r.effects = refundShares selfId p.owner p.escrowShares ++ [.emitEvent event']

theorem Settled.reset_of_payout {p : PayoutState A} (hs : Settled s) (hop : s.opState = .payout p) :
    EndsOfPayout config restrictions selfId s p := by
  obtain ⟨id, q, rest, hserved⟩ := hs.sound.served_of_payout hop
  have hserving : Serving id q (.payout p) := hop ▸ hserved.serving
  have hhead := hs.sound.validateQueueHead_eq (congrArg OpState.claimed hop)
  have hbalanced := hs.sound.balanced
  unfold VaultState.Balanced at hbalanced
  have hle : p.burnShares ≤ p.escrowShares := by
    cases hserving
    exact Nat.le_refl _
  have hsettles : ∃ f, handleSettlePayout s selfId p.opId .failure = .ok f :=
    handleSettlePayout_ok hop hs.sound.queue hhead hle (by simp)
  obtain ⟨f, hf⟩ := hsettles
  have hamount : p.amount ≠ 0 := by
    cases hserving
    exact hserved.expected
  obtain ⟨p', o, queue, hop', -, hq, hfailed⟩ := handleSettlePayout_eq_ok hf
  cases hop.symm.trans hop'
  cases hfailed
  refine ⟨hamount, _, _, hf, rfl, rfl, rfl, rfl, rfl, ?_⟩
  intro r hr
  have hr := handleEmergencyReset_eq_ok hr
  rw [hop] at hr
  obtain ⟨-, o', queue', hq', rfl⟩ := hr
  cases hq.symm.trans hq'
  refine ⟨rfl, ?_, rfl, rfl, rfl, _, rfl⟩
  change s.idleAssets + p.amount + s.externalAssets = s.totalAssets + p.amount
  omega

/-- From every state a run reaches, an end without paying keeps to the rule exactly if it is not the
reset of a payout and does not give back a plan after a report of external assets. The rule: the
total stays, but for the plan of an allocation that is called off with nothing reported since it
began. Such an end undoes the start of the allocation. -/
theorem ending_without_paying_creates_nothing (calls : List (Call A)) :
    let s := runFrom .new calls
    let synced := syncedSince .new false calls
    (∀ config restrictions selfId action r, s.opState ≠ .idle →
      (∀ opId, action ≠ .settlePayout opId .success) →
      applyAction s config restrictions selfId action = .ok r → r.state.opState = .idle →
      (r.state.totalAssets = s.totalAssets + (if synced then 0 else addedBack s.opState action) ↔
        (action = .emergencyReset → ∀ p, s.opState ≠ .payout p) ∧
          (synced = true → addedBack s.opState action = 0))) ∧
    (∀ config restrictions selfId opId plan nowNs a mid config' restrictions' selfId' action r,
      applyAction s config restrictions selfId (.beginAllocating opId plan nowNs) = .ok a →
      Undisturbed a.state mid → action.callsOff = true →
      applyAction (runFrom a.state mid) config' restrictions' selfId' action = .ok r →
      a.state.totalAssets + planTotal plan = s.totalAssets ∧ r.state.totalAssets = s.totalAssets ∧
        r.state.idleAssets = s.idleAssets ∧ r.state.externalAssets = s.externalAssets) ∧
    ∀ config restrictions selfId p, s.opState = .payout p →
      EndsOfPayout config restrictions selfId s p := by
  intro s synced
  have hs : Settled s := runFrom_settled calls
  refine ⟨?_, ?_, fun _ _ _ _ hop => hs.reset_of_payout hop⟩
  · intro config restrictions selfId action r hbusy hpays h hidle
    by_cases hreset : action = .emergencyReset ∧ ∃ p, s.opState = .payout p
    · -- the excluded reset: its amount is not zero, and nothing may be added
      obtain ⟨rfl, p, hop⟩ := hreset
      have hends : EndsOfPayout config restrictions selfId s p := hs.reset_of_payout hop
      obtain ⟨hamount, f, event, -, -, -, htotal, -, -, hall⟩ := hends
      obtain ⟨-, hadds, -⟩ := hall r h
      have hnone : addedBack s.opState (.emergencyReset : KernelAction A) = 0 := by
        rw [hop]
        rfl
      rw [hnone, ite_self]
      constructor
      · intro hsame
        omega
      · intro hkept
        exact absurd hop (hkept.1 rfl p)
    · have hreset : action = .emergencyReset → ∀ p, s.opState ≠ .payout p :=
        fun haction p hop => hreset ⟨haction, p, hop⟩
      rw [hs.totalAssets_of_end hbusy hpays hreset h hidle]
      cases synced with
      | false => exact ⟨fun _ => ⟨hreset, by simp⟩, fun _ => rfl⟩
      | true => exact ⟨fun hkept => ⟨hreset, fun _ => by simpa using hkept⟩, fun hkept => by simp [hkept.2]⟩
  · intro config restrictions selfId opId plan nowNs a mid config' restrictions' selfId' action r
      hbegin hmid hoff h
    exact hs.assets_of_callOff hbegin hmid hoff h

/-- The payout of 40 out of 100 is reset: the vault then counts 140, although it holds the 100
that a failed settlement leaves. -/
theorem reset_of_payout_inflates :
    (runFrom .new payoutRun).opState = .payout ⟨0, 0, 2, 40, 1, 40, 40⟩ ∧
      (runFrom .new payoutRun).totalAssets = 100 ∧
      (applyAction (runFrom .new payoutRun) plainConfig none 0 (.settlePayout 0 .failure)).toOption.map
        (fun r => (r.state.idleAssets, r.state.totalAssets)) = some (100, 100) ∧
      (applyAction (runFrom .new payoutRun) plainConfig none 0 .emergencyReset).toOption.map
        (fun r => (r.state.idleAssets, r.state.totalAssets)) = some (140, 140) := by
  decide +kernel

/-- A deposit and an allocation of part of it. -/
def allocatingRun : List (Call Nat) :=
  [.act plainConfig none 0 (.deposit 1 1 100 0 5),
    .act plainConfig none 0 (.beginAllocating 3 [⟨0, 60⟩] 6)]

-- the sixty are reported outside and given back: they count twice
example : ((applyAction (runFrom .new (allocatingRun ++
      [.act plainConfig none 0 (.syncExternalAssets 60 3 7)])) plainConfig none 0
      (.abortAllocating 3)).toOption.map fun r => r.state.totalAssets) = some 160 := by
  decide +kernel

theorem ending_without_paying_creates_nothing_allocatingRun :
    ((runFrom .new allocatingRun).totalAssets = 40 ∧
      ∃ r, applyAction (runFrom .new allocatingRun) plainConfig none 0 .emergencyReset = .ok r ∧
        r.state.totalAssets = (runFrom .new allocatingRun).totalAssets + 60) ∧
    ∃ f, applyAction (runFrom .new payoutRun) plainConfig none 0 (.settlePayout 0 .failure) = .ok f ∧
      f.state.totalAssets = (runFrom .new payoutRun).totalAssets := by
  constructor
  · have hop : (runFrom .new allocatingRun).opState = .allocating ⟨3, 0, 60, [⟨0, 60⟩]⟩ := by
      decide +kernel
    have hsynced : syncedSince .new false allocatingRun = false := by decide +kernel
    obtain ⟨r, hr, hidle⟩ : ∃ r, applyAction (runFrom .new allocatingRun) plainConfig none 0
        .emergencyReset = .ok r ∧ r.state.opState = .idle := by decide +kernel
    have hend := ((ending_without_paying_creates_nothing allocatingRun).1 plainConfig none 0
      .emergencyReset r (by rw [hop]; simp) (by simp) hr hidle).mpr
      ⟨by intro _ p; rw [hop]; simp, by rw [hsynced]; simp⟩
    rw [hop, hsynced] at hend
    exact ⟨by decide +kernel, r, hr, hend⟩
  · obtain ⟨-, f, _, hf, -, -, htotal, -⟩ := (ending_without_paying_creates_nothing payoutRun).2.2
      plainConfig none 0 ⟨0, 0, 2, 40, 1, 40, 40⟩ (by decide +kernel)
    exact ⟨f, hf, htotal⟩

/-- What a reset takes the operation to hold. -/
def OpState.held : OpState A → Nat
  | .allocating alloc => alloc.remaining
  | .withdrawing w => w.collected
  | .payout p => p.amount
  | _ => 0

/-- Whatever has happened, an operation in progress can be reset as long as the assets fit their
type with what it holds: the queue never stands in the way. -/
theorem busy_vault_can_be_reset (calls : List (Call A)) (config : VaultConfig A)
    (restrictions : Option (Restrictions A)) (selfId : A) :
    let s := runFrom .new calls
    s.opState ≠ .idle → s.idleAssets + s.opState.held + s.externalAssets < 2 ^ 128 →
    ∃ r, applyAction s config restrictions selfId .emergencyReset = .ok r ∧
      r.state.opState = .idle := by
  intro s hbusy hfits
  have hs := (runFrom_settled calls).sound
  have hrestore := VaultState.restoreToIdle_eq_ok.mpr ⟨hfits, rfl⟩
  have hdequeue : s.opState.claimed ≠ none → ∃ x, s.withdrawQueue.dequeue = .ok x := by
    intro hclaimed
    obtain ⟨id, q, rest, hserved⟩ := hs.op.resolve_left hclaimed
    obtain ⟨queue, hqueue, -⟩ := hs.queue.dequeue_of_cons hserved.entries
    exact ⟨_, hqueue⟩
  have hreset : ∃ r, handleEmergencyReset s selfId = .ok r := by
    unfold handleEmergencyReset planEmergencyReset planEmergencyReset.release
    cases hop : s.opState with
    | idle => exact absurd hop hbusy
    | refreshing f => exact ⟨_, rfl⟩
    | allocating alloc =>
      rw [hop] at hrestore
      simp only [OpState.held] at hrestore
      simp only [hrestore]
      exact ⟨_, rfl⟩
    | withdrawing w | payout p =>
      rw [hop] at hrestore hdequeue
      obtain ⟨x, hx⟩ := hdequeue (by simp [OpState.claimed])
      simp only [OpState.held] at hrestore
      simp only [hrestore, Checked.ok_bind, hx]
      exact ⟨_, rfl⟩
  obtain ⟨r, hr⟩ := hreset
  exact ⟨r, hr, (handleEmergencyReset_untouched hr).2⟩

theorem busy_vault_can_be_reset_payoutRun : ∃ r,
    applyAction (runFrom .new payoutRun) plainConfig none 0 .emergencyReset = .ok r ∧
      r.state.opState = .idle :=
  busy_vault_can_be_reset payoutRun _ _ _ (by decide +kernel) (by decide +kernel)

end Templar.Vault
