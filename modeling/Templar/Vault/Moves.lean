import Templar.Vault.ActionSpec

/-!
# The moves of the kernel

Some twenty actions update assets, shares, operation and queue in different orders. What they
can do to a state is one of nine moves; a call that succeeds is a chain of moves of which only
the last may change the operation. Invariants are proved of the moves and hold of the actions
through `Call.moves`.
-/

namespace Templar.Vault

open Checked

variable {A : Type}

/-- The request that an operation carries out, as the operation remembers it. -/
structure Claimed (A : Type) where
  requestId : Nat
  owner : A
  receiver : A
  escrowShares : Nat
  deriving DecidableEq, Repr

def OpState.claimed : OpState A → Option (Claimed A)
  | .withdrawing w => some ⟨w.requestId, w.owner, w.receiver, w.escrowShares⟩
  | .payout p => some ⟨p.requestId, p.owner, p.receiver, p.escrowShares⟩
  | _ => none

/-- An allocation has its whole plan before it. -/
def OpState.Unspent : OpState A → Prop
  | .allocating alloc => alloc.remaining = planTotal alloc.plan
  | _ => True

/-- Whether an event records a new request. -/
def KernelEvent.isRequest : KernelEvent A → Bool
  | .withdrawalRequested .. => true
  | _ => false

/-- Whether an event closes the operation on a request. -/
def KernelEvent.isClosing : KernelEvent A → Bool
  | .withdrawalStopped .. => true
  | .payoutCompleted .. => true
  | .emergencyResetCompleted .. => true
  | _ => false

/-- Effects that move no shares and record no request. -/
def Quiet (effects : List (KernelEffect A)) : Prop :=
  ∀ e ∈ effects, ∃ event : KernelEvent A, e = .emitEvent event ∧ event.isRequest = false

theorem Quiet.nil : Quiet ([] : List (KernelEffect A)) := by
  intro e he
  cases he

theorem Quiet.event {event : KernelEvent A} (h : event.isRequest = false) :
    Quiet [.emitEvent event] := by
  intro e he
  exact ⟨event, List.mem_singleton.mp he, h⟩

/-- The books of a state: idle and external assets make up the total. -/
def VaultState.Balanced (s : VaultState A) : Prop := s.totalAssets = s.idleAssets + s.externalAssets

/-- A change that leaves the total and the anchor of the fees. -/
def VaultState.SameNav (s s' : VaultState A) : Prop :=
  s'.totalAssets = s.totalAssets ∧ s'.feeAnchor = s.feeAnchor

section

variable [DecidableEq A]

/-- One change of the state with the effects that go with it. Shares are only ever given to or
taken from a `holder`, and a queue of `limit` requests takes no more. -/
inductive Move (holder : A → Prop) (limit : Nat) (selfId : A) :
    VaultState A → List (KernelEffect A) → VaultState A → Prop
  | accrue {s : VaultState A} {a b m p nowNs anchor}
      (idle : s.opState = .idle) (ha : holder a) (hb : holder b)
      (fits : s.totalShares + m + p < 2 ^ 128) :
      Move holder limit selfId s
        (mintFeeShares a m ++ mintFeeShares b p ++ [.emitEvent (.feesRefreshed nowNs s.totalAssets)])
        { s with totalShares := s.totalShares + m + p, feeAnchor := anchor }
  | deposit {s : VaultState A} {owner receiver assetsIn shares nowNs}
      (idle : s.opState = .idle) (hr : holder receiver) (fits : s.totalShares + shares < 2 ^ 128) :
      Move holder limit selfId s
        (depositResult s selfId owner receiver assetsIn shares nowNs).effects
        (depositResult s selfId owner receiver assetsIn shares nowNs).state
  | exit {s : VaultState A} {owner receiver operator shares assetsOut}
      (idle : s.opState = .idle) (ho : holder owner) (hshares : shares ≤ s.totalShares)
      (hidle : assetsOut ≤ s.idleAssets) (htotal : assetsOut ≤ s.totalAssets) :
      Move holder limit selfId s (exitResult s owner receiver operator shares assetsOut).effects
        (exitResult s owner receiver operator shares assetsOut).state
  | request {s : VaultState A} {w : PendingWithdrawal A} {id max queue}
      (idle : s.opState = .idle) (ho : holder w.owner) (hw : w.escrowShares ≠ 0) (hmax : max ≤ limit)
      (hq : s.withdrawQueue.enqueueWithdrawal w max = .ok (id, queue)) :
      Move holder limit selfId s
        [.transferShares w.owner selfId w.escrowShares,
          .emitEvent (.withdrawalRequested id w.owner w.receiver w.escrowShares w.expectedAssets)]
        { s with withdrawQueue := queue }
  | skip {s : VaultState A} {w : PendingWithdrawal A} {id queue reason} (idle : s.opState = .idle)
      (hq : s.withdrawQueue.dequeue = .ok (some (id, w), queue)) :
      Move holder limit selfId s
        (refundShares selfId w.owner w.escrowShares ++ [.emitEvent (.withdrawalSkipped id w.owner
          w.receiver w.escrowShares w.expectedAssets reason)])
        { s with withdrawQueue := queue }
  | start {s : VaultState A} {w : PendingWithdrawal A} {id}
      (idle : s.opState = .idle) (hhead : s.withdrawQueue.head = some (id, w))
      (hx : w.expectedAssets ≠ 0) (hw : w.escrowShares ≠ 0) (hliq : w.expectedAssets ≤ s.idleAssets) :
      Move holder limit selfId s
        [.emitEvent (.withdrawalStarted s.nextOpId w.expectedAssets w.escrowShares w.owner w.receiver)]
        { s with
          nextOpId := s.nextOpId + 1
          opState := .withdrawing
            ⟨s.nextOpId, id, 0, w.expectedAssets, 0, w.receiver, w.owner, w.escrowShares⟩ }
  | settle {s : VaultState A} {w : WithdrawingState A} {q : PendingWithdrawal A}
      {id} {event : KernelEvent A} (op : s.opState = .withdrawing w)
      (hhead : s.withdrawQueue.head = some (id, q)) (hescrow : q.escrowShares = w.escrowShares)
      (hx : q.expectedAssets ≠ 0) (hliq : q.expectedAssets ≤ s.idleAssets)
      (hevent : event.isRequest = false) :
      Move holder limit selfId s [.emitEvent event]
        { s with opState := .payout ((w.advance q.expectedAssets).toPayout q.escrowShares) }
  | shift {s s' : VaultState A} {effects} (quiet : Quiet effects)
      (hshares : s'.totalShares = s.totalShares) (hqueue : s'.withdrawQueue = s.withdrawQueue)
      (books : s.Balanced → s'.Balanced)
      (hop : (s.opState.claimed = none ∧ s'.opState.claimed = none) ∨
        (s'.opState = s.opState ∧ s'.idleAssets = s.idleAssets))
      (hplan : s'.opState.Unspent ∨ s'.opState = s.opState) : Move holder limit selfId s effects s'
  | release {s s' : VaultState A} {c : Claimed A} {event : KernelEvent A}
      {o} (op : s.opState.claimed = some c)
      (hq : s.withdrawQueue.dequeue = .ok (o, s'.withdrawQueue)) (idle : s'.opState = .idle)
      (hshares : s'.totalShares = s.totalShares) (books : s.Balanced → s'.Balanced)
      (closing : event.isClosing = true) :
      Move holder limit selfId s
        (refundShares selfId c.owner c.escrowShares ++ [.emitEvent event]) s'
  | pay {s s' : VaultState A} {p : PayoutState A} {event : KernelEvent A}
      {o} (op : s.opState = .payout p)
      (hq : s.withdrawQueue.dequeue = .ok (o, s'.withdrawQueue)) (idle : s'.opState = .idle)
      (hburn : p.burnShares ≤ p.escrowShares) (htotal : p.burnShares ≤ s.totalShares)
      (hshares : s'.totalShares = s.totalShares - p.burnShares) (hamount : p.amount ≤ s.idleAssets)
      (hassets : s'.idleAssets = s.idleAssets - p.amount) (books : s'.Balanced)
      (closing : event.isClosing = true) :
      Move holder limit selfId s
        ((if 0 < p.burnShares then [.burnShares selfId p.burnShares] else []) ++
          refundShares selfId p.owner (p.escrowShares - p.burnShares) ++ [.emitEvent event]) s'

/-- A chain of moves that leave the operation as it is. -/
inductive Steady (holder : A → Prop) (limit : Nat) (selfId : A) (s : VaultState A) :
    List (KernelEffect A) → VaultState A → Prop
  | refl : Steady holder limit selfId s [] s
  | tail {E F} {t u : VaultState A} (before : Steady holder limit selfId s E t)
      (move : Move holder limit selfId t F u) (same : u.opState = t.opState) :
      Steady holder limit selfId s (E ++ F) u

/-- What a successful call does: a steady chain, and at most one move that changes the
operation. -/
inductive Moves (holder : A → Prop) (limit : Nat) (selfId : A) (s : VaultState A) :
    List (KernelEffect A) → VaultState A → Prop
  | steady {E t} (chain : Steady holder limit selfId s E t) : Moves holder limit selfId s E t
  | last {E F t u} (before : Steady holder limit selfId s E t)
      (move : Move holder limit selfId t F u) : Moves holder limit selfId s (E ++ F) u

variable {holder : A → Prop} {limit : Nat} {selfId : A} {s t u : VaultState A}
  {E F : List (KernelEffect A)}

theorem Steady.opState_eq (h : Steady holder limit selfId s E t) : t.opState = s.opState := by
  induction h with
  | refl => rfl
  | tail _ _ same ih => rw [same, ih]

theorem Move.moves (h : Move holder limit selfId s E t) : Moves holder limit selfId s E t :=
  .last .refl h

/-- What every move keeps, every call keeps. -/
theorem Moves.induct {P : VaultState A → Prop}
    (step : ∀ {t u : VaultState A} {F : List (KernelEffect A)},
      Move holder limit selfId t F u → P t → P u)
    (h : Moves holder limit selfId s E t) (hs : P s) : P t := by
  have chain : ∀ {E t}, Steady holder limit selfId s E t → P t := by
    intro E t ht
    induction ht with
    | refl => exact hs
    | tail _ move _ ih => exact step move ih
  cases h with
  | steady ht => exact chain ht
  | last before move => exact step move (chain before)

variable {config : VaultConfig A} {restrictions : Option (Restrictions A)}
  {r : KernelResult A} {owner receiver operator : A} {nowNs opId : Nat}

/-- The recipients of both fees hold shares like any account. -/
def FeesSpec.PaidTo (fees : FeesSpec A) (holder : A → Prop) : Prop :=
  holder fees.management.recipient ∧ holder fees.performance.recipient

theorem Accrual.move (hf : config.fees.PaidTo holder) (h : Accrual config s r) :
    Move holder limit selfId s r.effects r.state := by
  obtain ⟨m, p, now, anchor, hfits, rfl⟩ := h.outcome
  exact .accrue h.idle hf.1 hf.2 hfits

/-- The accrual before a transfer of value is a steady chain from an idle state. -/
theorem refreshFees_steady (hs : s.totalShares < 2 ^ 128) (hf : config.fees.PaidTo holder)
    (h : refreshFeesBeforeValueTransfer s config nowNs = .ok r) :
    Steady holder limit selfId s r.effects r.state := by
  rcases refreshFees_cases hs h with rfl | ha
  · exact .refl
  · have same : r.state.opState = s.opState := by
      obtain ⟨m, p, now, anchor, -, rfl⟩ := ha.outcome
      rfl
    exact .tail .refl (ha.move hf) same

theorem payAtomicExit_moves {a : KernelResult A} {shares assetsOut : Nat}
    (hidle : s.opState = .idle) (ho : holder owner)
    (before : Steady holder limit selfId s a.effects a.state)
    (h : payAtomicExit a owner receiver operator shares assetsOut = .ok r) :
    Moves holder limit selfId s r.effects r.state := by
  obtain ⟨h₁, h₂, h₃, rfl⟩ := payAtomicExit_eq_ok.mp h
  exact .last before (.exit (before.opState_eq.trans hidle) ho h₁ h₂ h₃)

/-- Where a scan stopped: at a state `v`, with the state `u` it returns. A request is the head of
`v` under a fresh operation id. -/
def StoppedAt (v u : VaultState A) : WithdrawalQueueOutcome A → Prop
  | .ready request => ∃ id w, v.withdrawQueue.head = some (id, w) ∧ w.expectedAssets ≠ 0 ∧
      w.expectedAssets ≤ v.idleAssets ∧
      request = ⟨v.nextOpId, id, w.expectedAssets, w.receiver, w.owner, w.escrowShares⟩ ∧
      u = { v with nextOpId := v.nextOpId + 1 }
  | _ => u = v

/-- The scan skips steadily; what it has skipped so far is in its accumulator. -/
theorem nextWithdrawalQueueOutcomeLoop_steady {outcome : WithdrawalQueueOutcome A}
    (rounds : Nat) (before : Steady holder limit selfId s E t) (hidle : t.opState = .idle)
    (h : nextWithdrawalQueueOutcomeLoop config restrictions selfId nowNs rounds t E =
      .ok (outcome, u, F)) :
    ∃ v, Steady holder limit selfId s F v ∧ v.opState = .idle ∧ StoppedAt v u outcome ∧
      t.SameNav u ∧ u.externalAssets = t.externalAssets := by
  induction rounds generalizing t E with
  | zero => cases h
  | succ rounds ih =>
    unfold nextWithdrawalQueueOutcomeLoop at h
    split at h
    · cases h
      exact ⟨_, before, hidle, rfl, ⟨rfl, rfl⟩, rfl⟩
    · rename_i id w hhead
      split at h
      · -- a skipped head: one more move, and the scan goes on
        obtain ⟨x, hx, h⟩ := bind_eq_ok.mp h
        obtain ⟨id', w', queue, hq, rfl⟩ := dequeueSkippedWithdrawal_eq_ok hx
        refine ih (t := { t with withdrawQueue := queue }) ?_ hidle h
        rw [List.append_assoc]
        exact .tail before (.skip hidle hq) rfl
      · cases h
        exact ⟨_, before, hidle, rfl, ⟨rfl, rfl⟩, rfl⟩
      · cases h
        exact ⟨_, before, hidle, rfl, ⟨rfl, rfl⟩, rfl⟩
      · rename_i hready
        simp only [do_ok] at h
        obtain ⟨x, hx, rfl, rfl, rfl⟩ := h
        cases withdrawalRequestFromHead_eq_ok hx
        obtain ⟨hne, hle⟩ := classifyWithdrawalHead_ready hready
        exact ⟨t, before, hidle, ⟨id, w, hhead, hne, hle, rfl, rfl⟩, ⟨rfl, rfl⟩, rfl⟩

theorem handleExecuteWithdraw_moves
    (h : handleExecuteWithdraw s config restrictions selfId nowNs = .ok r) :
    Moves holder limit selfId s r.effects r.state ∧ s.SameNav r.state := by
  simp only [handleExecuteWithdraw, do_ok, OpState.isIdle_iff] at h
  obtain ⟨hidle, -, ⟨outcome, u, F⟩, hscan, h⟩ := h
  have start : Steady holder limit selfId s [] s := .refl
  obtain ⟨v, hv, hvidle, hout, hnav, -⟩ := nextWithdrawalQueueOutcomeLoop_steady _ start hidle hscan
  cases outcome with
  | ready request =>
    obtain ⟨id, w, hhead, hne, hle, rfl, rfl⟩ := hout
    simp only [do_ok, applyTransitionResult_eq_ok, startWithdrawal_eq_ok] at h
    obtain ⟨_, ⟨_, ⟨-, -, hw, rfl⟩, rfl⟩, rfl⟩ := h
    exact ⟨.last hv (.start hvidle hhead hne hw hle), hnav⟩
  | none | coolingDown requestedAtNs | insufficientLiquidity =>
    cases hout
    obtain ⟨-, rfl⟩ := doneIfSkipped_eq_ok.mp h
    exact ⟨.steady hv, hnav⟩

theorem handleAbortRefreshing_move (h : handleAbortRefreshing s opId = .ok r) :
    Move holder limit selfId s r.effects r.state := by
  obtain ⟨f, hop, -, rfl⟩ := handleAbortRefreshing_eq_ok h
  exact .shift .nil rfl rfl id (.inl ⟨by rw [hop]; rfl, rfl⟩) (.inl trivial)

theorem handleAbortAllocating_move (h : handleAbortAllocating s opId = .ok r) :
    Move holder limit selfId s r.effects r.state := by
  obtain ⟨alloc, hop, -, -, rfl⟩ := handleAbortAllocating_eq_ok h
  exact .shift .nil rfl rfl (fun _ => rfl) (.inl ⟨by rw [hop]; rfl, rfl⟩) (.inl trivial)

theorem handleAbortWithdrawing_move (h : handleAbortWithdrawing s selfId opId = .ok r) :
    Move holder limit selfId s r.effects r.state := by
  obtain ⟨w, o, queue, hop, -, -, hq, rfl⟩ := handleAbortWithdrawing_eq_ok h
  exact .release (c := ⟨w.requestId, w.owner, w.receiver, w.escrowShares⟩) (by rw [hop]; rfl) hq rfl
    rfl (fun _ => rfl) rfl

theorem handleSettlePayout_move {outcome : PayoutOutcome}
    (h : handleSettlePayout s selfId opId outcome = .ok r) :
    Move holder limit selfId s r.effects r.state := by
  obtain ⟨p, o, queue, hop, -, hq, h⟩ := handleSettlePayout_eq_ok h
  cases outcome with
  | success =>
    obtain ⟨hburn, htotal, hamount, -, rfl⟩ := h
    exact .pay hop hq rfl hburn htotal rfl hamount rfl rfl rfl
  | failure =>
    cases h
    exact .release (c := ⟨p.requestId, p.owner, p.receiver, p.escrowShares⟩) (by rw [hop]; rfl) hq
      rfl rfl id rfl

theorem handleEmergencyReset_move (h : handleEmergencyReset s selfId = .ok r) :
    Move holder limit selfId s r.effects r.state := by
  have h := handleEmergencyReset_eq_ok h
  cases hop : s.opState with
  | idle =>
    rw [hop] at h
    exact h.elim
  | refreshing f =>
    rw [hop] at h
    cases h
    exact .shift (.event rfl) rfl rfl id (.inl ⟨by rw [hop]; rfl, rfl⟩) (.inl trivial)
  | allocating alloc =>
    rw [hop] at h
    obtain ⟨-, rfl⟩ := h
    exact .shift (.event rfl) rfl rfl (fun _ => rfl) (.inl ⟨by rw [hop]; rfl, rfl⟩) (.inl trivial)
  | withdrawing w =>
    rw [hop] at h
    obtain ⟨-, o, queue, hq, rfl⟩ := h
    exact .release (c := ⟨w.requestId, w.owner, w.receiver, w.escrowShares⟩) (by rw [hop]; rfl) hq
      rfl rfl (fun _ => rfl) rfl
  | payout p =>
    rw [hop] at h
    obtain ⟨-, o, queue, hq, rfl⟩ := h
    exact .release (c := ⟨p.requestId, p.owner, p.receiver, p.escrowShares⟩) (by rw [hop]; rfl) hq
      rfl rfl (fun _ => rfl) rfl

theorem startIdlePayout_move {minWithdrawalAssets : Nat}
    (h : startIdlePayout s minWithdrawalAssets = .ok r) :
    Move holder limit selfId s r.effects r.state := by
  obtain ⟨w, id, q, hop, hhead, hescrow, hx, hliq, -, rfl⟩ := startIdlePayout_eq_ok h
  exact .settle hop hhead hescrow hx hliq rfl

end

/-- A call of the kernel with everything it is given, or the runtime's payout step. -/
inductive Call (A : Type) where
  | act (config : VaultConfig A) (restrictions : Option (Restrictions A))
      (selfId : A) (action : KernelAction A)
  | payout (minWithdrawalAssets : Nat)

namespace Call

/-- The accounts an action gives shares to or takes shares from, the vault's escrow apart. -/
def holders : Call A → List A
  | act config _ _ action =>
    config.fees.management.recipient :: config.fees.performance.recipient ::
      match action with
      | .deposit _ receiver _ _ _ => [receiver]
      | .atomicWithdraw owner _ _ _ _ _ => [owner]
      | .atomicRedeem owner _ _ _ _ _ => [owner]
      | .requestWithdraw owner _ _ _ _ => [owner]
      | _ => []
  | payout _ => []

/-- Whether the configuration of a call allows at most `limit` pending requests. A configuration
over the kernel's own maximum allows none: requests under it fail. -/
def Within (limit : Nat) : Call A → Prop
  | act config _ _ _ => config.maxPendingWithdrawals ≤ maxPending → config.maxPendingWithdrawals ≤ limit
  | payout _ => True

theorem within_maxPending (call : Call A) : call.Within maxPending := by
  cases call with
  | act config restrictions selfId action => exact id
  | payout minWithdrawalAssets => trivial

instance (limit : Nat) (call : Call A) : Decidable (call.Within limit) :=
  match call with
  | act config _ _ _ => inferInstanceAs (Decidable
      (config.maxPendingWithdrawals ≤ maxPending → config.maxPendingWithdrawals ≤ limit))
  | payout _ => inferInstanceAs (Decidable True)

/-- Whether a call names `selfId` as the vault. -/
def IsFor (selfId : A) : Call A → Prop
  | act _ _ own _ => own = selfId
  | payout _ => True

variable [DecidableEq A]

instance (selfId : A) (call : Call A) : Decidable (call.IsFor selfId) :=
  match call with
  | act _ _ own _ => inferInstanceAs (Decidable (own = selfId))
  | payout _ => inferInstanceAs (Decidable True)

def result (s : VaultState A) : Call A → KernelM (KernelResult A)
  | act config restrictions selfId action => applyAction s config restrictions selfId action
  | payout minWithdrawalAssets => startIdlePayout s minWithdrawalAssets

/-- A call that fails changes nothing. -/
def next (s : VaultState A) (call : Call A) : VaultState A :=
  match call.result s with
  | .ok r => r.state
  | .error _ => s

variable {holder : A → Prop} {limit : Nat} {selfId : A} {s : VaultState A}
  {call : Call A} {r : KernelResult A}

/-- A successful call is a chain of moves. -/
theorem moves (hs : s.totalShares < 2 ^ 128) (hholder : ∀ a ∈ call.holders, holder a)
    (hlimit : call.Within limit) (hself : call.IsFor selfId) (h : call.result s = .ok r) :
    Moves holder limit selfId s r.effects r.state := by
  cases call with
  | payout minWithdrawalAssets => exact (startIdlePayout_move h).moves
  | act config restrictions own action =>
    cases hself
    have hf : config.fees.PaidTo holder := ⟨hholder _ (by simp [holders]), hholder _ (by simp [holders])⟩
    cases action with
    | deposit owner receiver assetsIn minSharesOut nowNs =>
      obtain ⟨a, n, hidle, -, ha, -, -, -, -, -, hfits, rfl⟩ := handleDeposit_eq_ok h
      have before : Steady holder limit selfId s a.effects a.state := refreshFees_steady hs hf ha
      have hr : holder receiver := hholder receiver (by simp [holders])
      exact .last before (.deposit (before.opState_eq.trans hidle) hr hfits)
    | atomicWithdraw owner receiver operator assetsOut maxSharesBurned nowNs =>
      obtain ⟨a, n, hidle, -, ha, -, -, -, -, hpay⟩ := handleAtomicWithdraw_eq_ok h
      have ho : holder owner := hholder owner (by simp [holders])
      exact payAtomicExit_moves hidle ho (refreshFees_steady hs hf ha) hpay
    | atomicRedeem owner receiver operator shares minAssetsOut nowNs =>
      obtain ⟨a, n, hidle, -, ha, -, -, -, hpay⟩ := handleAtomicRedeem_eq_ok h
      have ho : holder owner := hholder owner (by simp [holders])
      exact payAtomicExit_moves hidle ho (refreshFees_steady hs hf ha) hpay
    | requestWithdraw owner receiver shares minAssetsOut nowNs =>
      obtain ⟨a, expected, id, queue, hidle, hne, hvalid, ha, -, -, -, hq, rfl⟩ :=
        handleRequestWithdraw_eq_ok h
      have before : Steady holder limit selfId s a.effects a.state := refreshFees_steady hs hf ha
      have ho : holder owner := hholder owner (by simp [holders])
      exact .last before (.request (before.opState_eq.trans hidle) ho hne (hlimit hvalid) hq)
    | executeWithdraw nowNs => exact (handleExecuteWithdraw_moves h).1
    | beginAllocating opId plan nowNs =>
      obtain ⟨hidle, -, -, -, rfl⟩ := handleBeginAllocating_eq_ok h
      exact Move.moves (.shift (.event rfl) rfl rfl (fun _ => rfl) (.inl ⟨by rw [hidle]; rfl, rfl⟩)
        (.inl rfl))
    | finishAllocating opId nowNs =>
      obtain ⟨alloc, hop, -, rfl⟩ := handleFinishAllocating_eq_ok h
      exact Move.moves (.shift (.event rfl) rfl rfl id (.inl ⟨by rw [hop]; rfl, rfl⟩) (.inl trivial))
    | beginRefreshing opId plan nowNs =>
      obtain ⟨_, ht, rfl⟩ := applyTransitionResult_eq_ok.mp h
      obtain ⟨hidle, -, rfl⟩ := startRefresh_eq_ok.mp ht
      exact Move.moves (.shift (.event rfl) rfl rfl id (.inl ⟨by rw [hidle]; rfl, rfl⟩) (.inl trivial))
    | finishRefreshing opId nowNs =>
      obtain ⟨_, ht, rfl⟩ := applyTransitionResult_eq_ok.mp h
      obtain ⟨f, hop, -, rfl⟩ := completeRefresh_eq_ok.mp ht
      exact Move.moves (.shift (.event rfl) rfl rfl id (.inl ⟨by rw [hop]; rfl, rfl⟩) (.inl trivial))
    | syncExternalAssets newExternalAssets opId nowNs =>
      obtain ⟨-, -, -, -, rfl⟩ := handleSyncExternalAssets_eq_ok h
      exact Move.moves (.shift (.event rfl) rfl rfl (fun _ => rfl) (.inr ⟨rfl, rfl⟩) (.inr rfl))
    | rebalanceWithdraw opId amount nowNs =>
      obtain ⟨hop, -, -, rfl⟩ := handleRebalanceWithdraw_eq_ok h
      have hnone : s.opState.claimed = none := by
        rcases hop with hop | ⟨alloc, hop, -⟩ <;> rw [hop] <;> rfl
      exact Move.moves (.shift (.event rfl) rfl rfl (fun _ => rfl) (.inl ⟨hnone, hnone⟩) (.inr rfl))
    | abortRefreshing opId => exact (handleAbortRefreshing_move h).moves
    | abortAllocating opId => exact (handleAbortAllocating_move h).moves
    | abortWithdrawing opId => exact (handleAbortWithdrawing_move h).moves
    | settlePayout opId outcome => exact (handleSettlePayout_move h).moves
    | refreshFees nowNs => exact ((handleRefreshFees_accrual hs h).move hf).moves
    | emergencyReset => exact (handleEmergencyReset_move h).moves
    | pause paused =>
      cases h
      exact Move.moves (.shift (.event rfl) rfl rfl id (.inr ⟨rfl, rfl⟩) (.inr rfl))

end Call

/-- The state after a sequence of calls. -/
def runFrom [DecidableEq A] (s : VaultState A) (calls : List (Call A)) : VaultState A :=
  calls.foldl Call.next s

/-- What holds of a state and of what every call makes of it holds after a run. -/
theorem runFrom_induct [DecidableEq A] {P : VaultState A → Prop}
    {s : VaultState A} {calls : List (Call A)} (hs : P s)
    (step : ∀ t call r, call ∈ calls → P t → call.result t = .ok r → P r.state) :
    P (runFrom s calls) := by
  refine List.foldlRecOn calls Call.next hs ?_
  intro t ht call hmem
  unfold Call.next
  split
  · exact step t call _ hmem ht (by assumption)
  · exact ht

end Templar.Vault
