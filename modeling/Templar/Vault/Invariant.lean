import Templar.Vault.External

/-!
# Books, queue and operation of the kernel

The total is what is idle plus what is outside, the queue agrees with its cached totals, and an
operation on a withdrawal is always about the head of the queue. Every move keeps this, so every
run from the empty vault does.
-/

namespace Templar.Vault

open Checked

variable {A : Type} {id : Nat} {q : PendingWithdrawal A} {s : VaultState A}
  {rest : List (Nat × PendingWithdrawal A)}

/-- An operation that carries out the request `q` with number `id`. -/
inductive Serving (id : Nat) (q : PendingWithdrawal A) : OpState A → Prop
  | withdrawing (opId : Nat) : Serving id q
      (.withdrawing ⟨opId, id, 0, q.expectedAssets, 0, q.receiver, q.owner, q.escrowShares⟩)
  | payout (opId : Nat) : Serving id q
      (.payout ⟨opId, id, q.receiver, q.expectedAssets, q.owner, q.escrowShares, q.escrowShares⟩)

theorem Serving.claimed_eq {op : OpState A} (h : Serving id q op) :
    op.claimed = some ⟨id, q.owner, q.receiver, q.escrowShares⟩ := by
  cases h <;> rfl

/-- The head of the queue is being carried out, and the idle assets cover it. -/
structure Served (s : VaultState A) (id : Nat) (q : PendingWithdrawal A)
    (rest : List (Nat × PendingWithdrawal A)) : Prop where
  entries : s.withdrawQueue.entries = (id, q) :: rest
  serving : Serving id q s.opState
  expected : q.expectedAssets ≠ 0
  escrow : q.escrowShares ≠ 0
  covered : q.expectedAssets ≤ s.idleAssets

structure Sound (limit : Nat) (s : VaultState A) : Prop where
  balanced : s.Balanced
  shares : s.totalShares < 2 ^ 128
  queue : s.withdrawQueue.Wf
  room : s.withdrawQueue.len ≤ limit
  op : s.opState.claimed = none ∨ ∃ id q rest, Served s id q rest

namespace Sound

variable {limit : Nat} {s' : VaultState A}

theorem of_new : Sound limit (VaultState.new : VaultState A) where
  balanced := rfl
  shares := Nat.two_pow_pos 128
  queue := .of_new
  room := Nat.zero_le _
  op := .inl rfl

section

variable (h : Sound limit s)
include h

/-- The operation on a withdrawal serves the head. -/
theorem served {c : Claimed A} (hc : s.opState.claimed = some c) :
    ∃ q rest, Served s c.requestId q rest ∧ c = ⟨c.requestId, q.owner, q.receiver, q.escrowShares⟩ := by
  rcases h.op with hnone | ⟨id, q, rest, hq⟩
  · rw [hnone] at hc
    cases hc
  · cases hq.serving.claimed_eq.symm.trans hc
    exact ⟨q, rest, hq, rfl⟩

theorem served_of_withdrawing {w : WithdrawingState A}
    (hop : s.opState = .withdrawing w) : ∃ id q rest, Served s id q rest := by
  apply h.op.resolve_left
  rw [hop]
  exact Option.some_ne_none _

theorem served_of_payout {p : PayoutState A}
    (hop : s.opState = .payout p) : ∃ id q rest, Served s id q rest := by
  apply h.op.resolve_left
  rw [hop]
  exact Option.some_ne_none _

/-- A change outside queue and operation. -/
theorem of_idle (hbalanced : s'.Balanced) (hshares : s'.totalShares < 2 ^ 128)
    (hqueue : s'.withdrawQueue = s.withdrawQueue) (hop : s'.opState.claimed = none) :
    Sound limit s' where
  balanced := hbalanced
  shares := hshares
  queue := by
    rw [hqueue]
    exact h.queue
  room := by
    rw [hqueue]
    exact h.room
  op := .inl hop

/-- The head leaves the queue and no operation remains. -/
theorem of_dequeue {id : Nat} {q : PendingWithdrawal A}
    {rest : List (Nat × PendingWithdrawal A)} {o : Option (Nat × PendingWithdrawal A)}
    (he : s.withdrawQueue.entries = (id, q) :: rest)
    (hq : s.withdrawQueue.dequeue = .ok (o, s'.withdrawQueue)) (hbalanced : s'.Balanced)
    (hshares : s'.totalShares < 2 ^ 128) (hop : s'.opState.claimed = none) :
    Sound limit s' := by
  obtain ⟨queue, hq', hrest, hwf, -⟩ := h.queue.dequeue_of_cons he
  cases hq.symm.trans hq'
  have hlen : s.withdrawQueue.len = s'.withdrawQueue.len + 1 := by
    change s.withdrawQueue.entries.length = s'.withdrawQueue.entries.length + 1
    rw [he, hrest]
    rfl
  have hroom := h.room
  exact ⟨hbalanced, hshares, hwf, by omega, .inl hop⟩

end

end Sound

theorem Served.collected_eq_zero {w : WithdrawingState A} (h : Served s id q rest)
    (hop : s.opState = .withdrawing w) : w.collected = 0 := by
  have hserving : Serving id q (.withdrawing w) := hop ▸ h.serving
  cases hserving
  rfl

/-- A dequeue leaves the entries behind the head. -/
theorem Served.entries_of_dequeue {limit : Nat} {queue : WithdrawQueue A}
    {o : Option (Nat × PendingWithdrawal A)} (hserved : Served s id q rest)
    (hs : Sound limit s) (hq : s.withdrawQueue.dequeue = .ok (o, queue)) :
    s.withdrawQueue.entries = (id, q) :: queue.entries := by
  obtain ⟨queue', hq', hrest, -⟩ := hs.queue.dequeue_of_cons hserved.entries
  cases hq.symm.trans hq'
  rw [hserved.entries, hrest]

section

variable [DecidableEq A] {holder : A → Prop} {limit : Nat} {selfId : A} {s' : VaultState A}
  {E : List (KernelEffect A)} {r : KernelResult A}

theorem Move.sound (h : Move holder limit selfId s E s') (hs : Sound limit s) : Sound limit s' := by
  have hbalanced := hs.balanced
  have hshares := hs.shares
  unfold VaultState.Balanced at hbalanced
  cases h with
  | accrue idle _ _ fits =>
    exact hs.of_idle hbalanced fits rfl (by rw [idle]; rfl)
  | @deposit owner receiver assetsIn shares nowNs idle _ fits =>
    refine hs.of_idle ?_ fits rfl (by rw [depositResult, idle]; rfl)
    change s.totalAssets + assetsIn = s.idleAssets + assetsIn + s.externalAssets
    omega
  | @exit owner receiver operator shares assetsOut idle _ _ hidle _ =>
    refine hs.of_idle ?_ ?_ rfl (by rw [exitResult, idle]; rfl)
    · change s.totalAssets - assetsOut = s.idleAssets - assetsOut + s.externalAssets
      omega
    · change s.totalShares - shares < 2 ^ 128
      omega
  | @request w id max queue idle _ _ hmax hq =>
    obtain ⟨hlen, -, -, hentries, hwf, -⟩ := hs.queue.enqueue_eq_ok hq
    have hroom : queue.len = s.withdrawQueue.len + 1 := by
      change queue.entries.length = s.withdrawQueue.entries.length + 1
      rw [hentries, List.length_append]
      rfl
    exact ⟨hbalanced, hshares, hwf, by change queue.len ≤ limit; omega, .inl (by rw [idle]; rfl)⟩
  | skip idle hq =>
    exact hs.of_dequeue (hs.queue.entries_of_dequeue hq) hq hbalanced hshares (by rw [idle]; rfl)
  | @start w id idle hhead hx hw hliq =>
    obtain ⟨rest, he⟩ := hs.queue.entries_of_head hhead
    exact ⟨hbalanced, hshares, hs.queue, hs.room, .inr ⟨id, w, rest, he, .withdrawing _, hx, hw, hliq⟩⟩
  | @settle w q id event op hhead hescrow hx hliq _ =>
    obtain ⟨rest, he⟩ := hs.queue.entries_of_head hhead
    obtain ⟨id', q', rest', hserved⟩ := hs.served_of_withdrawing op
    cases he.symm.trans hserved.entries
    have hserving : Serving id q (.withdrawing w) := op ▸ hserved.serving
    cases hserving
    -- nothing was collected before, so the payout is the whole expected amount
    have hfit : 0 + q.expectedAssets < 2 ^ 128 := by
      have hsum := hs.queue.expected_lt
      rw [he, WithdrawQueue.expectedOf_cons] at hsum
      change q.expectedAssets + _ < _ at hsum
      omega
    have hcollected : saturatingAdd 128 0 q.expectedAssets = q.expectedAssets := by
      rw [saturatingAdd_of_lt hfit, Nat.zero_add]
    refine ⟨hbalanced, hshares, hs.queue, hs.room, .inr ⟨_, q, rest, he, ?_, hx, hserved.escrow, hliq⟩⟩
    simp only [WithdrawingState.advance, WithdrawingState.toPayout, hcollected]
    exact .payout _
  | shift _ hsame hqueue books hop _ =>
    rcases hop with ⟨-, hnone⟩ | ⟨hop, hidle⟩
    · exact hs.of_idle (books hs.balanced) (by rw [hsame]; exact hshares) hqueue hnone
    · refine ⟨books hs.balanced, by rw [hsame]; exact hshares, by rw [hqueue]; exact hs.queue,
        by rw [hqueue]; exact hs.room, ?_⟩
      rcases hs.op with hnone | ⟨id, q, rest, hq⟩
      · exact .inl (by rw [hop]; exact hnone)
      · exact .inr ⟨id, q, rest, by rw [hqueue]; exact hq.entries, by rw [hop]; exact hq.serving,
          hq.expected, hq.escrow, by rw [hidle]; exact hq.covered⟩
  | release op hq idle hsame books _ =>
    obtain ⟨q, rest, hserved, -⟩ := hs.served op
    exact hs.of_dequeue hserved.entries hq (books hs.balanced) (by rw [hsame]; exact hshares)
      (by rw [idle]; rfl)
  | pay op hq idle _ _ hsame _ _ books _ =>
    obtain ⟨q, rest, hserved, -⟩ := hs.served (by rw [op]; rfl)
    exact hs.of_dequeue hserved.entries hq books (by rw [hsame]; omega) (by rw [idle]; rfl)

theorem Call.sound {call : Call A} (hlimit : call.Within limit) (hs : Sound limit s)
    (h : call.result s = .ok r) : Sound limit r.state := by
  cases call with
  | payout minWithdrawalAssets =>
    obtain ⟨w, -⟩ := startIdlePayout_eq_ok h
    have move : Move (fun _ => True) limit w.owner s r.effects r.state := startIdlePayout_move h
    exact move.sound hs
  | act config restrictions own action =>
    have moves : Moves (fun _ => True) limit own s r.effects r.state :=
      Call.moves hs.shares (fun _ _ => trivial) hlimit rfl h
    exact moves.induct (fun move ht => move.sound ht) hs

/-- The invariant holds after every run from the empty vault. -/
theorem runFrom_sound {calls : List (Call A)} (hlimit : ∀ call ∈ calls, call.Within limit) :
    Sound limit (runFrom .new calls) :=
  runFrom_induct .of_new fun _ call _ hmem ht h => call.sound (hlimit call hmem) ht h

theorem Sound.validateQueueHead_eq (hs : Sound limit s) {c : Claimed A}
    (hc : s.opState.claimed = some c) :
    validateQueueHead s.withdrawQueue c.requestId c.owner c.receiver c.escrowShares = .ok () := by
  obtain ⟨q, rest, hserved, hq⟩ := hs.served hc
  rw [validateQueueHead_eq_ok]
  refine ⟨q, ?_, ?_⟩
  · rw [hs.queue.head_eq, hserved.entries]
    rfl
  · rw [hq]
    exact ⟨rfl, rfl, rfl⟩

/-- The payout of a withdrawal in progress can always be planned, and pays the head in full. -/
theorem Sound.planIdlePayout_eq (hs : Sound limit s) {w : WithdrawingState A}
    (hop : s.opState = .withdrawing w) (minWithdrawalAssets : Nat) :
    planIdlePayout s minWithdrawalAssets =
      .ok ⟨w.opId, w.requestId, w.owner, w.receiver, w.remaining, w.escrowShares⟩ := by
  obtain ⟨id, q, rest, hserved⟩ := hs.served_of_withdrawing hop
  have hserving : Serving id q (.withdrawing w) := hop ▸ hserved.serving
  cases hserving
  have hhead : s.withdrawQueue.head = some (id, q) := by
    rw [hs.queue.head_eq, hserved.entries]
    rfl
  simp [planIdlePayout, hhead, hop, hasActionableWithdrawalLiquidity, computeIdleSettlement,
    hserved.covered, hserved.expected, EscrowSettlement.burnAll, okOr, ensure, ok_bind]

/-- The actions that end an operation other than by finishing it. -/
def KernelAction.isEnd : KernelAction A → Bool
  | .abortRefreshing _ => true
  | .abortAllocating _ => true
  | .abortWithdrawing _ => true
  | .settlePayout _ _ => true
  | .emergencyReset => true
  | _ => false

/-- An end takes the operation to idle by a single move. -/
theorem applyAction_end {config : VaultConfig A}
    {restrictions : Option (Restrictions A)} {action : KernelAction A}
    (hend : action.isEnd = true) (h : applyAction s config restrictions selfId action = .ok r) :
    s.opState ≠ .idle ∧ r.state.opState = .idle ∧ Move holder limit selfId s r.effects r.state := by
  cases action with
  | abortRefreshing opId =>
    have move : Move holder limit selfId s r.effects r.state := handleAbortRefreshing_move h
    obtain ⟨f, hop, -, rfl⟩ := handleAbortRefreshing_eq_ok h
    exact ⟨by simp [hop], rfl, move⟩
  | abortAllocating opId =>
    have move : Move holder limit selfId s r.effects r.state := handleAbortAllocating_move h
    obtain ⟨alloc, hop, -, -, rfl⟩ := handleAbortAllocating_eq_ok h
    exact ⟨by simp [hop], rfl, move⟩
  | abortWithdrawing opId =>
    have move : Move holder limit selfId s r.effects r.state := handleAbortWithdrawing_move h
    obtain ⟨w, o, queue, hop, -, -, -, rfl⟩ := handleAbortWithdrawing_eq_ok h
    exact ⟨by simp [hop], rfl, move⟩
  | settlePayout opId outcome =>
    have move : Move holder limit selfId s r.effects r.state := handleSettlePayout_move h
    obtain ⟨p, o, queue, hop, -⟩ := handleSettlePayout_eq_ok h
    exact ⟨by simp [hop], (handleSettlePayout_untouched h).2, move⟩
  | emergencyReset =>
    have move : Move holder limit selfId s r.effects r.state := handleEmergencyReset_move h
    have hr := handleEmergencyReset_eq_ok h
    refine ⟨?_, (handleEmergencyReset_untouched h).2, move⟩
    intro hop
    rw [hop] at hr
    exact hr
  | _ => cases hend

/-- What an end does to shares and queue. Without a request behind the operation it touches
neither; otherwise the head leaves the queue, and its escrow goes back to its owner or, for a
payout, is burned against the assets it was worth. -/
def RemovesItsRequest (selfId : A) (s : VaultState A) (r : KernelResult A) : Prop :=
  match s.opState.claimed with
  | none => r.state.withdrawQueue = s.withdrawQueue ∧ r.state.totalShares = s.totalShares ∧
      Quiet r.effects
  | some c => ∃ (q : PendingWithdrawal A) (event : KernelEvent A),
      s.withdrawQueue.entries = (c.requestId, q) :: r.state.withdrawQueue.entries ∧
      q.owner = c.owner ∧ q.receiver = c.receiver ∧ q.escrowShares = c.escrowShares ∧
      ((r.effects = [.transferShares selfId q.owner q.escrowShares, .emitEvent event] ∧
          r.state.totalShares = s.totalShares) ∨
        (r.effects = [.burnShares selfId q.escrowShares, .emitEvent event] ∧
          r.state.totalShares + q.escrowShares = s.totalShares ∧
          r.state.idleAssets + q.expectedAssets = s.idleAssets))

theorem Move.removesItsRequest (h : Move holder limit selfId s r.effects r.state)
    (hs : Sound limit s) (hbusy : s.opState ≠ .idle) (hidle : r.state.opState = .idle) :
    RemovesItsRequest selfId s r := by
  obtain ⟨state, effects⟩ := r
  unfold RemovesItsRequest
  cases h with
  | accrue idle | deposit idle | exit idle | request idle | skip idle | start idle =>
    exact absurd idle hbusy
  | settle => cases hidle
  | shift quiet hshares hqueue _ hop _ =>
    rcases hop with ⟨hnone, -⟩ | ⟨hop, -⟩
    · rw [hnone]
      exact ⟨hqueue, hshares, quiet⟩
    · exact absurd (hop.symm.trans hidle) hbusy
  | @release _ c event o op hq _ hshares _ _ =>
    obtain ⟨q, rest, hserved, hc⟩ := hs.served op
    have he := hserved.entries_of_dequeue hs hq
    rw [op]
    rw [hc] at he ⊢
    refine ⟨q, event, he, rfl, rfl, rfl, .inl ⟨?_, hshares⟩⟩
    simp [refundShares, Nat.pos_of_ne_zero hserved.escrow]
  | @pay _ p event o op hq _ _ htotal hshares hamount hassets _ _ =>
    obtain ⟨id, q, rest, hserved⟩ := hs.served_of_payout op
    have he := hserved.entries_of_dequeue hs hq
    have hserving : Serving id q (.payout p) := op ▸ hserved.serving
    cases hserving
    rw [op]
    refine ⟨q, event, he, rfl, rfl, rfl, .inr ⟨?_, ?_, ?_⟩⟩
    · simp [refundShares, Nat.pos_of_ne_zero hserved.escrow]
    · change state.totalShares + q.escrowShares = s.totalShares
      change q.escrowShares ≤ s.totalShares at htotal
      change state.totalShares = s.totalShares - q.escrowShares at hshares
      omega
    · change state.idleAssets + q.expectedAssets = s.idleAssets
      change q.expectedAssets ≤ s.idleAssets at hamount
      change state.idleAssets = s.idleAssets - q.expectedAssets at hassets
      omega

/-- After every run the books balance, the queue passes its own check and an operation on a
withdrawal is about the head of the queue: the checks of the head never fail, and an operation
that ends takes exactly its own request out of the queue. -/
theorem books_and_head_stay_in_step {calls : List (Call A)}
    (hlimit : ∀ call ∈ calls, call.Within limit) :
    let s := runFrom .new calls
    s.totalAssets = s.idleAssets + s.externalAssets ∧
    s.withdrawQueue.checkInvariants = true ∧ s.withdrawQueue.len ≤ limit ∧
    (∀ c, s.opState.claimed = some c →
      (∃ q, s.withdrawQueue.head = some (c.requestId, q) ∧ q.owner = c.owner ∧
        q.receiver = c.receiver ∧ q.escrowShares = c.escrowShares) ∧
      validateQueueHead s.withdrawQueue c.requestId c.owner c.receiver c.escrowShares = .ok ()) ∧
    (∀ w, s.opState = .withdrawing w → ∀ minWithdrawalAssets,
      planIdlePayout s minWithdrawalAssets =
        .ok ⟨w.opId, w.requestId, w.owner, w.receiver, w.remaining, w.escrowShares⟩) ∧
    ∀ config restrictions selfId action r, action.isEnd = true →
      applyAction s config restrictions selfId action = .ok r → RemovesItsRequest selfId s r := by
  have hs := runFrom_sound hlimit
  refine ⟨hs.balanced, hs.queue.checkInvariants, hs.room, ?_, ?_, ?_⟩
  · intro c hc
    have hvalid := hs.validateQueueHead_eq hc
    exact ⟨validateQueueHead_eq_ok.mp hvalid, hvalid⟩
  · intro w hw minWithdrawalAssets
    exact hs.planIdlePayout_eq hw minWithdrawalAssets
  · intro config restrictions selfId action r hend h
    obtain ⟨hbusy, hidle, move⟩ : _ ∧ _ ∧ Move (fun _ => True) limit selfId _ _ _ :=
      applyAction_end hend h
    exact move.removesItsRequest hs hbusy hidle

end

/-- A vault without fees that takes four requests. -/
def plainConfig : VaultConfig Nat := ⟨⟨⟨0, 8⟩, ⟨0, 9⟩, none⟩, 0, 0, 4, false, 0, 0⟩

/-- A deposit, a request for part of it, and its execution up to the payout. -/
def payoutRun : List (Call Nat) :=
  [.act plainConfig none 0 (.deposit 1 1 100 0 5), .act plainConfig none 0 (.requestWithdraw 1 2 40 0 6),
    .act plainConfig none 0 (.executeWithdraw 7), .payout 0]

theorem books_and_head_stay_in_step_payoutRun :
    (runFrom .new payoutRun).opState = .payout ⟨0, 0, 2, 40, 1, 40, 40⟩ ∧
      validateQueueHead (runFrom .new payoutRun).withdrawQueue 0 1 2 40 = .ok () := by
  have hop : (runFrom .new payoutRun).opState = .payout ⟨0, 0, 2, 40, 1, 40, 40⟩ := by
    decide +kernel
  have hlimit : ∀ call ∈ payoutRun, call.Within 4 := by decide
  obtain ⟨-, -, -, hhead, -⟩ := books_and_head_stay_in_step hlimit
  exact ⟨hop, (hhead ⟨0, 1, 2, 40⟩ (by rw [hop]; rfl)).2⟩

end Templar.Vault
