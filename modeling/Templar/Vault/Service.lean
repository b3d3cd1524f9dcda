import Templar.Vault.Invariant

/-!
# The order of service

An execution drops the longest prefix of the queue that has to be skipped, giving every escrow
back, and then starts the first request that is left or nothing. The scan is its last round on the
queue without that prefix.
-/

namespace Templar.Vault

open Checked List

variable {A : Type} [DecidableEq A]

section

variable (restrictions : Option (Restrictions A)) (selfId : A) (e : Nat × PendingWithdrawal A)

def skipReason : Option WithdrawalSkipReason :=
  pendingWithdrawalSkipReason restrictions selfId e.2.owner e.2.receiver e.2.expectedAssets

def isSkipped : Bool := (skipReason restrictions selfId e).isSome

/-- The escrow goes back to the owner, with a note of the reason. -/
def skipEffects : List (KernelEffect A) :=
  match skipReason restrictions selfId e with
  | some reason => refundShares selfId e.2.owner e.2.escrowShares ++ [.emitEvent (.withdrawalSkipped
      e.1 e.2.owner e.2.receiver e.2.escrowShares e.2.expectedAssets reason)]
  | none => []

end

variable {config : VaultConfig A} {restrictions : Option (Restrictions A)} {selfId : A}
  {nowNs : Nat} {E : List (KernelEffect A)}

/-- Once there are more rounds than requests their number does not matter. -/
theorem nextWithdrawalQueueOutcomeLoop_eq {t : VaultState A} (hq : t.withdrawQueue.Wf) :
    ∃ queue, queue.Wf ∧
      queue.entries = t.withdrawQueue.entries.dropWhile (isSkipped restrictions selfId) ∧
      ∀ rounds > t.withdrawQueue.entries.length,
        nextWithdrawalQueueOutcomeLoop config restrictions selfId nowNs rounds t E =
          nextWithdrawalQueueOutcomeLoop config restrictions selfId nowNs 1
            { t with withdrawQueue := queue } (E ++ (t.withdrawQueue.entries.takeWhile
              (isSkipped restrictions selfId)).flatMap (skipEffects restrictions selfId)) := by
  have hhead := hq.head_eq
  induction he : t.withdrawQueue.entries generalizing t E with
  | nil =>
    refine ⟨t.withdrawQueue, hq, he, fun rounds hr => ?_⟩
    obtain ⟨rounds, rfl⟩ := Nat.exists_eq_add_of_lt hr
    rw [he] at hhead
    simp [nextWithdrawalQueueOutcomeLoop, hhead]
  | cons e rest ih =>
    rw [he] at hhead
    cases hreason : skipReason restrictions selfId e with
    | none =>
      have hkept : isSkipped restrictions selfId e = false := by simp [isSkipped, hreason]
      refine ⟨t.withdrawQueue, hq, by simp [he, hkept], fun rounds hr => ?_⟩
      obtain ⟨rounds, rfl⟩ := Nat.exists_eq_add_of_lt hr
      unfold skipReason at hreason
      simp only [takeWhile_cons, hkept, Bool.false_eq_true, if_false, flatMap_nil, append_nil,
        nextWithdrawalQueueOutcomeLoop, hhead, head?_cons, classifyWithdrawalHead, hreason]
      split_ifs <;> rfl
    | some reason =>
      obtain ⟨queue, hdequeue, rfl, hwf, -⟩ := hq.dequeue_of_cons he
      obtain ⟨final, hfinal, hentries, hloop⟩ := ih (t := { t with withdrawQueue := queue })
        (E := E ++ skipEffects restrictions selfId e) hwf hwf.head_eq rfl
      have hskipped : isSkipped restrictions selfId e = true := by simp [isSkipped, hreason]
      have hdrop : dequeueSkippedWithdrawal t selfId E reason =
          .ok ({ t with withdrawQueue := queue }, E ++ skipEffects restrictions selfId e) := by
        simp only [dequeueSkippedWithdrawal, hdequeue, skipEffects, hreason, ← append_assoc]
        rfl
      refine ⟨final, hfinal, by rw [hentries, dropWhile_cons_of_pos hskipped],
        fun rounds hr => ?_⟩
      obtain ⟨rounds, rfl⟩ := Nat.exists_eq_add_of_lt hr
      have hmore : queue.entries.length < (e :: queue.entries).length + rounds := by
        rw [length_cons]
        omega
      unfold skipReason at hreason
      rw [nextWithdrawalQueueOutcomeLoop, hhead]
      simp only [head?_cons, classifyWithdrawalHead, hreason, hdrop, ok_bind, hloop _ hmore,
        takeWhile_cons_of_pos hskipped, flatMap_cons, append_assoc]

/-- Nothing is skipped silently. -/
theorem flatMap_skipEffects_eq_nil {l : List (Nat × PendingWithdrawal A)} :
    (l.takeWhile (isSkipped restrictions selfId)).flatMap (skipEffects restrictions selfId) = [] ↔
      l.takeWhile (isSkipped restrictions selfId) = [] := by
  constructor
  · intro h
    rw [eq_nil_iff_forall_not_mem]
    intro e he
    have hskipped := all_eq_true.mp all_takeWhile e he
    have hnone := flatMap_eq_nil_iff.mp h e he
    cases hreason : skipReason restrictions selfId e <;> simp_all [isSkipped, skipEffects]
  · intro h
    rw [h, flatMap_nil]

/-- A request whose cooldown has passed and which the idle assets cover. -/
def isServable (config : VaultConfig A) (nowNs idleAssets : Nat) (w : PendingWithdrawal A) : Bool :=
  isPastCooldown w.requestedAtNs nowNs config.withdrawalCooldownNs &&
    hasActionableWithdrawalLiquidity w.expectedAssets idleAssets

/-- An execution drops the requests at the front that have to be skipped, and starts the next one,
or is done if there were any. -/
theorem queue_is_served_in_order (s : VaultState A) (config : VaultConfig A)
    (restrictions : Option (Restrictions A)) (selfId : A) (nowNs : Nat) (hidle : s.opState = .idle)
    (hq : s.withdrawQueue.Wf) :
    let gone := s.withdrawQueue.entries.takeWhile (isSkipped restrictions selfId)
    let rest := s.withdrawQueue.entries.dropWhile (isSkipped restrictions selfId)
    let refunds := gone.flatMap (skipEffects restrictions selfId)
    (∀ rounds > s.withdrawQueue.entries.length,
      nextWithdrawalQueueOutcomeLoop config restrictions selfId nowNs rounds s [] =
        nextWithdrawalQueueOutcome s config restrictions selfId nowNs) ∧
    ∃ queue : WithdrawQueue A, queue.Wf ∧ queue.entries = rest ∧
      ∀ r, handleExecuteWithdraw s config restrictions selfId nowNs = .ok r ↔ config.paused = false ∧
        match rest.head?.filter fun e => isServable config nowNs s.idleAssets e.2 with
        | none => gone ≠ [] ∧ r = ⟨{ s with withdrawQueue := queue }, refunds⟩
        | some (id, w) => s.nextOpId + 1 < 2 ^ 64 ∧ w.escrowShares ≠ 0 ∧ r =
            ⟨{ s with
                withdrawQueue := queue
                nextOpId := s.nextOpId + 1
                opState := .withdrawing ⟨s.nextOpId, id, 0, w.expectedAssets, 0, w.receiver, w.owner,
                  w.escrowShares⟩ },
              refunds ++ [.emitEvent (.withdrawalStarted s.nextOpId w.expectedAssets w.escrowShares
                w.owner w.receiver)]⟩ := by
  intro gone rest refunds
  obtain ⟨queue, hwf, hentries, hloop⟩ :=
    @nextWithdrawalQueueOutcomeLoop_eq A _ config restrictions selfId nowNs [] s hq
  have hscan : nextWithdrawalQueueOutcome s config restrictions selfId nowNs = _ :=
    hloop _ (Nat.lt_succ_self _)
  refine ⟨fun rounds hr => (hloop rounds hr).trans hscan.symm, queue, hwf, hentries, fun r => ?_⟩
  have hgone : gone ≠ [] ↔ refunds ≠ [] := not_congr flatMap_skipEffects_eq_nil.symm
  have hrest : rest = queue.entries := hentries.symm
  rw [hgone, hrest]
  simp only [handleExecuteWithdraw, hidle, hscan, do_ok, OpState.isIdle_iff, true_and,
    nextWithdrawalQueueOutcomeLoop, hwf.head_eq, nil_append]
  refine and_congr_right fun _ => ?_
  cases hhead : queue.entries.head? with
  | none => simp [doneIfSkipped_eq_ok, refunds, gone]
  | some e =>
    have hkept : skipReason restrictions selfId e = none := by
      have := head?_dropWhile_not (isSkipped restrictions selfId) s.withdrawQueue.entries
      rw [← hentries, hhead] at this
      simpa [isSkipped] using this
    simp only [classifyWithdrawalHead]
    rw [show pendingWithdrawalSkipReason restrictions selfId e.2.owner e.2.receiver
      e.2.expectedAssets = none from hkept]
    by_cases hcool : isPastCooldown e.2.requestedAtNs nowNs config.withdrawalCooldownNs = true
    · by_cases hliq : hasActionableWithdrawalLiquidity e.2.expectedAssets s.idleAssets = true
      · have hx : e.2.expectedAssets ≠ 0 := by
          intro hx
          simp only [skipReason, pendingWithdrawalSkipReason, hx] at hkept
          split at hkept <;> simp at hkept
        simp [isServable, hcool, hliq, Option.filter_some, withdrawalRequestFromHead, do_ok,
          VaultState.allocateOpId_eq_ok, applyTransitionResult_eq_ok, startWithdrawal_eq_ok,
          WithdrawalRequest.start, hx, -bind_pure_comp, refunds, gone]
      · simp [isServable, hcool, hliq, Option.filter_some, doneIfSkipped_eq_ok, refunds, gone]
    · simp [isServable, hcool, Option.filter_some, doneIfSkipped_eq_ok, refunds, gone]

/-- A request that is worth nothing, and behind it one that can be paid. -/
def queued (nextOpId : Nat) : VaultState Nat :=
  { VaultState.new with
    idleAssets := 5
    nextOpId := nextOpId
    withdrawQueue := ⟨(PendingWithdrawals.new.insert 0 ⟨1, 1, 3, 0, 0⟩).insert 1 ⟨2, 2, 4, 5, 0⟩,
      0, 2, 7, 5⟩ }

theorem queued_wf : (queued 0).withdrawQueue.Wf :=
  ⟨rfl, by decide, rfl, rfl, by decide, by decide⟩

theorem queue_is_served_in_order_queued :
    ∃ r, handleExecuteWithdraw (queued 0) plainConfig none 0 1 = .ok r ∧
      r.state.opState = .withdrawing ⟨0, 1, 0, 5, 0, 2, 2, 4⟩ ∧
      .transferShares 0 1 3 ∈ r.effects := by
  obtain ⟨-, queue, -, -, h⟩ :=
    queue_is_served_in_order (queued 0) plainConfig none 0 1 rfl queued_wf
  exact ⟨_, (h _).mpr ⟨rfl, by decide, by decide, rfl⟩, rfl, .head _⟩

/-- Without an operation id left nothing is dropped either. -/
theorem no_service_without_op_id :
    (queued (2 ^ 64 - 1)).withdrawQueue.Wf ∧
      (queued (2 ^ 64 - 1)).withdrawQueue.entries.takeWhile (isSkipped none 0) ≠ [] ∧
      handleExecuteWithdraw (queued (2 ^ 64 - 1)) plainConfig none 0 1 = .error (.abort .overflow) :=
  ⟨queued_wf, by decide, rfl⟩

end Templar.Vault
