import Templar.Lib.Balances
import Templar.Vault.Invariant

/-!
# Replaying the share effects

The kernel keeps a total of shares and a queue of escrows; the balances themselves are kept
outside, by whoever applies its effects. Here the effects of a run are applied to a ledger, and
every outflow from the vault's own account is charged to a request: to the one a skip names, or
to the one of the operation that an event closes.
-/

namespace Templar.Vault

open Balances KernelEffect WithdrawQueue List

variable {A : Type}

/-- Shares that leave the escrow. -/
inductive Outflow (A : Type) where
  | burned (shares : Nat)
  | sent (target : A) (shares : Nat)
  deriving DecidableEq, Repr

/-- A request as it was announced. -/
structure Announced (A : Type) where
  id : Nat
  owner : A
  shares : Nat
  deriving DecidableEq, Repr

structure Journal (A : Type) where
  /-- Outflows that no event has explained yet. -/
  held : List (Outflow A)
  requests : List (Announced A)
  releases : List (Nat × Outflow A)

def Journal.new : Journal A := ⟨[], [], []⟩

def Journal.close (j : Journal A) (id : Nat) : Journal A :=
  { j with held := [], releases := j.releases ++ j.held.map (fun o => (id, o)) }

section

variable [DecidableEq A] {id : Nat}

/-- What an outflow gives the owner of a request: shares burned for them or sent to them. -/
def Outflow.toOwner (owner : A) : Outflow A → Nat
  | burned shares => shares
  | sent target shares => if target = owner then shares else 0

/-- Burned for a request or returned to its owner, over the whole journal. -/
def Journal.released (j : Journal A) (id : Nat) (owner : A) : Nat :=
  ((j.releases.filter (fun x => x.1 = id)).map (fun x => x.2.toOwner owner)).sum

/-- One effect in the journal; `current` is the request of the operation in progress. -/
def Journal.record (selfId : A) (current : Option Nat) (j : Journal A) : KernelEffect A → Journal A
  | .burnShares owner shares =>
    if owner = selfId then { j with held := j.held ++ [.burned shares] } else j
  | .burnSharesFrom _ owner shares =>
    if owner = selfId then { j with held := j.held ++ [.burned shares] } else j
  | .transferShares source target shares =>
    if source = selfId then { j with held := j.held ++ [.sent target shares] } else j
  | .emitEvent (.withdrawalRequested id owner _ shares _) =>
    { j with requests := j.requests ++ [⟨id, owner, shares⟩] }
  | .emitEvent (.withdrawalSkipped id _ _ _ _ _) => j.close id
  | .emitEvent event =>
    if event.isClosing then current.elim j j.close else j
  | _ => j

def Journal.recordAll (selfId : A) (current : Option Nat) (j : Journal A)
    (effects : List (KernelEffect A)) : Journal A :=
  effects.foldl (Journal.record selfId current) j

def applyShares (b : Balances A) : KernelEffect A → Option (Balances A)
  | .mintShares owner shares => some (b.mint owner shares)
  | .burnShares owner shares => b.burn owner shares
  | .burnSharesFrom _ owner shares => b.burn owner shares
  | .transferShares source target shares => b.transfer source target shares
  | _ => some b

/-- All effects of one action, or nothing when one of them overdraws an account. -/
def replayShares (b : Balances A) (effects : List (KernelEffect A)) : Option (Balances A) :=
  effects.foldlM applyShares b

/-- Whether an effect takes shares out of the vault's own account. -/
def KernelEffect.leavesEscrow (selfId : A) : KernelEffect A → Bool
  | .burnShares owner _ => owner = selfId
  | .burnSharesFrom _ owner _ => owner = selfId
  | .transferShares source _ _ => source = selfId
  | _ => false

/-- No effect that leaves the escrow is refused when the effects before it have been applied. -/
def EscrowPays (selfId : A) : Balances A → List (KernelEffect A) → Prop
  | _, [] => True
  | b, e :: effects => (e.leavesEscrow selfId = true → (applyShares b e).isSome = true) ∧
      ∀ c, applyShares b e = some c → EscrowPays selfId c effects

structure Replay (A : Type) where
  vault : VaultState A
  ledger : Balances A
  journal : Journal A

def Replay.new : Replay A := ⟨.new, ∅, .new⟩

def OpState.currentRequest (op : OpState A) : Option Nat := op.claimed.map Claimed.requestId

/-- A call that fails, or whose effects the ledger refuses, changes nothing. -/
def Replay.next (selfId : A) (x : Replay A) (call : Call A) : Replay A :=
  match call.result x.vault with
  | .error _ => x
  | .ok r =>
    match replayShares x.ledger r.effects with
    | none => x
    | some ledger =>
      ⟨r.state, ledger, x.journal.recordAll selfId x.vault.opState.currentRequest r.effects⟩

def Replay.run (selfId : A) (calls : List (Call A)) : Replay A :=
  calls.foldl (Replay.next selfId) .new

/-- `Q` holds of ledger and journal once the effects have been applied, unless the ledger refuses
one of them; and it refuses none that leaves the escrow. -/
def Delivers (selfId : A) (current : Option Nat) (Q : Balances A → Journal A → Prop) :
    Balances A → Journal A → List (KernelEffect A) → Prop
  | b, j, [] => Q b j
  | b, j, e :: effects => (e.leavesEscrow selfId = true → (applyShares b e).isSome = true) ∧
      ∀ c, applyShares b e = some c → Delivers selfId current Q c (j.record selfId current e) effects

variable {selfId owner receiver : A} {current : Option Nat} {b : Balances A}
  {j : Journal A} {E F : List (KernelEffect A)} {n : Nat}
  {Q R : Balances A → Journal A → Prop}

namespace Delivers

theorem append (h : Delivers selfId current (fun c k => Delivers selfId current Q c k F) b j E) :
    Delivers selfId current Q b j (E ++ F) := by
  induction E generalizing b j with
  | nil => exact h
  | cons e E ih => exact ⟨h.1, fun c hc => ih (h.2 c hc)⟩

section

variable (h : Delivers selfId current Q b j E)
include h

theorem mono (hQ : ∀ c k, Q c k → R c k) : Delivers selfId current R b j E := by
  induction E generalizing b j with
  | nil => exact hQ b j h
  | cons e E ih => exact ⟨h.1, fun c hc => ih (h.2 c hc)⟩

theorem escrowPays : EscrowPays selfId b E := by
  induction E generalizing b j with
  | nil => trivial
  | cons e E ih => exact ⟨h.1, fun c hc => ih (h.2 c hc)⟩

theorem replay {c : Balances A}
    (hc : replayShares b E = some c) : Q c (j.recordAll selfId current E) := by
  induction E generalizing b j with
  | nil =>
    cases hc
    exact h
  | cons e E ih =>
    obtain ⟨d, hd, hc⟩ := Option.bind_eq_some_iff.mp hc
    exact ih (h.2 d hd) hc

end

theorem event {event : KernelEvent A} (h : Q b (j.record selfId current (.emitEvent event))) :
    Delivers selfId current Q b j [.emitEvent event] := by
  refine ⟨by simp [leavesEscrow], ?_⟩
  intro c hc
  cases hc
  exact h

theorem mintFeeShares (hne : owner ≠ selfId)
    (h : ∀ c, c.supply = b.supply + n → c.balance selfId = b.balance selfId → Q c j) :
    Delivers selfId current Q b j (mintFeeShares owner n) := by
  unfold Vault.mintFeeShares
  split
  · refine ⟨by simp [leavesEscrow], ?_⟩
    intro c hc
    cases hc
    exact h _ supply_mint (balance_mint_other hne.symm)
  · obtain rfl : n = 0 := by omega
    exact h b rfl rfl

/-- Shares leave the escrow; they wait for the event that says why. -/
theorem outflow {e : KernelEffect A} {o : Outflow A} {burned : Nat}
    (hpays : (applyShares b e).isSome = true)
    (hrecord : j.record selfId current e = { j with held := j.held ++ [o] })
    (happlied : ∀ c, applyShares b e = some c →
      c.supply + burned = b.supply ∧ c.balance selfId = b.balance selfId - n)
    (hzero : n = 0 → burned = 0)
    (h : ∀ c, c.supply + burned = b.supply → c.balance selfId = b.balance selfId - n →
      Q c { j with held := j.held ++ if 0 < n then [o] else [] }) :
    Delivers selfId current Q b j (if 0 < n then [e] else []) := by
  by_cases hpos : 0 < n
  · rw [if_pos hpos] at h ⊢
    refine ⟨fun _ => hpays, ?_⟩
    intro c hc
    obtain ⟨hsupply, hself⟩ := happlied c hc
    rw [hrecord]
    exact h c hsupply hself
  · obtain rfl : n = 0 := by omega
    have hQ := h b (by rw [hzero rfl]; rfl) rfl
    rw [if_neg hpos, append_nil] at hQ
    rw [if_neg hpos]
    exact hQ

theorem burnEscrow (hle : n ≤ b.balance selfId)
    (h : ∀ c, c.supply + n = b.supply → c.balance selfId = b.balance selfId - n →
      Q c { j with held := j.held ++ if 0 < n then [.burned n] else [] }) :
    Delivers selfId current Q b j (if 0 < n then [.burnShares selfId n] else []) := by
  refine outflow (burn_isSome.mpr hle) (if_pos rfl) ?_ id h
  intro c hc
  obtain ⟨-, hsame, hsupply, -⟩ := burn_eq_some hc
  exact ⟨hsupply, hsame⟩

theorem refundShares (hne : owner ≠ selfId) (hle : n ≤ b.balance selfId)
    (h : ∀ c, c.supply = b.supply → c.balance selfId = b.balance selfId - n →
      Q c { j with held := j.held ++ if 0 < n then [.sent owner n] else [] }) :
    Delivers selfId current Q b j (refundShares selfId owner n) := by
  refine outflow (transfer_isSome.mpr hle) (if_pos rfl) ?_ (fun _ => rfl) h
  intro c hc
  obtain ⟨-, hsame, -, hsupply⟩ := transfer_eq_some hne hc
  exact ⟨hsupply, hsame⟩

/-- An exit burns shares of an account other than the vault. -/
theorem atomicBurnShares {operator : A} (hne : owner ≠ selfId)
    (h : ∀ c, c.supply + n = b.supply → c.balance selfId = b.balance selfId →
      Delivers selfId current Q c j E) :
    Delivers selfId current Q b j (atomicBurnShares owner operator n :: E) := by
  have key : ∀ c, b.burn owner n = some c → Delivers selfId current Q c j E := by
    intro c hc
    obtain ⟨-, -, hsupply, hother⟩ := burn_eq_some hc
    exact h c hsupply (hother selfId hne.symm)
  unfold Vault.atomicBurnShares
  split
  all_goals
    refine ⟨by simp [leavesEscrow, hne], ?_⟩
    intro c hc
    rw [Journal.record, if_neg hne]
    exact key c hc

end Delivers

/-- With no outflow waiting, an event that is no request leaves the journal as it is. -/
theorem record_event {event : KernelEvent A} (hheld : j.held = [])
    (h : event.isRequest = false) : j.record selfId current (.emitEvent event) = j := by
  have hclose : ∀ id, j.close id = j := by
    intro id
    obtain ⟨held, requests, releases⟩ := j
    cases hheld
    simp [Journal.close]
  cases event with
  | withdrawalRequested => cases h
  | withdrawalSkipped => exact hclose _
  | withdrawalStopped | payoutCompleted | emergencyResetCompleted =>
    cases current <;> simp [Journal.record, KernelEvent.isClosing, hclose]
  | _ => rfl

theorem record_closing {event : KernelEvent A} (h : event.isClosing = true) :
    j.record selfId (some id) (.emitEvent event) = j.close id := by
  cases event with
  | withdrawalStopped => rfl
  | payoutCompleted => rfl
  | emergencyResetCompleted => rfl
  | _ => cases h

theorem Quiet.delivers (h : Quiet E) (hheld : j.held = []) (hQ : Q b j) :
    Delivers selfId current Q b j E := by
  induction E with
  | nil => exact hQ
  | cons e E ih =>
    obtain ⟨event, rfl, hevent⟩ := h e (by simp)
    refine ⟨by simp [leavesEscrow], ?_⟩
    intro c hc
    cases hc
    rw [record_event hheld hevent]
    exact ih fun f hf => h f (by simp [hf])

structure Kept (selfId : A) (s : VaultState A) (b : Balances A)
    (j : Journal A) : Prop where
  supply : b.supply = s.totalShares
  escrow : b.balance selfId = escrowOf s.withdrawQueue.entries
  held : j.held = []
  owners : ∀ e ∈ s.withdrawQueue.entries, e.2.owner ≠ selfId
  announced : ∀ e ∈ s.withdrawQueue.entries, ⟨e.1, e.2.owner, e.2.escrowShares⟩ ∈ j.requests
  issued : ∀ a ∈ j.requests, a.id < s.withdrawQueue.nextPendingWithdrawalId
  complete : ∀ id < s.withdrawQueue.nextPendingWithdrawalId, ∃ a ∈ j.requests, a.id = id
  distinct : ∀ a ∈ j.requests, ∀ a' ∈ j.requests, a.id = a'.id → a = a'
  /-- Nothing was released for a request that is pending or not yet made. -/
  pending : ∀ x ∈ j.releases, x.1 < s.withdrawQueue.nextPendingWithdrawalId ∧
    ∀ e ∈ s.withdrawQueue.entries, x.1 ≠ e.1
  settled : ∀ a ∈ j.requests, (∀ e ∈ s.withdrawQueue.entries, e.1 ≠ a.id) →
    j.released a.id a.owner = a.shares

theorem released_eq_zero (h : ∀ x ∈ j.releases, x.1 ≠ id) : j.released id owner = 0 := by
  have hnil : j.releases.filter (fun x => x.1 = id) = [] := by
    rw [filter_eq_nil_iff]
    intro x hx
    simpa using h x hx
  rw [Journal.released, hnil]
  rfl

theorem released_close {outs : List (Outflow A)} {id' : Nat} :
    (Journal.close { j with held := outs } id).released id' owner =
      j.released id' owner + if id = id' then (outs.map (fun o => o.toOwner owner)).sum else 0 := by
  unfold Journal.released Journal.close
  rw [filter_append, map_append, sum_append]
  congr 1
  split
  · rename_i heq
    rw [filter_map, map_map]
    simp [Function.comp_def, heq]
  · rename_i hne
    rw [filter_map]
    simp [Function.comp_def, hne]

namespace Kept

variable {s s' : VaultState A} {c : Balances A} {q : PendingWithdrawal A}

theorem of_new : Kept selfId VaultState.new ∅ .new := by
  constructor
  · rfl
  · rfl
  · rfl
  all_goals simp [VaultState.new, new, entries, PendingWithdrawals.new, Journal.new]

section

variable (k : Kept selfId s b j)
include k

/-- Shares and balances move outside the escrow. -/
theorem of_same_queue (hqueue : s'.withdrawQueue = s.withdrawQueue)
    (hsupply : c.supply = s'.totalShares) (hescrow : c.balance selfId = b.balance selfId) :
    Kept selfId s' c j where
  supply := hsupply
  escrow := by rw [hescrow, hqueue, k.escrow]
  held := k.held
  owners := by rw [hqueue]; exact k.owners
  announced := by rw [hqueue]; exact k.announced
  issued := by rw [hqueue]; exact k.issued
  complete := by rw [hqueue]; exact k.complete
  distinct := k.distinct
  pending := by rw [hqueue]; exact k.pending
  settled := by rw [hqueue]; exact k.settled

theorem balance_of_head {rest : List (Nat × PendingWithdrawal A)}
    (he : s.withdrawQueue.entries = (id, q) :: rest) :
    b.balance selfId = q.escrowShares + escrowOf rest := by
  rw [k.escrow, he, escrowOf_cons]

/-- The head leaves with its whole escrow. -/
theorem close {outs : List (Outflow A)}
    (he : s.withdrawQueue.entries = (id, q) :: s'.withdrawQueue.entries)
    (hnext : s'.withdrawQueue.nextPendingWithdrawalId = s.withdrawQueue.nextPendingWithdrawalId)
    (hsupply : c.supply = s'.totalShares)
    (hescrow : c.balance selfId + q.escrowShares = b.balance selfId)
    (houts : (outs.map (fun o => o.toOwner q.owner)).sum = q.escrowShares) :
    Kept selfId s' c (Journal.close { j with held := outs } id) := by
  have hlater : ∀ e ∈ s'.withdrawQueue.entries, id < e.1 := by
    have hsorted : ((id, q) :: s'.withdrawQueue.entries).Pairwise (fun e f => e.1 < f.1) :=
      he ▸ s.withdrawQueue.pendingWithdrawals.sorted
    exact (pairwise_cons.mp hsorted).1
  have hmem : ∀ e ∈ s'.withdrawQueue.entries, e ∈ s.withdrawQueue.entries := by
    intro e h
    rw [he]
    exact mem_cons_of_mem _ h
  have hhead : (id, q) ∈ s.withdrawQueue.entries := by
    rw [he]
    exact mem_cons_self
  have hannounced := k.announced _ hhead
  constructor
  · exact hsupply
  · have hb := k.balance_of_head he
    omega
  · rfl
  · exact fun e h => k.owners e (hmem e h)
  · exact fun e h => k.announced e (hmem e h)
  · rw [hnext]
    exact k.issued
  · rw [hnext]
    exact k.complete
  · exact k.distinct
  · rw [hnext]
    intro x hx
    rcases mem_append.mp hx with hx | hx
    · obtain ⟨hlt, hother⟩ := k.pending x hx
      exact ⟨hlt, fun e h => hother e (hmem e h)⟩
    · obtain ⟨o, -, rfl⟩ := mem_map.mp hx
      exact ⟨k.issued _ hannounced, fun e h => Nat.ne_of_lt (hlater e h)⟩
  · intro a ha hgone
    rw [released_close]
    by_cases hid : id = a.id
    · -- the request that leaves: nothing was released before, and now all of it
      obtain rfl : a = ⟨id, q.owner, q.escrowShares⟩ := k.distinct a ha _ hannounced hid.symm
      rw [released_eq_zero fun x hx => (k.pending x hx).2 _ hhead, if_pos rfl, houts, Nat.zero_add]
    · rw [if_neg hid, Nat.add_zero]
      apply k.settled a ha
      rw [he]
      intro e h
      rcases mem_cons.mp h with rfl | h
      · exact hid
      · exact hgone e h

/-- A request joins the queue with its shares in escrow. -/
theorem request {w : PendingWithdrawal A}
    (hid : id = s.withdrawQueue.nextPendingWithdrawalId) (howner : w.owner ≠ selfId)
    (he : s'.withdrawQueue.entries = s.withdrawQueue.entries ++ [(id, w)])
    (hnext : s'.withdrawQueue.nextPendingWithdrawalId = id + 1)
    (hsupply : c.supply = s'.totalShares)
    (hescrow : c.balance selfId = b.balance selfId + w.escrowShares) :
    Kept selfId s' c { j with requests := j.requests ++ [⟨id, w.owner, w.escrowShares⟩] } := by
  have hissued : ∀ a ∈ j.requests, a.id < id := by
    rw [hid]
    exact k.issued
  have hreleased : ∀ x ∈ j.releases, x.1 < id := by
    rw [hid]
    exact fun x hx => (k.pending x hx).1
  constructor
  · exact hsupply
  · rw [hescrow, he, escrowOf_append_singleton, k.escrow]
  · exact k.held
  · rw [he, forall_mem_append, forall_mem_singleton]
    exact ⟨k.owners, howner⟩
  · rw [he, forall_mem_append, forall_mem_singleton]
    exact ⟨fun e h => mem_append_left _ (k.announced e h), by simp⟩
  · rw [hnext, forall_mem_append, forall_mem_singleton]
    exact ⟨fun a h => Nat.lt_succ_of_lt (hissued a h), Nat.lt_succ_self id⟩
  · rw [hnext]
    intro i hi
    by_cases h : i = id
    · exact ⟨⟨id, w.owner, w.escrowShares⟩, by simp, h.symm⟩
    · obtain ⟨a, ha, hai⟩ := k.complete i (by omega)
      exact ⟨a, mem_append_left _ ha, hai⟩
  · intro a ha a' ha' heq
    rcases mem_append.mp ha with ha | ha <;> rcases mem_append.mp ha' with ha' | ha'
    · exact k.distinct a ha a' ha' heq
    · cases mem_singleton.mp ha'
      exact absurd heq (Nat.ne_of_lt (hissued a ha))
    · cases mem_singleton.mp ha
      exact absurd heq.symm (Nat.ne_of_lt (hissued a' ha'))
    · cases mem_singleton.mp ha
      cases mem_singleton.mp ha'
      rfl
  · rw [hnext, he]
    intro x hx
    rw [forall_mem_append, forall_mem_singleton]
    exact ⟨Nat.lt_succ_of_lt (hreleased x hx), (k.pending x hx).2, Nat.ne_of_lt (hreleased x hx)⟩
  · rw [he, forall_mem_append, forall_mem_singleton]
    refine ⟨fun a ha hgone => k.settled a ha fun e h => hgone e (mem_append_left _ h), ?_⟩
    intro hgone
    exact absurd rfl (hgone (id, w) (by simp))

end

end Kept

section

variable {limit : Nat} {s s' : VaultState A} {r : KernelResult A} {call : Call A}

theorem sum_toOwner {o : Outflow A} (h : o.toOwner owner = n) :
    ((if 0 < n then [o] else []).map fun o => o.toOwner owner).sum = n := by
  split
  · simp [h]
  · simp
    omega

theorem toOwner_burned : (Outflow.burned n).toOwner owner = n := rfl

theorem toOwner_sent : (Outflow.sent owner n).toOwner owner = n := if_pos rfl

theorem Move.delivers (h : Move (· ≠ selfId) limit selfId s E s') (hs : Sound limit s)
    (k : Kept selfId s b j) :
    Delivers selfId s.opState.currentRequest (Kept selfId s') b j E := by
  have hsupply := k.supply
  cases h with
  | @accrue a a' m p nowNs anchor idle ha hb fits =>
    refine .append (.append (.mintFeeShares ha fun c hc hcself => .mintFeeShares hb fun d hd hdself =>
      .event ?_))
    rw [record_event k.held rfl]
    refine k.of_same_queue rfl ?_ (hdself.trans hcself)
    change d.supply = s.totalShares + m + p
    omega
  | @deposit owner receiver assetsIn shares nowNs idle hr fits =>
    refine ⟨by simp [leavesEscrow], ?_⟩
    intro c hc
    cases hc
    refine ⟨by simp [leavesEscrow], ?_⟩
    intro c hc
    cases hc
    apply Delivers.event
    change Kept selfId _ (b.mint receiver shares) (j.record selfId _ (.emitEvent _))
    rw [record_event k.held rfl]
    refine k.of_same_queue rfl ?_ (balance_mint_other (Ne.symm hr))
    rw [supply_mint, hsupply]
    rfl
  | @exit owner receiver operator shares assetsOut idle ho hshares _ _ =>
    refine .atomicBurnShares ho fun c hc hcself => ⟨by simp [leavesEscrow], ?_⟩
    intro d hd
    cases hd
    apply Delivers.event
    change Kept selfId _ c (j.record selfId _ (.emitEvent _))
    rw [record_event k.held rfl]
    refine k.of_same_queue rfl ?_ hcself
    change c.supply = s.totalShares - shares
    omega
  | @request w id max queue idle ho _ _ hq =>
    obtain ⟨-, -, hid, hentries, -, hnext⟩ := hs.queue.enqueue_eq_ok hq
    refine ⟨by simp [leavesEscrow, ho], ?_⟩
    intro c hc
    obtain ⟨-, -, hself, hsame⟩ := transfer_eq_some (Ne.symm ho) hc
    apply Delivers.event
    rw [Journal.record, if_neg ho]
    exact k.request hid ho hentries hnext (hsame.trans hsupply) hself
  | @skip w id queue reason idle hq =>
    have he := hs.queue.entries_of_dequeue hq
    have hb := k.balance_of_head he
    have howner : w.owner ≠ selfId := k.owners (id, w) (by rw [he]; simp)
    refine .append (.refundShares howner (by omega) fun c hc hcself => .event ?_)
    rw [k.held, nil_append]
    exact k.close he (hs.queue.nextPending_of_dequeue hq) (hc.trans hsupply) (by omega)
      (sum_toOwner toOwner_sent)
  | start => exact (Quiet.event rfl).delivers k.held (k.of_same_queue rfl hsupply rfl)
  | settle _ _ _ _ _ hevent =>
    exact (Quiet.event hevent).delivers k.held (k.of_same_queue rfl hsupply rfl)
  | shift quiet hshares hqueue _ _ _ =>
    exact quiet.delivers k.held (k.of_same_queue hqueue (hsupply.trans hshares.symm) rfl)
  | @release _ c event o op hq _ hshares _ closing =>
    obtain ⟨q, rest, hserved, hc⟩ := hs.served op
    have he := hserved.entries_of_dequeue hs hq
    have hb := k.balance_of_head he
    have hcurrent : s.opState.currentRequest = some c.requestId := by
      rw [OpState.currentRequest, op]
      rfl
    have howner : q.owner ≠ selfId := k.owners (c.requestId, q) (by rw [he]; simp)
    rw [hcurrent]
    rw [hc] at he ⊢
    refine .append (.refundShares howner (by change q.escrowShares ≤ _; omega)
      fun d hd hdself => .event ?_)
    change d.balance selfId = b.balance selfId - q.escrowShares at hdself
    rw [record_closing closing, k.held, nil_append]
    exact k.close he (hs.queue.nextPending_of_dequeue hq) ((hd.trans hsupply).trans hshares.symm)
      (by omega)
      (sum_toOwner toOwner_sent)
  | @pay _ p event o op hq _ hburn htotal hshares _ _ _ closing =>
    obtain ⟨id, q, rest, hserved⟩ := hs.served_of_payout op
    have he := hserved.entries_of_dequeue hs hq
    have hb := k.balance_of_head he
    have hserving : Serving id q (.payout p) := op ▸ hserved.serving
    cases hserving
    change q.escrowShares ≤ s.totalShares at htotal
    change s'.totalShares = s.totalShares - q.escrowShares at hshares
    have hcurrent : s.opState.currentRequest = some id := by
      rw [OpState.currentRequest, op]
      rfl
    have howner : q.owner ≠ selfId := k.owners (id, q) (by rw [he]; simp)
    rw [hcurrent]
    refine .append (.append (.burnEscrow (by change q.escrowShares ≤ _; omega) fun d hd hdself =>
      .refundShares howner (by change q.escrowShares - q.escrowShares ≤ _; omega)
        fun d' hd' hdself' => .event ?_))
    change d.supply + q.escrowShares = b.supply at hd
    change d.balance selfId = b.balance selfId - q.escrowShares at hdself
    change d'.balance selfId = d.balance selfId - (q.escrowShares - q.escrowShares) at hdself'
    rw [record_closing closing, k.held, nil_append]
    refine k.close he (hs.queue.nextPending_of_dequeue hq) (by omega) (by omega) ?_
    rw [map_append, sum_append, sum_toOwner toOwner_burned, sum_toOwner toOwner_sent]
    change q.escrowShares + (q.escrowShares - q.escrowShares) = q.escrowShares
    omega

/-- A steady chain is charged to the operation it started with. -/
theorem Steady.delivers (h : Steady (· ≠ selfId) limit selfId s E s') (hs : Sound limit s)
    (k : Kept selfId s b j) :
    Delivers selfId s.opState.currentRequest
      (fun c i => Sound limit s' ∧ Kept selfId s' c i) b j E := by
  induction h with
  | refl => exact ⟨hs, k⟩
  | tail before move same ih =>
    apply Delivers.append
    apply ih.mono
    rintro c i ⟨ht, kt⟩
    rw [← before.opState_eq]
    exact (move.delivers ht kt).mono fun d l kd => ⟨move.sound ht, kd⟩

theorem Moves.delivers (h : Moves (· ≠ selfId) limit selfId s E s') (hs : Sound limit s)
    (k : Kept selfId s b j) :
    Delivers selfId s.opState.currentRequest (Kept selfId s') b j E := by
  cases h with
  | steady chain => exact (chain.delivers hs k).mono fun _ _ h => h.2
  | last before move =>
    apply Delivers.append
    apply (before.delivers hs k).mono
    rintro c i ⟨ht, kt⟩
    rw [← before.opState_eq]
    exact move.delivers ht kt

/-- A successful call delivers its effects, given a ledger in agreement. -/
theorem Call.delivers (hself : call.IsFor selfId) (hother : selfId ∉ call.holders)
    (hs : Sound maxPending s) (k : Kept selfId s b j) (h : call.result s = .ok r) :
    Delivers selfId s.opState.currentRequest (Kept selfId r.state) b j r.effects := by
  have moves : Moves (· ≠ selfId) maxPending selfId s r.effects r.state := by
    refine Call.moves hs.shares ?_ call.within_maxPending hself h
    rintro a ha rfl
    exact hother ha
  exact moves.delivers hs k

structure Replay.Agrees (selfId : A) (x : Replay A) : Prop where
  sound : Sound maxPending x.vault
  kept : Kept selfId x.vault x.ledger x.journal

theorem Replay.Agrees.next {x : Replay A} (h : x.Agrees selfId) (hself : call.IsFor selfId)
    (hother : selfId ∉ call.holders) : (x.next selfId call).Agrees selfId := by
  unfold Replay.next
  split
  · exact h
  · rename_i r hr
    split
    · exact h
    · rename_i ledger hl
      exact ⟨call.sound call.within_maxPending h.sound hr,
        (call.delivers hself hother h.sound h.kept hr).replay hl⟩

theorem Replay.run_agrees {calls : List (Call A)}
    (hself : ∀ call ∈ calls, call.IsFor selfId) (hother : ∀ call ∈ calls, selfId ∉ call.holders) :
    (Replay.run selfId calls).Agrees selfId := by
  apply foldlRecOn calls (Replay.next selfId) (motive := Replay.Agrees selfId) ⟨.of_new, .of_new⟩
  intro x hx call hmem
  exact hx.next (hself call hmem) (hother call hmem)

end

/-- After every run with a ledger the ledger's supply is the kernel's total, the vault's own
account holds the escrow of the queue, no outflow from it is refused or left unexplained, and
for every request ever made, what was burned for it and returned to its owner is nothing while
it is pending and its whole escrow afterwards. -/
theorem escrow_is_released_once {calls : List (Call A)}
    (hself : ∀ call ∈ calls, call.IsFor selfId) (hother : ∀ call ∈ calls, selfId ∉ call.holders) :
    let x := Replay.run selfId calls
    x.ledger.supply = x.vault.totalShares ∧
    x.ledger.balance selfId = escrowOf x.vault.withdrawQueue.entries ∧
    x.journal.held = [] ∧
    (∀ (call : Call A) r, call.IsFor selfId → selfId ∉ call.holders → call.result x.vault = .ok r →
      EscrowPays selfId x.ledger r.effects) ∧
    (∀ e ∈ x.vault.withdrawQueue.entries, ⟨e.1, e.2.owner, e.2.escrowShares⟩ ∈ x.journal.requests) ∧
    ∀ id < x.vault.withdrawQueue.nextPendingWithdrawalId, ∃ a ∈ x.journal.requests, a.id = id ∧
      (∀ a' ∈ x.journal.requests, a'.id = id → a' = a) ∧
      x.journal.released id a.owner =
        if ∃ e ∈ x.vault.withdrawQueue.entries, e.1 = id then 0 else a.shares := by
  obtain ⟨sound, k⟩ := Replay.run_agrees hself hother
  refine ⟨k.supply, k.escrow, k.held, ?_, k.announced, ?_⟩
  · intro call r hfor hnot h
    exact (call.delivers hfor hnot sound k h).escrowPays
  · intro id hid
    obtain ⟨a, ha, rfl⟩ := k.complete id hid
    refine ⟨a, ha, rfl, fun a' ha' heq => k.distinct a' ha' a ha heq, ?_⟩
    split
    · rename_i hpending
      obtain ⟨e, he, heq⟩ := hpending
      exact released_eq_zero fun x hx => heq ▸ (k.pending x hx).2 e he
    · rename_i hgone
      exact k.settled a ha fun e he heq => hgone ⟨e, he, heq⟩

end

/-- The run up to a payout, its settlement, and a second request that is still pending. -/
def settledRun : List (Call Nat) :=
  payoutRun ++ [.act plainConfig none 0 (.settlePayout 0 .success),
    .act plainConfig none 0 (.requestWithdraw 1 1 25 0 8)]

theorem escrow_is_released_once_settledRun :
    (Replay.run 0 settledRun).journal.requests = [⟨0, 1, 40⟩, ⟨1, 1, 25⟩] ∧
      (Replay.run 0 settledRun).ledger.supply = (Replay.run 0 settledRun).vault.totalShares ∧
      (Replay.run 0 settledRun).journal.released 0 1 = 40 ∧
      (Replay.run 0 settledRun).journal.released 1 1 = 0 := by
  have hself : ∀ call ∈ settledRun, call.IsFor 0 := by decide
  have hother : ∀ call ∈ settledRun, 0 ∉ call.holders := by decide
  obtain ⟨hsupply, -⟩ := escrow_is_released_once hself hother
  exact ⟨by decide +kernel, hsupply, by decide +kernel, by decide +kernel⟩

end Templar.Vault
