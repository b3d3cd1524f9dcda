import Templar.Lending.BooksSound

/-!
# Every run keeps books

Each entry point and each callback of the contract is a sequence of moves. So the books
of every state a run reaches are booked, and whatever holds of booked books holds there.
-/

namespace Templar.Lending

open Checked SupplyPositionGuard Receipt Multiset

variable {A : Type}

/-- The transfers of a batch of withdrawals. -/
def batchFlights (batch : List (Withdrawal A)) : Multiset (Flight A) :=
  (batch.map Flight.withdrawal : List (Flight A))

@[simp] theorem batchFlights_nil : batchFlights ([] : List (Withdrawal A)) = 0 := rfl

@[simp] theorem batchFlights_cons (w : Withdrawal A) (batch : List (Withdrawal A)) :
    batchFlights (w :: batch) = .withdrawal w ::ₘ batchFlights batch := rfl

theorem batchFlights_append (l₁ l₂ : List (Withdrawal A)) :
    batchFlights (l₁ ++ l₂) = batchFlights l₁ + batchFlights l₂ := by
  simp [batchFlights]

/-- The transfers a scheduled callback settles. -/
def Receipt.flights : Receipt A → List (Flight A)
  | .borrow02 accountId initialBorrow => [.borrow accountId initialBorrow]
  | .withdrawCollateral02 accountId amount => [.collateral accountId amount]
  | .withdrawal01 resolutions _ => resolutions.map .withdrawal
  | .withdrawStaticYield01 accountId amount => [.staticYield accountId amount]
  | _ => []

def flightsOf (pending : List (Receipt A)) : Multiset (Flight A) :=
  (pending.flatMap flights : List (Flight A))

@[simp] theorem flightsOf_nil : flightsOf ([] : List (Receipt A)) = 0 := rfl

theorem flightsOf_append (l₁ l₂ : List (Receipt A)) :
    flightsOf (l₁ ++ l₂) = flightsOf l₁ + flightsOf l₂ := by
  simp [flightsOf]

/-- What a receipt carries leaves with it. -/
theorem flightsOf_eraseIdx {l : List (Receipt A)} {i : Nat} {r : Receipt A}
    (h : l[i]? = some r) : flightsOf l = r.flights + flightsOf (l.eraseIdx i) := by
  obtain ⟨hi, rfl⟩ := List.getElem?_eq_some_iff.mp h
  have hperm := (List.getElem_cons_eraseIdx_perm hi).symm
  have hmap := coe_eq_coe.mpr (hperm.flatMap_right flights)
  rw [flightsOf, hmap, List.flatMap_cons, ← coe_add]
  rfl

theorem flightsOf_eraseIdx_le (l : List (Receipt A)) (i : Nat) :
    flightsOf (l.eraseIdx i) ≤ flightsOf l := by
  cases h : l[i]? with
  | none =>
    rw [List.eraseIdx_of_length_le (List.getElem?_eq_none_iff.mp h)]
  | some r =>
    rw [flightsOf_eraseIdx h]
    exact le_add_left _ _

/-- The books once a call has returned: what it sent is in flight as well. -/
@[simp] abbrev Effect.books (e : Effect A) (F : Multiset (Flight A)) (env : Env) : Books A :=
  ⟨e.1, F + flightsOf e.2, env.blockTimestampMs⟩

/-- The books of the contract with what its receipts carry. -/
def System.books (s : System A) : Books A := ⟨s.market, flightsOf s.pending, s.time⟩

variable [DecidableEq A]

/-- The guard an operation on a borrow position works with: taken out after the snapshot
and accrued. -/
def Market.Borrower (m : Market A) (time : Nat) (a : A) (g : BorrowPositionGuard A) : Prop :=
  ∃ m₁ g₀, m.snapshot time = .ok m₁ ∧ m₁.borrowPositionGuard a = some g₀ ∧
    g₀.accumulateInterest = .ok g

/-- Every entry an execution visits meets a condition, at the time it is visited. -/
def LoopMeets (P : SupplyPositionGuard A → Nat → Prop) (time : Nat) :
    Nat → Market.Execution A → Prop
  | 0, _ => True
  | remaining + 1, x => ∀ a amount, x.market.withdrawalQueue.peek = .ok (some (a, amount)) →
      (∀ g g', x.market.supplyPositionGuard a = some g → g.accumulateYield = .ok g' → P g' amount) ∧
      ∀ x', x.visit time a amount = .ok (true, x') → LoopMeets P time remaining x'

theorem LoopMeets.mono {P Q : SupplyPositionGuard A → Nat → Prop}
    (hPQ : ∀ g amount, P g amount → Q g amount) {time remaining : Nat}
    {x : Market.Execution A} (h : LoopMeets P time remaining x) :
    LoopMeets Q time remaining x := by
  induction remaining generalizing x with
  | zero => trivial
  | succ remaining ih =>
    intro a amount hpeek
    obtain ⟨hP, hnext⟩ := h a amount hpeek
    exact ⟨fun g g' hg hg' => hPQ g' amount (hP g g' hg hg'), fun x' hx' => ih (hnext x' hx')⟩

/-- What the conditions mean for the actions of a run. -/
def Meets (C : Conditions A) (s : System A) : Action A → Prop
  | .call env (.executeNextSupplyWithdrawalRequest batchLimit) =>
    ∀ m, s.market.snapshot env.blockTimestampMs = .ok m →
      LoopMeets C.withdrawal env.blockTimestampMs (batchLimit.getD 1) ⟨m, [], 0⟩
  | .callback env place reply => ∀ a initialBorrow g,
      s.pending[place]? = some (.borrow02 a initialBorrow) → reply.succeeded 0 = true →
      s.market.Borrower env.blockTimestampMs a g → C.borrow g initialBorrow
  | _ => True

/-- What a visit makes of the requests `(a, v) :: l`: whether the loop goes on, by how much it
cleared them, and what is left. -/
inductive Visited (a : A) (v : Nat) (l : List (A × Nat)) :
    Bool → Nat → List (A × Nat) → Prop
  | popped : Visited a v l true v l
  | stuck : Visited a v l false 0 ((a, v) :: l)
  | reduced {r} (hr : r ≠ 0) (hle : r ≤ v) : Visited a v l false (v - r) ((a, r) :: l)

/-- What at most `limit` visits make of the requests. -/
inductive Cleared : Nat → Nat → List (A × Nat) → List (A × Nat) → Prop
  | done {limit l} : Cleared limit 0 l l
  | stop {limit depth v a l l'} (h : Visited a v l false depth l') :
      Cleared (limit + 1) depth ((a, v) :: l) l'
  | next {limit depth depth' v a l l₁ l'} (h : Visited a v l true depth l₁)
      (rest : Cleared limit depth' l₁ l') : Cleared (limit + 1) (depth + depth') ((a, v) :: l) l'

/-- A withdrawal pays no more than its account's request. -/
def Withdrawal.Serves (w : Withdrawal A) (l : List (A × Nat)) : Prop :=
  ∃ v, (w.accountId, v) ∈ l ∧ w.amountToAccount + w.amountToFees ≤ v

namespace Cleared

omit [DecidableEq A]

variable {limit depth : Nat} {l l' : List (A × Nat)}

/-- A prefix is gone, and of what follows at most the first amount is reduced. -/
theorem split (h : Cleared limit depth l l') : ∃ gone rest, l = gone ++ rest ∧ gone.length ≤ limit ∧
    (l' = rest ∨ ∃ a v r tail, rest = (a, v) :: tail ∧ l' = (a, r) :: tail ∧ r ≤ v ∧
      gone.length < limit) := by
  induction h with
  | @done limit l => exact ⟨[], l, rfl, Nat.zero_le _, .inl rfl⟩
  | @stop limit _ v a l _ h =>
    refine ⟨[], (a, v) :: l, rfl, Nat.zero_le _, ?_⟩
    cases h with
    | stuck => exact .inl rfl
    | reduced _ hle => exact .inr ⟨a, v, _, l, rfl, rfl, hle, Nat.succ_pos _⟩
  | next h _ ih =>
    cases h
    obtain ⟨gone, rest, rfl, hlen, hrest⟩ := ih
    refine ⟨_ :: gone, rest, rfl, Nat.succ_le_succ hlen, hrest.imp_right ?_⟩
    rintro ⟨b, u, r, tail, h₁, h₂, hle, hlt⟩
    exact ⟨b, u, r, tail, h₁, h₂, hle, Nat.succ_lt_succ hlt⟩

/-- What is cleared is missing from the requests that are left. -/
theorem depth_eq (h : Cleared limit depth l l') :
    (l.map Prod.snd).sum = (l'.map Prod.snd).sum + depth := by
  induction h with
  | done => rfl
  | stop h =>
    cases h with
    | stuck => rfl
    | reduced _ hle =>
      simp only [List.map_cons, List.sum_cons]
      omega
  | next h _ ih =>
    cases h
    simp only [List.map_cons, List.sum_cons, ih]
    omega

theorem length_le (h : Cleared limit depth l l') : l'.length ≤ l.length := by
  obtain ⟨gone, rest, rfl, -, rfl | ⟨a, v, r, tail, rfl, rfl, -⟩⟩ := h.split
  · simp
  · simp

end Cleared

namespace Booked

variable {C : Conditions A} {m m' : Market A} {F : Multiset (Flight A)}
variable {t : Nat} {env : Env} {a : A} {amount : Nat}

theorem snapshot (h : Booked C ⟨m, F, t⟩) (hs : m.snapshot t = .ok m') : Booked C ⟨m', F, t⟩ :=
  h.move (.snapshot hs)

section Supply

variable {g g' : SupplyPositionGuard A}

/-- Opening a position and dropping it again keeps the books. -/
theorem openSupply (h : Booked C ⟨m, F, t⟩) (hg : m.supplyPositionGuard a = some g) :
    Booked C ⟨g.drop, F, t⟩ ∧ g.accountId = a ∧ g.market = m := by
  obtain ⟨p, hp, rfl⟩ := Option.map_eq_some_iff.mp hg
  exact ⟨h.move (.openSupply hp), rfl, rfl⟩

omit [DecidableEq A] in
/-- A full accrual reaches the last finalized snapshot. -/
theorem accumulateYield_accrued (hl : g.market.finalizedSnapshots.length < 2 ^ 32)
    (hp : PositionBooks g.market.finalizedSnapshots.length g.market.borrowAssetDepositedIncoming
      g.position) (hy : g.accumulateYield = .ok g') :
    g'.Accrued ∧ g'.accountId = g.accountId ∧ g'.market.finalizedSnapshots =
      g.market.finalizedSnapshots := by
  obtain ⟨stop, active, incoming, yield, entries, weight, hstop, hpos, hle, -, -, hnext, -, rfl⟩ :=
    accumulateYieldPartial_eq_ok hy hp.orderly
  refine ⟨?_, rfl, rfl⟩
  simp only [SupplyPositionGuard.Accrued, hnext, hstop, u32Max]
  omega

/-- The creation of a position is an accrual and a deposit on a fresh one. -/
theorem created {g₁ g₂ : SupplyPositionGuard A} (h : (⟨m, F, t⟩ : Books A).Sound)
    (ha : m.supplyPositions.lookup a = none)
    (h₁ : accumulateYield ⟨m, a, SupplyPosition.new m.finalizedSnapshots.length⟩ = .ok g₁)
    (h₂ : g₁.recordDeposit amount t = .ok g₂) :
    (drop ⟨m, a, SupplyPosition.new m.finalizedSnapshots.length⟩).SupplyAgrees ∧
      SupplyOp C t ⟨m, a, SupplyPosition.new m.finalizedSnapshots.length⟩ F g₁ F ∧
      g₁.drop.SupplyAgrees ∧ SupplyOp C t g₁ F g₂ F := by
  have hfresh : (drop
      ⟨m, a, SupplyPosition.new m.finalizedSnapshots.length⟩).SupplyAgrees :=
    SupplyBooks.create h.supply ha h.wellFormed.pos
  obtain ⟨hacc, -, -⟩ := accumulateYield_accrued h.wellFormed.length_lt (position_of_drop hfresh) h₁
  exact ⟨hfresh, .accumulate h₁, accumulate_agrees hfresh h₁, .deposit hacc h₂⟩

/-- Accrual keeps the books and brings the position up to date. -/
theorem accumulateYield (h : Booked C ⟨g.drop, F, t⟩) (hy : g.accumulateYield = .ok g') :
    Booked C ⟨g'.drop, F, t⟩ ∧ g'.Accrued ∧ g'.accountId = g.accountId := by
  have hs := h.sound
  obtain ⟨hacc, ha, -⟩ := accumulateYield_accrued hs.wellFormed.length_lt
    (position_of_drop hs.supply) hy
  exact ⟨h.move (.supply (.accumulate hy)), hacc, ha⟩

end Supply

section Execution

variable {x x' : Market.Execution A} {requested remaining : Nat} {l : List (A × Nat)}

/-- The head leaves the queue, and what was requested counts as cleared. -/
theorem popHead {e : A × Nat} (h : Booked C ⟨x.market, F, t⟩)
    (hl : x.market.withdrawalQueue.Holds (e :: l)) (hx : x.popHead requested = .ok x') :
    Booked C ⟨x'.market, F, t⟩ ∧ x'.batch = x.batch ∧ x'.market.withdrawalQueue.Holds l ∧
      x'.depthCleared = x.depthCleared + requested := by
  simp only [Market.Execution.popHead, do_ok] at hx
  obtain ⟨⟨request, queue⟩, hq, depth, ⟨-, rfl⟩, rfl⟩ := hx
  obtain ⟨f, hf, hitems⟩ := hl
  obtain ⟨q, hq', hf', -⟩ := WithdrawalQueue.pop_refines hf
  cases hq.symm.trans hq'
  exact ⟨h.move (.queue (.pop hq)), rfl, ⟨f.pop, hf', by simp [Fifo.pop, hitems]⟩, rfl⟩

omit [DecidableEq A] in
/-- What is left of a partly met request is not nothing and no more than the request. -/
theorem remaining_bounds {g g' : SupplyPositionGuard A} {w : Withdrawal A}
    (h : g.recordWithdrawalInitial requested t = .ok (.partially w remaining, g')) :
    remaining ≠ 0 ∧ remaining ≤ requested := by
  simp only [recordWithdrawalInitial, do_ok] at h
  obtain ⟨myIncoming, -, deposited, -, ent, -, h⟩ := h
  split at h
  · cases h
  · simp only [do_ok] at h
    obtain ⟨funds, -, idle, -, available, -, h⟩ := h
    split at h
    · cases h
    · simp only [do_ok] at h
      obtain ⟨g₁, -, ⟨w', g₂⟩, -, h⟩ := h
      split at h
      · cases h
        omega
      · cases h

/-- One visited entry adds at most one withdrawal to the batch. -/
theorem visit {continues : Bool} (h : Booked C ⟨x.market, F, t⟩) (hr : requested ≠ 0)
    (hl : x.market.withdrawalQueue.Holds ((a, requested) :: l))
    (hc : ∀ g g', x.market.supplyPositionGuard a = some g → g.accumulateYield = .ok g' →
      C.withdrawal g' requested) (hx : x.visit t a requested = .ok (continues, x')) :
    ∃ (added : List (Withdrawal A)) (depth : Nat) (l' : List (A × Nat)),
      x'.batch = x.batch ++ added ∧ Booked C ⟨x'.market, batchFlights added + F, t⟩ ∧
      (∀ w ∈ added, w.Serves ((a, requested) :: l)) ∧ Visited a requested l continues depth l' ∧
      x'.market.withdrawalQueue.Holds l' ∧ x'.depthCleared = x.depthCleared + depth := by
  unfold Market.Execution.visit at hx
  cases hg : x.market.supplyPositionGuard a with
  | none =>
    simp only [hg, do_ok] at hx
    obtain ⟨x₁, hx₁, rfl, rfl⟩ := hx
    obtain ⟨h₁, hb, hpop⟩ := h.popHead hl hx₁
    exact ⟨[], requested, l, by rw [hb, List.append_nil], by simpa using h₁, by simp, .popped, hpop⟩
  | some g =>
    simp only [hg, do_ok] at hx
    obtain ⟨g₁, hg₁, ⟨attempt, g₂⟩, hg₂, hx⟩ := hx
    obtain ⟨h₁, ha, hm⟩ := h.openSupply hg
    obtain ⟨h₂, hacc, ha₁⟩ := h₁.accumulateYield hg₁
    have hcond := hc g g₁ hg hg₁
    -- Neither the accrual nor the attempt touches the queue.
    have hl₁ : g₁.drop.withdrawalQueue.Holds ((a, requested) :: l) := by
      have hk := (SupplyOp.keeps (C := C) (t := t) (F := F) h₁.sound.supply (.accumulate hg₁)).1
      rw [← hm] at hl
      exact hk.queue.symm ▸ hl
    have hstarted (w : Withdrawal A) (hw : attempt.withdrawal = some w) :
        (∀ v ∈ [w], v.Serves ((a, requested) :: l)) ∧ Booked C ⟨g₂.drop, .withdrawal w ::ₘ F, t⟩ ∧
          g₂.drop.withdrawalQueue.Holds ((a, requested) :: l) := by
      have hs := h₂.sound.supply
      obtain ⟨_, _, _, _, _, hpaid⟩ :=
        recordWithdrawalInitial_withdrawn hg₂ hw (orderly_of_accrued hs hacc) hs.single
      have hle := Nat.le_trans hpaid.le_requested (Nat.min_le_left _ _)
      have hserves : w.Serves ((a, requested) :: l) := by
        refine ⟨requested, ?_, hle⟩
        rw [hpaid.account, ha₁, ha]
        exact List.mem_cons_self ..
      have op : SupplyOp C t g₁ F g₂ (.withdrawal w ::ₘ F) := .withdraw hacc hr hcond hg₂ hw
      have hq₂ : g₂.drop.withdrawalQueue = g₁.drop.withdrawalQueue := (op.keeps hs).1.queue
      exact ⟨List.forall_mem_singleton.mpr hserves, h₂.move (.supply op), hq₂ ▸ hl₁⟩
    cases attempt with
    | emptyPosition =>
      rw [recordWithdrawalInitial_idle hg₂ rfl] at hx
      obtain ⟨x₁, hx₁, rfl, rfl⟩ := bind_eq_ok.mp hx
      obtain ⟨h₃, hb, hpop⟩ := popHead (x := { x with market := g₁.drop }) h₂ hl₁ hx₁
      exact ⟨[], requested, l, by rw [hb, List.append_nil], by simpa using h₃, by simp, .popped, hpop⟩
    | noLiquidity =>
      rw [recordWithdrawalInitial_idle hg₂ rfl] at hx
      cases hx
      exact ⟨[], 0, _, by rw [List.append_nil], by simpa using h₂, by simp, .stuck, hl₁, rfl⟩
    | full w =>
      obtain ⟨x₁, hx₁, rfl, rfl⟩ := bind_eq_ok.mp hx
      obtain ⟨hserves, h₃, hl₂⟩ := hstarted w rfl
      obtain ⟨h₄, hb, hpop⟩ := popHead (x := ⟨g₂.drop, x.batch ++ [w], x.depthCleared⟩) h₃ hl₂ hx₁
      exact ⟨[w], requested, l, hb, by simpa using h₄, hserves, .popped, hpop⟩
    | partially w remaining =>
      simp only [do_ok] at hx
      obtain ⟨⟨reply, queue⟩, hq, cleared, ⟨-, rfl⟩, depth, ⟨-, rfl⟩, rfl, rfl⟩ := hx
      obtain ⟨hne, hle⟩ := remaining_bounds hg₂
      obtain ⟨hserves, h₃, f, hf, hitems⟩ := hstarted w rfl
      have h₄ := h₃.move (.queue (.mutHead hne hq))
      obtain ⟨queue', hq', hf', -⟩ := WithdrawalQueue.mutHead_refines hf fun _ => ((), remaining)
      cases hq.symm.trans hq'
      refine ⟨[w], _, _, rfl, by simpa using h₄, hserves, .reduced hne hle, ⟨_, hf', ?_⟩, rfl⟩
      simp [Fifo.mutHead, hitems]

/-- The loop adds payments to the batch, each for a request that was queued. -/
theorem executeLoop (h : Booked C ⟨x.market, F, t⟩) (hl : x.market.withdrawalQueue.Holds l)
    (hc : LoopMeets C.withdrawal t remaining x) (hx : Market.executeLoop t remaining x = .ok x') :
    ∃ (added : List (Withdrawal A)) (depth : Nat) (l' : List (A × Nat)),
      x'.batch = x.batch ++ added ∧ Booked C ⟨x'.market, batchFlights added + F, t⟩ ∧
      (∀ w ∈ added, w.Serves l) ∧ Cleared remaining depth l l' ∧ x'.market.withdrawalQueue.Holds l' ∧
      x'.depthCleared = x.depthCleared + depth := by
  induction remaining generalizing x F l with
  | zero =>
    obtain ⟨head, -, rfl, rfl⟩ := bind_eq_ok.mp hx
    exact ⟨[], 0, l, by rw [List.append_nil], by simpa using h, by simp, .done, hl, rfl⟩
  | succ remaining ih =>
    obtain ⟨head, hpeek, hx⟩ := bind_eq_ok.mp hx
    cases head with
    | none =>
      cases hx
      exact ⟨[], 0, l, by rw [List.append_nil], by simpa using h, by simp, .done, hl, rfl⟩
    | some request =>
      obtain ⟨a, requested⟩ := request
      obtain ⟨⟨continues, x₁⟩, hvisit, hx⟩ := bind_eq_ok.mp hx
      obtain ⟨hcond, hnext⟩ := hc a requested hpeek
      obtain ⟨hr, -⟩ := h.sound.wellFormed.queue.peek_some hpeek
      obtain ⟨rest, rfl⟩ := hl.cons hpeek
      obtain ⟨added, depth, l₁, hb, h₁, hserves, hv, hl₁, hd⟩ := h.visit hr hl hcond hvisit
      cases continues with
      | false =>
        cases hx
        exact ⟨added, depth, l₁, hb, h₁, hserves, .stop hv, hl₁, hd⟩
      | true =>
        obtain ⟨more, depth', l', hb', h₂, hmore, hrest, hl', hd'⟩ := ih h₁ hl₁ (hnext x₁ hvisit) hx
        refine ⟨added ++ more, depth + depth', l', by rw [hb', hb, List.append_assoc], ?_, ?_,
          .next hv hrest, hl', by omega⟩
        rotate_left
        · intro w hw
          cases hv
          rcases List.mem_append.mp hw with hw | hw
          · exact hserves w hw
          · exact (hmore w hw).imp fun v hv => ⟨List.mem_cons_of_mem _ hv.1, hv.2⟩
        have hsum : batchFlights (added ++ more) + F = batchFlights more + (batchFlights added + F) := by
          rw [batchFlights_append]
          ac_rfl
        rw [hsum]
        exact h₂

end Execution

section Settlement

theorem cleanupSupply {cleaned : Bool} (h : Booked C ⟨m, F, t⟩)
    (hc : m.cleanupSupplyPosition a = .ok (cleaned, m')) : Booked C ⟨m', F, t⟩ := by
  rcases Market.cleanupSupplyPosition_eq_ok hc with rfl | ⟨p, hp, hremove, rfl⟩
  · exact h
  · exact h.move (.cleanupSupply hp hremove)

variable {w : Withdrawal A} {reply : Reply} {i : Nat}

/-- A settlement takes its withdrawal off the flights, also when it is skipped. -/
theorem settlePosition {succeeded : Bool} (h : Booked C ⟨m, .withdrawal w ::ₘ F, t⟩)
    (hs : m.settlePosition w succeeded = .ok m') : Booked C ⟨m', F, t⟩ := by
  unfold Market.settlePosition at hs
  cases hg : m.supplyPositionGuard w.accountId with
  | none =>
    rw [hg] at hs
    cases hs
    exact h.move (.lose (le_cons_self _ _))
  | some g =>
    simp only [hg, do_ok] at hs
    obtain ⟨g', hg', rfl⟩ := hs
    obtain ⟨h₁, ha, -⟩ := h.openSupply hg
    exact h₁.move (.supply (.settle ha.symm hg'))

theorem settleOne (h : Booked C ⟨m, .withdrawal w ::ₘ F, t⟩)
    (hs : m.settleOne env reply i w = .ok m') : Booked C ⟨m', F, t⟩ := by
  obtain ⟨m₁, hm₁, hs⟩ := bind_eq_ok.mp hs
  have h₁ := h.settlePosition hm₁
  split at hs
  · simp only [do_ok] at hs
    obtain ⟨⟨cleaned, m₂⟩, hm₂, -, rfl⟩ := hs
    exact h₁.cleanupSupply hm₂
  · cases hs
    exact h₁

/-- A batch is settled payment by payment. -/
theorem settleLoop {ws : List (Withdrawal A)} (h : Booked C ⟨m, batchFlights ws + F, t⟩)
    (hs : Market.settleLoop env reply ws i m = .ok m') : Booked C ⟨m', F, t⟩ := by
  induction ws generalizing m i with
  | nil =>
    cases hs
    simpa using h
  | cons w ws ih =>
    obtain ⟨m₁, hm₁, hs⟩ := bind_eq_ok.mp hs
    rw [batchFlights_cons, cons_add] at h
    exact ih (h.settleOne hm₁) hs

end Settlement

section Borrow

variable {g g' : BorrowPositionGuard A}

theorem openBorrow (h : Booked C ⟨m, F, t⟩) (hg : m.borrowPositionGuard a = some g) :
    Booked C ⟨g.drop, F, t⟩ ∧ g.accountId = a := by
  obtain ⟨p, hp, rfl⟩ := Option.map_eq_some_iff.mp hg
  exact ⟨h.move (.openBorrow (Or.inl hp)), rfl⟩

theorem accumulateInterest (h : Booked C ⟨g.drop, F, t⟩) (hi : g.accumulateInterest = .ok g') :
    Booked C ⟨g'.drop, F, t⟩ ∧ g'.Accrued ∧ g'.accountId = g.accountId := by
  have hl : g.market.finalizedSnapshots.length < 2 ^ 32 := h.sound.wellFormed.length_lt
  have h₁ := h.move (.borrow (.accumulate hi))
  obtain ⟨stop, interest, entries, hstop, hpos, hle, -, hnext, -, rfl⟩ :=
    BorrowPositionGuard.accumulateInterestPartial_eq_ok hi
  refine ⟨h₁, ?_, rfl⟩
  simp only [BorrowPositionGuard.Accrued, hnext, hstop, u32Max]
  omega

/-- The guard of an operation, taken out and accrued. -/
theorem borrower (h : Booked C ⟨m, F, t⟩) (hb : m.Borrower t a g) :
    Booked C ⟨g.drop, F, t⟩ ∧ g.Accrued ∧ g.accountId = a := by
  obtain ⟨m₁, g₀, hm₁, hg₀, hg⟩ := hb
  obtain ⟨h₁, ha⟩ := (h.snapshot hm₁).openBorrow hg₀
  obtain ⟨h₂, hacc, ha'⟩ := h₁.accumulateInterest hg
  exact ⟨h₂, hacc, ha'.trans ha⟩

theorem cleanupBorrow {cleaned : Bool} (h : Booked C ⟨m, F, t⟩)
    (hc : m.cleanupBorrowPosition a = .ok (cleaned, m')) : Booked C ⟨m', F, t⟩ := by
  rcases Market.cleanupBorrowPosition_eq_ok hc with rfl | ⟨p, hp, hremove, rfl⟩
  · exact h
  · exact h.move (.cleanupBorrow hp hremove)

end Borrow

section Calls

variable {e : Effect A} {msg : Option (DepositMsg A)} {predecessor : A} {s : System A}
  {pricePair : PricePair} {reply : Reply}

section

variable (h : Booked C ⟨m, F, env.blockTimestampMs⟩)
include h

theorem executeSupply (he : m.executeSupply env a amount = .ok m') : Booked C
    ⟨m', F, env.blockTimestampMs⟩ := by
  simp only [Market.executeSupply, do_ok] at he
  obtain ⟨-, m₁, hm₁, g, hg, g₁, hg₁, g₂, hg₂, within, -, -, rfl⟩ := he
  have h₁ := h.snapshot hm₁
  unfold Market.getOrCreateSupplyPositionGuard at hg
  cases hp : m₁.supplyPositions.lookup a with
  | some p =>
    rw [hp] at hg
    cases hg
    obtain ⟨h₂, hacc, -⟩ := (h₁.move (.openSupply hp)).accumulateYield hg₁
    exact h₂.move (.supply (.deposit hacc hg₂))
  | none =>
    simp only [hp, Market.snapshotsLen, do_ok] at hg
    obtain ⟨len, ⟨-, rfl⟩, rfl⟩ := hg
    exact h₁.move (.createSupply hp hg₁ hg₂)

theorem harvestYield {mode : Option HarvestYieldMode} (he : m.harvestYield env a mode = .ok e) :
    Booked C (e.books F env) := by
  obtain ⟨m₁, hm₁, he⟩ := bind_eq_ok.mp he
  have h₁ := h.snapshot hm₁
  cases hg : m₁.supplyPositionGuard a with
  | none =>
    rw [hg] at he
    cases he
    simpa using h₁
  | some g =>
    obtain ⟨h₂, -⟩ := h₁.openSupply hg
    rw [hg] at he
    obtain ⟨g', hg', rfl, rfl⟩ := bind_eq_ok.mp he
    -- All modes are accruals, with different limits.
    obtain ⟨limit, hlimit⟩ : ∃ limit, g.accumulateYieldPartial limit = .ok g' := by
      cases mode with
      | none => exact ⟨_, hg'⟩
      | some mode =>
        cases mode with
        | default => exact ⟨_, hg'⟩
        | snapshotLimit limit => exact ⟨limit, hg'⟩
    simpa using h₂.move (.supply (.accumulate hlimit))

/-- The payments of a batch are in flight with its receipt. -/
theorem executeNext {batchLimit : Option Nat} {answer : PromiseOrValue A WithdrawalQueueExecutionResult}
    (hc : ∀ m₁, m.snapshot env.blockTimestampMs = .ok m₁ →
      LoopMeets C.withdrawal env.blockTimestampMs (batchLimit.getD 1) ⟨m₁, [], 0⟩)
    (he : m.executeNextSupplyWithdrawalRequest env batchLimit = .ok (m', answer)) :
    Booked C ⟨m', F + flightsOf answer.receipts, env.blockTimestampMs⟩ := by
  simp only [Market.executeNextSupplyWithdrawalRequest, do_ok] at he
  obtain ⟨m₁, hm₁, x, hx, length, -, he⟩ := he
  obtain ⟨f, hf, -⟩ := (h.snapshot hm₁).sound.wellFormed.queue
  obtain ⟨added, depth, l, hb, h₁, -⟩ :=
    (h.snapshot hm₁).executeLoop (x := ⟨m₁, [], 0⟩) ⟨f, hf, rfl⟩ (hc m₁ hm₁) hx
  rw [List.nil_append] at hb
  split at he
  · rename_i hempty
    cases he
    rw [← hb, List.isEmpty_iff.mp hempty] at h₁
    simpa [PromiseOrValue.receipts] using h₁
  · cases he
    rw [← hb, add_comm] at h₁
    have hf : flightsOf [.withdrawal01 x.batch ⟨x.depthCleared, length⟩] = batchFlights x.batch := by
      simp [flightsOf, batchFlights, flights]
    rw [← hf] at h₁
    exact h₁

theorem executeCollateralize (he : m.executeCollateralize env a amount pricePair = .ok m') : Booked
    C ⟨m', F, env.blockTimestampMs⟩ := by
  simp only [Market.executeCollateralize, do_ok] at he
  obtain ⟨-, m₁, hm₁, g, hg, g₁, hg₁, g₂, hg₂, status, -, -, rfl⟩ := he
  have h₁ := h.snapshot hm₁
  have h₂ : Booked C ⟨g.drop, F, env.blockTimestampMs⟩ := by
    unfold Market.getOrCreateBorrowPositionGuard at hg
    cases hp : m₁.borrowPositions.lookup a with
    | some p =>
      rw [hp] at hg
      cases hg
      exact h₁.move (.openBorrow (Or.inl hp))
    | none =>
      simp only [hp, Market.snapshotsLen, do_ok] at hg
      obtain ⟨len, ⟨-, rfl⟩, rfl⟩ := hg
      exact h₁.move (.openBorrow (Or.inr ⟨hp, rfl⟩))
  obtain ⟨h₃, -, -⟩ := h₂.accumulateInterest hg₁
  exact h₃.move (.borrow (.collateralize hg₂))

theorem executeRepay {refund : Nat} (he : m.executeRepay env a amount pricePair = .ok (refund, m')) :
    Booked C ⟨m', F, env.blockTimestampMs⟩ := by
  obtain ⟨m₁, hm₁, he⟩ := bind_eq_ok.mp he
  have h₁ := h.snapshot hm₁
  cases hg : m₁.borrowPositionGuard a with
  | none =>
    rw [hg] at he
    cases he
    exact h₁
  | some g =>
    simp only [hg, do_ok] at he
    obtain ⟨g₁, hg₁, status, -, -, ⟨refund', g₂⟩, hg₂, rfl, rfl⟩ := he
    obtain ⟨h₂, hacc, -⟩ := h.borrower ⟨m₁, g, hm₁, hg, hg₁⟩
    exact h₂.move (.borrow (.repay hacc hg₂))

theorem borrow01 (he : m.borrow01ConsumePrice env reply a amount = .ok e) :
    Booked C (e.books F env) := by
  simp only [Market.borrow01ConsumePrice, do_ok] at he
  obtain ⟨pricePair, -, m₁, hm₁, g, hg, g₁, hg₁, result, hresult, he⟩ := he
  cases result with
  | error e => cases he
  | ok r =>
    obtain ⟨initialBorrow, g₂⟩ := r
    cases he
    obtain ⟨h₂, hacc, ha⟩ := h.borrower ⟨m₁, g, hm₁, hg, hg₁⟩
    have h₃ := h₂.move (.borrow (.borrow hacc hresult))
    rw [ha, ← singleton_add, add_comm] at h₃
    exact h₃

theorem liquidate01 {msg : LiquidateMsg A}
    (he : m.liquidate01ConsumePrice env reply amount msg = .ok e) : Booked C (e.books F env) := by
  simp only [Market.liquidate01ConsumePrice, do_ok] at he
  obtain ⟨pricePair, -, m₁, hm₁, g, hg, g₁, hg₁, result, hresult, he⟩ := he
  cases result with
  | error e => cases he
  | ok r =>
    obtain ⟨liquidation, g₂⟩ := r
    simp only [do_ok] at he
    obtain ⟨⟨cleaned, m₂⟩, hm₂, -, rfl⟩ := he
    obtain ⟨h₂, hacc, -⟩ := h.borrower ⟨m₁, g, hm₁, hg, hg₁⟩
    obtain ⟨recovered, hsettle⟩ := BorrowPositionGuard.recordLiquidation_eq_ok hresult
    have h₃ := (h₂.move (.borrow (.liquidate hacc hsettle))).cleanupBorrow hm₂
    simpa using h₃

theorem withdrawCollateral (he : m.withdrawCollateral env a amount = .ok e) :
    Booked C (e.books F env) := by
  simp only [Market.withdrawCollateral, do_ok] at he
  obtain ⟨m₁, hm₁, g, hg, liability, -, he⟩ := he
  split at he
  · simp only [do_ok] at he
    obtain ⟨g₁, hg₁, g₂, hg₂, rfl⟩ := he
    obtain ⟨h₂, -, ha⟩ := h.borrower ⟨m₁, g, hm₁, hg, hg₁⟩
    have h₃ := h₂.move (.borrow (.withdraw hg₂))
    rw [ha, ← singleton_add, add_comm] at h₃
    exact h₃
  · cases he
    obtain ⟨h₁, -⟩ := (h.snapshot hm₁).openBorrow hg
    simpa [flightsOf, flights] using h₁

theorem withdrawCollateral01 (he : m.withdrawCollateral01ConsumePrice env reply a amount = .ok e) :
    Booked C (e.books F env) := by
  simp only [Market.withdrawCollateral01ConsumePrice, do_ok] at he
  obtain ⟨pricePair, -, m₁, hm₁, g, hg, g₁, hg₁, g₂, hg₂, status, -, -, rfl⟩ := he
  obtain ⟨h₂, -, ha⟩ := h.borrower ⟨m₁, g, hm₁, hg, hg₁⟩
  have h₃ := h₂.move (.borrow (.withdraw hg₂))
  rw [ha, ← singleton_add, add_comm] at h₃
  exact h₃

theorem applyInterest {limit : Option Nat} (he : m.applyInterest env a limit = .ok e) :
    Booked C (e.books F env) := by
  obtain ⟨m₁, hm₁, he⟩ := bind_eq_ok.mp he
  have h₁ := h.snapshot hm₁
  cases hg : m₁.borrowPositionGuard a with
  | none =>
    rw [hg] at he
    cases he
    simpa using h₁
  | some g =>
    simp only [hg, do_ok] at he
    obtain ⟨g₁, hg₁, rfl⟩ := he
    obtain ⟨h₂, -⟩ := h₁.openBorrow hg
    simpa using h₂.move (.borrow (.accumulate hg₁))

theorem deposit {msg : DepositMsg A} (he : m.deposit env a amount msg = .ok e) :
    Booked C (e.books F env) := by
  cases msg with
  | supply =>
    obtain ⟨m₁, hm₁, rfl, rfl⟩ := bind_eq_ok.mp he
    simpa using h.executeSupply hm₁
  | collateralize | repay | repayAccount account | liquidate msg =>
    cases he
    simpa [flightsOf, flights] using h

theorem ftOnTransfer (he : m.ftOnTransfer env predecessor a amount msg = .ok e) :
    Booked C (e.books F env) := by
  simp only [Market.ftOnTransfer, do_ok] at he
  obtain ⟨msg, -, -, he⟩ := he
  exact h.deposit he

theorem mtOnTransfer {owners : List A} {tokenIds : List String} {amounts : List Nat}
    (he : m.mtOnTransfer env predecessor owners tokenIds amounts msg = .ok e) :
    Booked C (e.books F env) := by
  obtain ⟨msg, -, he⟩ := bind_eq_ok.mp he
  split at he
  · split at he
    · obtain ⟨-, -, he⟩ := bind_eq_ok.mp he
      exact h.deposit he
    · cases he
  · cases he

theorem createRequest (he : m.createSupplyWithdrawalRequest a amount = .ok e) :
    Booked C (e.books F env) := by
  simp only [Market.createSupplyWithdrawalRequest, do_ok] at he
  obtain ⟨hamount, position, -, total, -, -, -, -, ⟨removed, q₁⟩, hq₁, q₂, hq₂, rfl⟩ := he
  have h₁ := h.move (.queue (.remove hq₁))
  simpa using h₁.move (.queue (.insert hamount hq₂))

theorem cancelRequest (he : m.cancelSupplyWithdrawalRequest a = .ok e) :
    Booked C (e.books F env) := by
  obtain ⟨⟨removed, q₁⟩, hq₁, rfl, rfl⟩ := bind_eq_ok.mp he
  simpa using h.move (.queue (.remove hq₁))

theorem accumulateStaticYield {limit : Option Nat}
    (he : m.accumulateStaticYieldCall a limit = .ok e) : Booked C (e.books F env) := by
  simp only [Market.accumulateStaticYieldCall, do_ok] at he
  obtain ⟨result, hresult, m₁, rfl, rfl⟩ := he
  simpa using h.move (.accumulateStaticYield hresult)

theorem withdrawStaticYield {requested : Option Nat}
    (he : m.withdrawStaticYield a requested = .ok e) : Booked C (e.books F env) := by
  obtain ⟨record, sent, -, -, -, rfl⟩ := Market.withdrawStaticYield_eq_ok he
  have h₁ := h.move (.withdrawStaticYield he)
  rw [← singleton_add, add_comm] at h₁
  exact h₁

end

/-- The borrow that settles was in flight. -/
theorem borrow02 {initialBorrow : InitialBorrow}
    (h : Booked C ⟨m, .borrow a initialBorrow ::ₘ F, env.blockTimestampMs⟩)
    (hc : ∀ g, reply.succeeded 0 = true → m.Borrower env.blockTimestampMs a g → C.borrow g initialBorrow)
    (he : m.borrow02Finalize env reply a initialBorrow = .ok e) : Booked C (e.books F env) := by
  simp only [Market.borrow02Finalize, do_ok] at he
  obtain ⟨m₁, hm₁, g, hg, g₁, hg₁, g₂, hg₂, rfl⟩ := he
  have hb : m.Borrower env.blockTimestampMs a g₁ := ⟨m₁, g, hm₁, hg, hg₁⟩
  obtain ⟨h₂, hacc, rfl⟩ := h.borrower hb
  have h₃ := h₂.move (.borrow (.settleBorrow hacc (fun hs => hc g₁ hs hb) hg₂))
  simpa using h₃

/-- So was the collateral. -/
theorem withdrawCollateral02 (h : Booked C ⟨m, .collateral a amount ::ₘ F, env.blockTimestampMs⟩)
    (he : m.withdrawCollateral02Finalize env reply a amount = .ok e) :
    Booked C (e.books F env) := by
  simp only [Market.withdrawCollateral02Finalize, do_ok] at he
  obtain ⟨m₁, hm₁, g, hg, g₁, hg₁, g₂, hg₂, he⟩ := he
  obtain ⟨h₂, -, rfl⟩ := h.borrower ⟨m₁, g, hm₁, hg, hg₁⟩
  have h₃ := h₂.move (.borrow (.settleWithdrawal hg₂))
  split at he
  · simp only [do_ok] at he
    obtain ⟨⟨cleaned, m₂⟩, hm₂, -, rfl⟩ := he
    simpa using h₃.cleanupBorrow hm₂
  · cases he
    simpa using h₃

/-- Every entry point is a sequence of moves. -/
theorem call {c : Call A} (h : Booked C ⟨s.market, F, env.blockTimestampMs⟩)
    (hc : Meets C s (.call env c)) (he : s.market.call env c = .ok e) :
    Booked C (e.books F env) := by
  cases c with
  | ftOnTransfer predecessor senderId amount msg => exact h.ftOnTransfer he
  | mtOnTransfer predecessor owners tokenIds amounts msg => exact h.mtOnTransfer he
  | borrow predecessor amount =>
    simp only [Market.call, Market.borrow, do_ok] at he
    obtain ⟨-, -, rfl⟩ := he
    simpa [flightsOf, flights] using h
  | withdrawCollateral predecessor amount => exact h.withdrawCollateral he
  | applyInterest predecessor accountId limit => exact h.applyInterest he
  | createSupplyWithdrawalRequest predecessor amount => exact h.createRequest he
  | cancelSupplyWithdrawalRequest predecessor => exact h.cancelRequest he
  | executeNextSupplyWithdrawalRequest batchLimit =>
    obtain ⟨⟨m', answer⟩, hnext, he⟩ := bind_eq_ok.mp he
    cases he
    exact h.executeNext hc hnext
  | harvestYield predecessor accountId mode => exact h.harvestYield he
  | accumulateStaticYield predecessor accountId limit => exact h.accumulateStaticYield he
  | withdrawStaticYield predecessor amount => exact h.withdrawStaticYield he

/-- Every callback is a sequence of moves that settles its own flights. -/
theorem callback {place : Nat} {r : Receipt A}
    (h : Booked C ⟨s.market, r.flights + F, env.blockTimestampMs⟩) (hr : s.pending[place]? = some r)
    (hc : Meets C s (.callback env place reply)) (he : s.market.callback env reply r = .ok e) :
    Booked C (e.books F env) := by
  cases r with
  | borrow01 a amount =>
    simp only [flights, coe_nil, zero_add] at h
    exact h.borrow01 he
  | borrow02 a initialBorrow => exact h.borrow02 (fun g hs hb => hc a initialBorrow g hr hs hb) he
  | collateralize01 a amount =>
    simp only [flights, coe_nil, zero_add] at h
    simp only [Market.callback, do_ok] at he
    obtain ⟨pricePair, -, m₁, hm₁, rfl⟩ := he
    simpa using h.executeCollateralize hm₁
  | repay01 a amount =>
    simp only [flights, coe_nil, zero_add] at h
    simp only [Market.callback, do_ok] at he
    obtain ⟨pricePair, -, ⟨refund, m₁⟩, hm₁, rfl⟩ := he
    simpa using h.executeRepay hm₁
  | liquidate01 amount msg =>
    simp only [flights, coe_nil, zero_add] at h
    exact h.liquidate01 he
  | withdrawCollateral01 a amount =>
    simp only [flights, coe_nil, zero_add] at h
    exact h.withdrawCollateral01 he
  | withdrawCollateral02 a amount => exact h.withdrawCollateral02 he
  | withdrawal01 ws result =>
    simp only [Market.callback, Market.withdrawal01Finalize, do_ok] at he
    obtain ⟨_, ⟨m₁, hm₁, m₂, hm₂, rfl⟩, rfl⟩ := he
    simpa using (h.snapshot hm₁).settleLoop hm₂
  | withdrawStaticYield01 a amount =>
    rcases Market.withdrawStaticYield01Finalize_eq_ok he with rfl | ⟨record, -, rfl⟩
    all_goals simpa using h.move (.settleStaticYield he)

end Calls

end Booked

namespace System

variable {C : Conditions A} {s : System A}

/-- One action of a run is a sequence of moves. -/
theorem step_booked {action : Action A} (h : Booked C s.books)
    (ht : s.time ≤ action.env.blockTimestampMs) (hc : Meets C s action) :
    Booked C (s.step action).books := by
  have htick : Booked C ⟨s.market, flightsOf s.pending, action.env.blockTimestampMs⟩ :=
    h.move (.tick ht action.env.blockTimestampMs_lt)
  have hlose : ∀ place, Booked C
      ⟨s.market, flightsOf (s.pending.eraseIdx place), action.env.blockTimestampMs⟩ :=
    fun place => htick.move (.lose (flightsOf_eraseIdx_le _ _))
  cases action with
  | call env c =>
    cases he : s.market.call env c with
    | error e =>
      simp only [step, he]
      exact htick
    | ok effect =>
      simp only [step, he, books, flightsOf_append]
      exact htick.call hc he
  | callback env place reply =>
    cases hr : s.pending[place]? with
    | none =>
      simp only [step, hr]
      exact htick
    | some r =>
      cases he : s.market.callback env reply r with
      | error e =>
        simp only [step, hr, he]
        exact hlose place
      | ok effect =>
        simp only [step, hr, he, books, flightsOf_append]
        rw [flightsOf_eraseIdx hr] at htick
        exact htick.callback hr hc he
  | outOfGas env place => exact hlose place

/-- The books of every state of every run. -/
theorem ReachableBy.booked (h : ReachableBy (Meets C) s) : Booked C s.books := by
  induction h with
  | new ht h => exact .new ht h
  | step _ ht hc ih => exact step_booked ih ht hc

theorem loopMeets_none {P : SupplyPositionGuard A → Nat → Prop} (hP : ∀ g amount, P g amount)
    (time remaining : Nat) (x : Market.Execution A) : LoopMeets P time remaining x := by
  induction remaining generalizing x with
  | zero => trivial
  | succ remaining ih => exact fun a amount _ => ⟨fun _ g' _ _ => hP g' amount, fun x' _ => ih x'⟩

theorem meets_none (s : System A) (action : Action A) : Meets Conditions.none s action := by
  cases action with
  | call env c =>
    cases c with
    | executeNextSupplyWithdrawalRequest batchLimit =>
      exact fun m _ => loopMeets_none (fun _ _ => trivial) _ _ _
    | _ => trivial
  | callback env place reply => exact fun _ _ _ _ _ _ => trivial
  | outOfGas env place => trivial

/-- The books of every run come about by moves. -/
theorem Reachable.booked (h : Reachable s) : Booked Conditions.none s.books := by
  induction h with
  | new ht h => exact .new ht h
  | @step s _ action ht _ ih => exact step_booked ih ht (meets_none s action)

end System

end Templar.Lending
