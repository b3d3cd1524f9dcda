import Templar.Lib.Places
import Templar.Near.Leases

/-!
# The NEAR vault among its token and its markets

The runs of the contract, with what happens outside: the vault's balance of the underlying token,
its true position in every market, deposits that have arrived but are not yet taken or returned,
and how far each outgoing call has come. A transfer with a call to a market takes three moves:
the tokens leave, the market keeps a part, the rest comes back. A market that executes a
withdrawal pays and lowers the position, and the position is read after that.

A position or a balance that is read is the true one at that moment, or the read fails. Tokens
move in no other way, except that anybody may send some to the vault and that a position may earn
interest.
-/

namespace Templar.Near

open Checked Vault Curator Function

variable {A : Type}

/-- The call behind a callback. A market that executes its withdrawals is asked for the position
after that. -/
inductive Outgoing where
  | transferCall (market amount : Nat)
  | transfer (amount : Nat)
  | readBalance
  | readPosition (market : Nat)
  | executeWithdrawal (market : Nat)
  | createRequest
  deriving DecidableEq, Repr

def Callback.outgoing : Callback A → Outgoing
  | .supply01HandleTransfer marketId _ _ attempted _ => .transferCall marketId attempted
  | .supply02PositionRead marketId _ _ _ _ _ _ => .readPosition marketId
  | .withdraw01HandleCreateRequest _ _ _ => .createRequest
  | .rebalanceWithdraw01AfterCreateRequest _ _ => .createRequest
  | .executeWithdraw01 _ _ _ => .readBalance
  | .executeWithdraw02 _ market _ _ _ => .executeWithdrawal market
  | .executeWithdraw03 _ _ _ _ _ _ => .readBalance
  | .rebalanceWithdraw01 _ _ _ _ => .readBalance
  | .rebalanceWithdraw02 _ marketId _ _ _ => .executeWithdrawal marketId
  | .rebalanceWithdraw03 _ _ _ _ _ _ => .readBalance
  | .stopAndExitPayout01Reconcile _ => .readBalance
  | .payment01ReconcileIdleOrRefund _ _ amount => .transfer amount
  | .refresh01Settle marketId _ _ _ => .readPosition marketId
  | .resyncIdleBalance01Settle _ _ _ _ => .readBalance

/-- How far an outgoing call has come. -/
inductive Progress where
  | scheduled
  /-- The tokens are with the market, which has not decided yet. -/
  | held (amount : Nat)
  /-- The market has kept a part, and the rest is on its way back. -/
  | accepted (amount kept : Nat)
  /-- The market has paid, and the position is to be read. -/
  | paid (amount : Nat)
  | answered (reply : Reply)
  deriving DecidableEq, Repr

structure Receipt (A : Type) where
  callback : Callback A
  progress : Progress
  deriving DecidableEq, Repr

/-- `arriving` are deposits the vault has not looked at yet, `returning` are refunds it still
holds. `paid` is what the last market withdrawal has paid. -/
structure World (A : Type) where
  contract : Contract A
  balance : Nat
  positions : Nat → Nat
  arriving : List (A × Nat)
  returning : List Nat
  receipts : List (Receipt A)
  paid : Nat
  time : Nat

/-- What the other side of an outgoing call does next. -/
inductive Reaction where
  | fails
  | proceeds
  | keeps (amount : Nat)
  | pays (amount drop : Nat)
  deriving DecidableEq, Repr

inductive Event (A : Type) where
  | call (env : Env A) (call : Call A)
  | deposit (sender : A) (amount : Nat)
  | receive (env : Env A) (place : Nat)
  | refund (place : Nat)
  | donate (amount : Nat)
  | earn (market amount : Nat)
  | react (place : Nat) (reaction : Reaction)
  | callback (env : Env A) (place : Nat)

/-- Only what runs in the contract has a time. -/
def Event.time : Event A → Option Nat
  | .call env _ => some env.blockTimestamp
  | .receive env _ => some env.blockTimestamp
  | .callback env _ => some env.blockTimestamp
  | _ => none

/-- Deposits come through the token only. -/
def Call.isDeposit : Call A → Bool
  | .ftOnTransfer _ _ => true
  | _ => false

namespace World

variable (w : World A)

def toSystem : System A := ⟨w.contract, w.receipts.map Receipt.callback, w.time⟩

/-- Tokens that the vault holds for others. -/
def transit : Nat := (w.arriving.map Prod.snd).sum + w.returning.sum

/-- An empty position is reported as missing. -/
def report (market : Nat) : Reply :=
  .position (if w.positions market = 0 then none else some (w.positions market))

def advance (place : Nat) (r : Receipt A) (progress : Progress) : World A :=
  { w with receipts := w.receipts.set place { r with progress := progress } }

/-- Balances are machine words, and a transfer of more than there is does not happen. -/
def react (place : Nat) (r : Receipt A) : Reaction → World A
  | .fails =>
    match r.progress with
    | .scheduled => w.advance place r (.answered .failed)
    | .paid _ => w.advance place r (.answered .failed)
    | _ => w
  | .proceeds =>
    match r.progress, r.callback.outgoing with
    | .scheduled, .transferCall _ amount =>
      if amount ≤ w.balance then
        { w with balance := w.balance - amount }.advance place r (.held amount)
      else w
    | .accepted amount kept, .transferCall _ _ =>
      if w.balance + (amount - kept) < 2 ^ 128 then
        { w with balance := w.balance + (amount - kept) }.advance place r (.answered (.amount kept))
      else w
    | .scheduled, .transfer amount =>
      if amount ≤ w.balance then
        { w with balance := w.balance - amount }.advance place r (.answered .done)
      else w
    | .scheduled, .readBalance => w.advance place r (.answered (.amount w.balance))
    | .scheduled, .readPosition market => w.advance place r (.answered (w.report market))
    | .paid _, .executeWithdrawal market => w.advance place r (.answered (w.report market))
    | .scheduled, .createRequest => w.advance place r (.answered .done)
    | _, _ => w
  | .keeps kept =>
    match r.progress, r.callback.outgoing with
    | .held amount, .transferCall market _ =>
      if kept ≤ amount then
        { w with positions := update w.positions market (w.positions market + kept) }.advance
          place r (.accepted amount kept)
      else w
    | _, _ => w
  | .pays amount drop =>
    match r.progress, r.callback.outgoing with
    | .scheduled, .executeWithdrawal market =>
      if drop ≤ w.positions market ∧ w.balance + amount < 2 ^ 128 then
        { w with
          balance := w.balance + amount
          positions := update w.positions market (w.positions market - drop)
          paid := amount }.advance place r (.paid amount)
      else w
    | _, _ => w

/-- The contract takes a step of its own at a time. -/
def settle (receipts : List (Receipt A)) (time : Nat) : Outcome (Step A) → World A
  | .ok (c, promise) =>
    { w with
      contract := c
      receipts := receipts ++ promise.toList.map (fun callback => ⟨callback, .scheduled⟩)
      time := time }
  | .error _ => { w with receipts := receipts, time := time }

variable [DecidableEq A]

/-- A deposit that the contract refuses with a panic is returned like any other refund. -/
def receive (env : Env A) (place : Nat) (sender : A) (amount : Nat) : World A :=
  match w.contract.ftOnTransfer env sender amount with
  | .ok (c, refund) =>
    { w with
      contract := c
      arriving := w.arriving.eraseIdx place
      returning := w.returning ++ [refund]
      time := env.blockTimestamp }
  | .error _ =>
    { w with
      arriving := w.arriving.eraseIdx place
      returning := w.returning ++ [amount]
      time := env.blockTimestamp }

def step : Event A → World A
  | .call env call =>
    if call.isDeposit then { w with time := env.blockTimestamp }
    else w.settle w.receipts env.blockTimestamp (call.run env w.contract)
  | .deposit sender amount =>
    if w.balance + amount < 2 ^ 128 then
      { w with balance := w.balance + amount, arriving := w.arriving ++ [(sender, amount)] }
    else w
  | .receive env place =>
    match w.arriving[place]? with
    | some (sender, amount) => w.receive env place sender amount
    | none => { w with time := env.blockTimestamp }
  | .refund place =>
    match w.returning[place]? with
    | some amount =>
      if amount ≤ w.balance then
        { w with balance := w.balance - amount, returning := w.returning.eraseIdx place }
      else w
    | none => w
  | .donate amount =>
    if w.balance + amount < 2 ^ 128 then { w with balance := w.balance + amount } else w
  | .earn market amount =>
    { w with positions := update w.positions market (w.positions market + amount) }
  | .react place reaction =>
    match w.receipts[place]? with
    | some r => w.react place r reaction
    | none => w
  | .callback env place =>
    match w.receipts[place]? with
    | some ⟨callback, .answered reply⟩ =>
      w.settle (w.receipts.eraseIdx place) env.blockTimestamp (callback.run env w.contract reply)
    | _ => { w with time := env.blockTimestamp }

def run (events : List (Event A)) : World A := events.foldl (fun w event => w.step event) w

/-- The worlds reached from a new contract without tokens or positions, by events that all meet a
condition. -/
inductive ReachableBy (ok : World A → Event A → Prop) : World A → Prop where
  | new {env : Env A} {configuration c} (h : Contract.new env configuration = .ok c) :
      ReachableBy ok ⟨c, 0, fun _ => 0, [], [], [], 0, env.blockTimestamp⟩
  | step {w : World A} (h : ReachableBy ok w) {event : Event A}
      (ht : ∀ time ∈ event.time, w.time ≤ time) (hok : ok w event) : ReachableBy ok (w.step event)

variable {w : World A} {ok : World A → Event A → Prop}

omit [DecidableEq A] in
theorem toSystem_advance {place : Nat} {r : Receipt A} (h : w.receipts[place]? = some r)
    (progress : Progress) : (w.advance place r progress).toSystem = w.toSystem := by
  simp only [toSystem, advance, map_set_of_eq (f := Receipt.callback) (b := ⟨r.callback, progress⟩) h rfl]

omit [DecidableEq A] in
/-- What happens outside the contract does not touch it. -/
theorem toSystem_react {place : Nat} {r : Receipt A} (h : w.receipts[place]? = some r)
    (reaction : Reaction) : (w.react place r reaction).toSystem = w.toSystem := by
  cases reaction with
  | _ =>
    simp only [react]
    split
    all_goals
      first
      | rfl
      | exact toSystem_advance h _
      | split
        · exact toSystem_advance (w := { w with balance := _, positions := _, paid := _ }) h _
        · rfl

omit [DecidableEq A] in
theorem map_scheduled (promise : Option (Callback A)) :
    (promise.toList.map (fun callback => (⟨callback, .scheduled⟩ : Receipt A))).map
      Receipt.callback = promise.toList := by
  cases promise <;> rfl

theorem toSystem_call (w : World A) (env : Env A) (call : Call A) :
    (w.settle w.receipts env.blockTimestamp (call.run env w.contract)).toSystem =
      w.toSystem.step (.call env call) := by
  simp only [toSystem, System.step]
  split
  · rename_i c p hrun
    simp only [hrun, settle, List.map_append, map_scheduled]
  · rename_i e hrun
    simp only [hrun, settle]

theorem toSystem_callback {place : Nat} {callback : Callback A} {reply : Reply}
    (h : w.receipts[place]? = some ⟨callback, .answered reply⟩) (env : Env A) :
    (w.settle (w.receipts.eraseIdx place) env.blockTimestamp
      (callback.run env w.contract reply)).toSystem = w.toSystem.step (.callback env place reply) := by
  have hplace : (w.receipts.map Receipt.callback)[place]? = some callback := by
    rw [List.getElem?_map, h]
    rfl
  simp only [toSystem, System.step, hplace]
  split
  · rename_i c p hrun
    simp only [hrun, settle, List.map_append, map_scheduled, List.eraseIdx_map]
  · rename_i e hrun
    simp only [hrun, settle, List.eraseIdx_map]

theorem toSystem_receive (w : World A) (env : Env A) (place : Nat) (sender : A)
    (amount : Nat) : (w.receive env place sender amount).toSystem =
      w.toSystem.step (.call env (.ftOnTransfer sender amount)) := by
  simp only [toSystem, System.step, Call.run, receive]
  cases hrun : w.contract.ftOnTransfer env sender amount with
  | error e => rfl
  | ok r => simp [bind, Except.bind, pure, Except.pure]

/-- The contract's part of a run is a run of the contract. -/
theorem ReachableBy.system (h : ReachableBy ok w) : w.toSystem.Reachable := by
  induction h with
  | new h => exact .new h
  | @step w _ event ht _ ih =>
    cases event with
    | call env call =>
      simp only [World.step]
      split
      · exact ih.wait env (ht _ rfl)
      · rw [toSystem_call]
        exact ih.step (ht _ rfl)
    | deposit sender amount =>
      simp only [World.step]
      split <;> exact ih
    | receive env place =>
      simp only [World.step]
      split
      · rw [toSystem_receive]
        exact ih.step (ht _ rfl)
      · exact ih.wait env (ht _ rfl)
    | refund place =>
      simp only [World.step]
      split
      · split <;> exact ih
      · exact ih
    | donate amount =>
      simp only [World.step]
      split <;> exact ih
    | earn market amount => exact ih
    | react place reaction =>
      simp only [World.step]
      split
      · rename_i r hr
        rw [toSystem_react hr]
        exact ih
      · exact ih
    | callback env place =>
      simp only [World.step]
      split
      · rename_i callback reply hr
        rw [toSystem_callback hr]
        exact ih.step (ht _ rfl)
      · exact ih.wait env (ht _ rfl)

/-- Events at nondecreasing times that all meet a condition. -/
def Allowed (ok : World A → Event A → Prop) : World A → List (Event A) → Prop
  | _, [] => True
  | w, event :: rest =>
    (∀ time ∈ event.time, w.time ≤ time) ∧ ok w event ∧ Allowed ok (w.step event) rest

instance decidableAllowed [∀ w event, Decidable (ok w event)] (w : World A)
    (events : List (Event A)) : Decidable (Allowed ok w events) :=
  match events with
  | [] => .isTrue trivial
  | event :: rest =>
    have := decidableAllowed (w.step event) rest
    inferInstanceAs (Decidable (_ ∧ _ ∧ _))

theorem ReachableBy.run (h : ReachableBy ok w) {events : List (Event A)}
    (ha : Allowed ok w events) : ReachableBy ok (w.run events) := by
  induction events generalizing w with
  | nil => exact h
  | cons event rest ih =>
    obtain ⟨ht, hok, ha⟩ := ha
    exact ih (h.step ht hok) ha

/-- The world with a new contract, if its configuration is accepted. -/
def start (env : Env A) (configuration : VaultConfiguration A) : Option (World A) :=
  match Contract.new env configuration with
  | .ok c => some ⟨c, 0, fun _ => 0, [], [], [], 0, env.blockTimestamp⟩
  | .error _ => none

/-- What holds after a run holds of a world that is reached. -/
theorem exists_reachableBy {P : World A → Prop} (env : Env A) (configuration : VaultConfiguration A)
    (events : List (Event A))
    (h : ∃ w, start env configuration = some w ∧ Allowed ok w events ∧ P (w.run events)) :
    ∃ w : World A, ReachableBy ok w ∧ P w := by
  obtain ⟨w, hw, hallowed, hP⟩ := h
  unfold start at hw
  split at hw
  · rename_i c hc
    cases hw
    exact ⟨_, (ReachableBy.new hc).run hallowed, hP⟩
  · cases hw

end World

end Templar.Near
