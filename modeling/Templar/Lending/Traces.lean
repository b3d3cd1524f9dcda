import Templar.Lending.Runs

/-!
# Runs from a list of actions

A list of actions at times in order determines a run from a new market. What a run is
required to meet, and what it is to reach, can be tested by evaluating it; a passed test
says that such runs reach a state with the tested property.
-/

namespace Templar.Lending

open Checked Decimal

variable {A : Type} [DecidableEq A]

/-- The test for a condition at one visited entry, by running the accrual before it. -/
def visitTest (P : SupplyPositionGuard A → Nat → Bool) (m : Market A)
    (a : A) (amount : Nat) : Bool :=
  match m.supplyPositionGuard a with
  | none => true
  | some g =>
    match g.accumulateYield with
    | .ok g' => P g' amount
    | .error _ => true

/-- The test for a condition at all visited entries, by running the execution. -/
def loopTest (P : SupplyPositionGuard A → Nat → Bool) (time : Nat) : Nat → Market.Execution A → Bool
  | 0, _ => true
  | remaining + 1, x =>
    match x.market.withdrawalQueue.peek with
    | .ok (some (a, amount)) => visitTest P x.market a amount &&
        match x.visit time a amount with
        | .ok (true, x') => loopTest P time remaining x'
        | _ => true
    | _ => true

theorem loopMeets_of_test {P : SupplyPositionGuard A → Nat → Bool} {time remaining : Nat}
    {x : Market.Execution A} (h : loopTest P time remaining x = true) :
    LoopMeets (fun g amount => P g amount = true) time remaining x := by
  induction remaining generalizing x with
  | zero => trivial
  | succ remaining ih =>
    intro a amount hpeek
    simp only [loopTest, hpeek, Bool.and_eq_true] at h
    obtain ⟨hvisit, hnext⟩ := h
    constructor
    · intro g g' hg hg'
      simpa only [visitTest, hg, hg'] using hvisit
    · intro x' hx'
      rw [hx'] at hnext
      exact ih hnext

namespace System

variable {s : System A} {ok : System A → Action A → Prop} {actions : List (Action A)}

def run (s : System A) (actions : List (Action A)) : System A := actions.foldl step s

/-- The times of a run do not go back. -/
def InOrder (time : Nat) : List (Action A) → Prop
  | [] => True
  | action :: rest => time ≤ action.env.blockTimestampMs ∧ InOrder action.env.blockTimestampMs rest

omit [DecidableEq A] in
instance decidableInOrder : (time : Nat) → (actions : List (Action A)) →
    Decidable (InOrder time actions)
  | _, [] => .isTrue trivial
  | _, action :: rest =>
    @instDecidableAnd _ _ _ (decidableInOrder action.env.blockTimestampMs rest)

/-- Every action of a run meets a condition, in the state it is taken in. -/
def AllMeet (ok : System A → Action A → Prop) : System A → List (Action A) → Prop
  | _, [] => True
  | s, action :: rest => ok s action ∧ AllMeet ok (s.step action) rest

theorem step_time (s : System A) (action : Action A) :
    (s.step action).time = action.env.blockTimestampMs := by
  cases action with
  | call env call =>
    simp only [step]
    split <;> rfl
  | callback env place reply =>
    simp only [step]
    split
    · rfl
    · split <;> rfl
  | outOfGas env place => rfl

theorem ReachableBy.run (h : ReachableBy ok s) (ho : InOrder s.time actions)
    (hm : AllMeet ok s actions) : ReachableBy ok (s.run actions) := by
  induction actions generalizing s with
  | nil => exact h
  | cons action rest ih =>
    obtain ⟨ht, ho⟩ := ho
    obtain ⟨hok, hm⟩ := hm
    exact ih (h.step ht hok) (by rwa [step_time]) hm

theorem allMeet_true (s : System A) (actions : List (Action A)) :
    AllMeet (fun _ _ => True) s actions := by
  induction actions generalizing s with
  | nil => trivial
  | cons action rest ih => exact ⟨trivial, ih _⟩

/-- A test of every action of a run. -/
def allTest (T : System A → Action A → Bool) : System A → List (Action A) → Bool
  | _, [] => true
  | s, action :: rest => T s action && allTest T (s.step action) rest

theorem allMeet_of_test {T : System A → Action A → Bool}
    (hT : ∀ s action, T s action = true → ok s action) (h : allTest T s actions = true) :
    AllMeet ok s actions := by
  induction actions generalizing s with
  | nil => trivial
  | cons action rest ih =>
    simp only [allTest, Bool.and_eq_true] at h
    exact ⟨hT s action h.1, ih h.2⟩

/-- The system with a new market, if its configuration is accepted. -/
def start (configuration : MarketConfiguration A) (time : Nat) : Option (System A) :=
  match Market.new configuration time with
  | .ok m => some ⟨m, [], time⟩
  | .error _ => none

variable {P : System A → Prop}

/-- What holds after a tested run holds of a state that such runs reach. -/
theorem exists_reachableBy (configuration : MarketConfiguration A) (time : Nat)
    (actions : List (Action A)) (T : System A → Action A → Bool)
    (hT : ∀ s action, T s action = true → ok s action)
    (h : ∃ s, start configuration time = some s ∧ allTest T s actions = true ∧ P (s.run actions))
    (ht : time < 2 ^ 64) (ho : InOrder time actions) : ∃ s : System A, s.ReachableBy ok ∧ P s := by
  obtain ⟨s, hs, htest, hP⟩ := h
  unfold start at hs
  split at hs
  · rename_i m hm
    cases hs
    exact ⟨_, (ReachableBy.new ht hm).run ho (allMeet_of_test hT htest), hP⟩
  · cases hs

theorem exists_reachable (configuration : MarketConfiguration A) (time : Nat)
    (actions : List (Action A)) (h : ∃ s, start configuration time = some s ∧ P (s.run actions))
    (ht : time < 2 ^ 64) (ho : InOrder time actions) : ∃ s : System A, s.Reachable ∧ P s := by
  obtain ⟨s, hs, hP⟩ := h
  unfold start at hs
  split at hs
  · rename_i m hm
    cases hs
    exact ⟨_, (ReachableBy.new ht hm).run ho (allMeet_true _ _), hP⟩
  · cases hs

/-- The guard of the next operation on a borrow position, if it can be taken out. -/
def borrower (s : System A) (time : Nat) (a : A) : Option (BorrowPositionGuard A) :=
  match s.market.snapshot time with
  | .error _ => none
  | .ok m =>
    match m.borrowPositionGuard a with
    | none => none
    | some g => g.accumulateInterest.toOption

/-- The test for conditions at one action. -/
def meetsTest (W : SupplyPositionGuard A → Nat → Bool)
    (B : BorrowPositionGuard A → InitialBorrow → Bool) (s : System A) :
    Action A → Bool
  | .call env (.executeNextSupplyWithdrawalRequest batchLimit) =>
    match s.market.snapshot env.blockTimestampMs with
    | .ok m => loopTest W env.blockTimestampMs (batchLimit.getD 1) ⟨m, [], 0⟩
    | .error _ => true
  | .callback env place reply =>
    match s.pending[place]? with
    | some (.borrow02 a initialBorrow) =>
      !reply.succeeded 0 || (s.borrower env.blockTimestampMs a).all fun g => B g initialBorrow
    | _ => true
  | _ => true

theorem meets_of_test {C : Conditions A} {W : SupplyPositionGuard A → Nat → Bool}
    {B : BorrowPositionGuard A → InitialBorrow → Bool}
    (hW : ∀ g amount, W g amount = true → C.withdrawal g amount)
    (hB : ∀ g initialBorrow, B g initialBorrow = true → C.borrow g initialBorrow)
    (s : System A) (action : Action A) (h : meetsTest W B s action = true) :
    Meets C s action := by
  cases action with
  | call env c =>
    cases c with
    | executeNextSupplyWithdrawalRequest batchLimit =>
      intro m hm
      simp only [meetsTest, hm] at h
      exact (loopMeets_of_test h).mono hW
    | _ => trivial
  | callback env place reply =>
    intro a initialBorrow g hr hsucceeded hg
    obtain ⟨m, g₀, hm, hg₀, hg⟩ := hg
    have hborrower : s.borrower env.blockTimestampMs a = some g := by
      simp only [borrower, hm, hg₀, hg]
      rfl
    simp only [meetsTest, hr, hsucceeded, hborrower, Bool.not_true, Bool.false_or,
      Option.all_some] at h
    exact hB g initialBorrow h
  | outOfGas env place => trivial

end System

section Sample

/-- A market in which one unit of either asset is worth the same. -/
def sampleConfiguration : MarketConfiguration Nat where
  timeChunkConfiguration := .v1 1000
  borrowAsset := .nep141 10
  collateralAsset := .nep141 11
  priceOracleConfiguration := ⟨1, 0, 2, 0⟩
  borrowMcrMaintenance := ofUInt 2
  borrowMcrLiquidation := ofUInt 2
  borrowAssetMaximumUsageRatio := one
  borrowOriginationFee := .flat 10
  borrowInterestRateStrategy := .zero
  borrowMaximumDurationMs := none
  borrowRange := ⟨⟨1, none⟩, rfl⟩
  supplyRange := ⟨⟨1, none⟩, rfl⟩
  supplyWithdrawalRange := ⟨⟨1, none⟩, rfl⟩
  supplyWithdrawalFee := .zero
  yieldWeights := ⟨1, ∅, by decide⟩
  protocolAccountId := 99
  liquidationMaximumSpread := zero

/-- An environment at a time below `2 ^ 64` in which the storage bookkeeping agrees to everything. -/
def sampleEnv (time : Nat) : Env :=
  ⟨time % 2 ^ 64, true, fun _ => true, Nat.mod_lt _ (Nat.two_pow_pos 64)⟩

def sampleReply (succeeded : Bool) : Reply where
  oracleResponse :=
    let price : Option PythPrice := some ⟨1, 0, 0, by decide⟩
    some ((∅ : OracleResponse).insert 1 price |>.insert 2 price)
  succeeded := fun _ => succeeded

def supplyAction (time a amount : Nat) : Action Nat :=
  .call (sampleEnv time) (.ftOnTransfer 10 a amount (some .supply))

/-- A deposit of collateral and its price. -/
def collateralActions (time a amount : Nat) : List (Action Nat) :=
  [.call (sampleEnv time) (.ftOnTransfer 11 a amount (some .collateralize)),
    .callback (sampleEnv time) 0 (sampleReply true)]

/-- A borrow up to the transfer, which is left in flight. -/
def borrowActions (time a amount place : Nat) : List (Action Nat) :=
  [.call (sampleEnv time) (.borrow a amount), .callback (sampleEnv time) place (sampleReply true)]

def requestAction (time a amount : Nat) : Action Nat :=
  .call (sampleEnv time) (.createSupplyWithdrawalRequest a amount)

/-- A hundred units of the first account, deposited and activated. -/
def activeSupply : List (Action Nat) :=
  [supplyAction 1000 1 100, .call (sampleEnv 2000) (.harvestYield 1 none none)]

end Sample

end Templar.Lending
