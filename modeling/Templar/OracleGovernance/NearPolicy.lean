import Templar.OracleGovernance.Kernel

/-!
# The policy of the governance on NEAR

Operations on the governance itself wait in one of three buckets; calls of the oracle wait
as long as the table of methods says, with a default for methods that are not listed.

A policy carries two of its documented invariants: no override waits longer than the
default, and there are at most `maxMethodPolicies` overrides. The third, that no lock
exceeds `maxProposalTtl`, is checked where a policy enters from outside; a table migrated
from the old contract need not have it, so it is not part of the type.
-/

namespace Templar.OracleGovernance.Near

open Checked Std ExtTreeMap

/-- The longest lock, 180 days in nanoseconds. -/
def maxProposalTtl : Nat := 180 * 24 * 60 * 60 * 1000000000

def maxMethodPolicies : Nat := 64

def maxPendingProposals : Nat := 64

inductive Role where
  | manualTripper
  | circuitBreakerOperator
  | proxyConfigurationManager
  | admin
  deriving DecidableEq

structure FunctionCall where
  methodName : String
  args : List UInt8
  attachedDeposit : Nat
  gas : Nat
  deriving DecidableEq

structure MethodPolicy where
  ttl : Nat
  role : Role
  deriving DecidableEq

inductive ReflexiveKind where
  | setPolicy
  | setRole
  | selfUpgrade
  deriving DecidableEq

structure ReflexiveTtls where
  setPolicy : Nat
  setRole : Nat
  selfUpgrade : Nat
  deriving DecidableEq

namespace ReflexiveTtls

def get (ttls : ReflexiveTtls) : ReflexiveKind → Nat
  | .setPolicy => ttls.setPolicy
  | .setRole => ttls.setRole
  | .selfUpgrade => ttls.selfUpgrade

def set (ttls : ReflexiveTtls) (kind : ReflexiveKind) (ttl : Nat) : ReflexiveTtls :=
  match kind with
  | .setPolicy => { ttls with setPolicy := ttl }
  | .setRole => { ttls with setRole := ttl }
  | .selfUpgrade => { ttls with selfUpgrade := ttl }

theorem get_set (ttls : ReflexiveTtls) (kind other : ReflexiveKind) (ttl : Nat) :
    (ttls.set kind ttl).get other = if other = kind then ttl else ttls.get other := by
  cases kind <;> cases other <;> rfl

end ReflexiveTtls

inductive UpgradeSource where
  | globalHash (hash : Vector UInt8 32)
  | code (bytes : List UInt8)
  deriving DecidableEq

def UpgradeSource.isEmptyCode : UpgradeSource → Bool
  | .globalHash _ => false
  | .code bytes => bytes.isEmpty

inductive ReflexiveOperation (A : Type) where
  | setReflexiveTtl (kind : ReflexiveKind) (ttl : Nat)
  | setTargetDefault (policy : MethodPolicy)
  | setMethodPolicy (method : String) (policy : Option MethodPolicy)
  | setRole (accountId : A) (role : Role) (set : Bool)
  | selfUpgrade (code : UpgradeSource) (migrateArgs : List UInt8)
  deriving DecidableEq

def ReflexiveOperation.kind {A : Type} : ReflexiveOperation A → ReflexiveKind
  | .setReflexiveTtl .. | .setTargetDefault .. | .setMethodPolicy .. => .setPolicy
  | .setRole .. => .setRole
  | .selfUpgrade .. => .selfUpgrade

inductive Operation (A : Type) where
  | reflexive (operation : ReflexiveOperation A)
  | targetFunctionCall (call : FunctionCall)
  deriving DecidableEq

inductive PolicyError where
  | methodTtlExceedsDefault (default actual : Nat)
  | defaultBelowExistingMethod (default : Nat) (method : String) (methodTtl : Nat)
  | tooManyMethodPolicies (maximum : Nat)
  | ttlExceedsMaximum (maximum actual : Nat)
  deriving DecidableEq

inductive ValidationError where
  | ttlExceedsMaximum (maximum actual : Nat)
  | emptyUpgradeCode
  | emptyFunctionCallMethodName
  | zeroFunctionCallGas
  deriving DecidableEq

/-- The first override that waits longer than a given time. -/
def firstAbove (policies : ExtTreeMap String MethodPolicy) (ttl : Nat) :
    Option (String × MethodPolicy) :=
  policies.toList.find? fun entry => ttl < entry.2.ttl

theorem firstAbove_eq_none {policies : ExtTreeMap String MethodPolicy} {ttl : Nat} :
    firstAbove policies ttl = none ↔
      ∀ (method : String) (policy : MethodPolicy),
        policies[method]? = some policy → policy.ttl ≤ ttl := by
  simp only [firstAbove, List.find?_eq_none, decide_eq_true_eq, Nat.not_lt, Prod.forall,
    mem_toList_iff_getElem?_eq_some]

structure GovernancePolicyWire where
  reflexiveTtls : ReflexiveTtls
  defaultTarget : MethodPolicy
  methodPolicies : ExtTreeMap String MethodPolicy
  deriving DecidableEq

structure GovernancePolicy extends GovernancePolicyWire where
  ceiling : ∀ (method : String) (policy : MethodPolicy),
    methodPolicies[method]? = some policy → policy.ttl ≤ defaultTarget.ttl
  size_le : methodPolicies.size ≤ maxMethodPolicies
  deriving DecidableEq

namespace GovernancePolicy

def tryFrom (wire : GovernancePolicyWire) : Except PolicyError GovernancePolicy :=
  let ttls := wire.reflexiveTtls
  match [ttls.setPolicy, ttls.setRole, ttls.selfUpgrade, wire.defaultTarget.ttl].find?
      (maxProposalTtl < ·) with
  | some ttl => .error (.ttlExceedsMaximum maxProposalTtl ttl)
  | none =>
    if hsize : maxMethodPolicies < wire.methodPolicies.size then
      .error (.tooManyMethodPolicies maxMethodPolicies)
    else match habove : firstAbove wire.methodPolicies wire.defaultTarget.ttl with
      | some entry => .error (.methodTtlExceedsDefault wire.defaultTarget.ttl entry.2.ttl)
      | none => .ok
        { wire with
          ceiling := firstAbove_eq_none.mp habove
          size_le := Nat.not_lt.mp hsize }

/-- The same lock everywhere, and no override. -/
def uniform (ttl : Nat) : Except PolicyError GovernancePolicy :=
  tryFrom ⟨⟨ttl, ttl, ttl⟩, ⟨ttl, .admin⟩, ∅⟩

variable (policy : GovernancePolicy)

/-- The policy for a method: its override, or the default. -/
def resolve (method : String) : MethodPolicy :=
  policy.methodPolicies[method]?.getD policy.defaultTarget

/-- The table with an override, if the override is within the default and fits. -/
def insertMethod (method : String) (new : MethodPolicy) (hle : new.ttl ≤ policy.defaultTarget.ttl)
    (hsize : method ∈ policy.methodPolicies ∨ policy.methodPolicies.size < maxMethodPolicies) :
    GovernancePolicy where
  reflexiveTtls := policy.reflexiveTtls
  defaultTarget := policy.defaultTarget
  methodPolicies := policy.methodPolicies.insert method new
  ceiling := by
    intro other entry hentry
    rw [getElem?_insert] at hentry
    split at hentry
    · cases hentry
      exact hle
    · exact policy.ceiling other entry hentry
  size_le := by
    rw [size_insert]
    split
    · exact policy.size_le
    · next hnew =>
      rcases hsize with hmem | hlt
      · exact absurd (contains_iff_mem.mpr hmem) hnew
      · exact hlt

def eraseMethod (method : String) : GovernancePolicy where
  reflexiveTtls := policy.reflexiveTtls
  defaultTarget := policy.defaultTarget
  methodPolicies := policy.methodPolicies.erase method
  ceiling := by
    intro other entry hentry
    rw [getElem?_erase] at hentry
    split at hentry
    · cases hentry
    · exact policy.ceiling other entry hentry
  size_le := size_erase_le.trans policy.size_le

def setMethodPolicy (method : String) : Option MethodPolicy → Except PolicyError GovernancePolicy
  | some new =>
    if hle : policy.defaultTarget.ttl < new.ttl then
      .error (.methodTtlExceedsDefault policy.defaultTarget.ttl new.ttl)
    else if hsize : method ∉ policy.methodPolicies ∧
        maxMethodPolicies ≤ policy.methodPolicies.size then
      .error (.tooManyMethodPolicies maxMethodPolicies)
    else .ok (policy.insertMethod method new (Nat.not_lt.mp hle) (by grind))
  | none => .ok (policy.eraseMethod method)

def setTargetDefault (new : MethodPolicy) : Except PolicyError GovernancePolicy :=
  if maxProposalTtl < new.ttl then .error (.ttlExceedsMaximum maxProposalTtl new.ttl)
  else match habove : firstAbove policy.methodPolicies new.ttl with
    | some entry => .error (.defaultBelowExistingMethod new.ttl entry.1 entry.2.ttl)
    | none => .ok
      { policy with
        defaultTarget := new
        ceiling := firstAbove_eq_none.mp habove }

def setReflexiveTtl (kind : ReflexiveKind) (ttl : Nat) : Except PolicyError GovernancePolicy :=
  if maxProposalTtl < ttl then .error (.ttlExceedsMaximum maxProposalTtl ttl)
  else .ok { policy with reflexiveTtls := policy.reflexiveTtls.set kind ttl }

variable {policy policy' : GovernancePolicy}

theorem setMethodPolicy_some {method : String} {new : MethodPolicy}
    (h : policy.setMethodPolicy method (some new) = .ok policy') :
    policy'.toGovernancePolicyWire =
      { policy.toGovernancePolicyWire with
        methodPolicies := policy.methodPolicies.insert method new } := by
  dsimp only [setMethodPolicy] at h
  split at h
  · cases h
  split at h
  · cases h
  cases h
  rfl

theorem setMethodPolicy_none {method : String}
    (h : policy.setMethodPolicy method none = .ok policy') :
    policy'.toGovernancePolicyWire =
      { policy.toGovernancePolicyWire with
        methodPolicies := policy.methodPolicies.erase method } := by
  cases h
  rfl

theorem setTargetDefault_eq_ok {new : MethodPolicy}
    (h : policy.setTargetDefault new = .ok policy') :
    new.ttl ≤ maxProposalTtl ∧ policy'.toGovernancePolicyWire =
      { policy.toGovernancePolicyWire with defaultTarget := new } := by
  unfold setTargetDefault at h
  split at h
  · cases h
  next hle =>
  split at h
  · cases h
  cases h
  exact ⟨Nat.not_lt.mp hle, rfl⟩

theorem setReflexiveTtl_eq_ok {kind : ReflexiveKind} {ttl : Nat}
    (h : policy.setReflexiveTtl kind ttl = .ok policy') :
    ttl ≤ maxProposalTtl ∧ policy'.toGovernancePolicyWire =
      { policy.toGovernancePolicyWire with
        reflexiveTtls := policy.reflexiveTtls.set kind ttl } := by
  unfold setReflexiveTtl at h
  split at h
  · cases h
  next hle =>
  cases h
  exact ⟨Nat.not_lt.mp hle, rfl⟩

theorem resolve_le_default (policy : GovernancePolicy) (method : String) :
    (policy.resolve method).ttl ≤ policy.defaultTarget.ttl := by
  unfold resolve
  cases hentry : policy.methodPolicies[method]? with
  | none => exact Nat.le_refl _
  | some entry => exact policy.ceiling method entry hentry

end GovernancePolicy

variable {A : Type}

variable (policy : GovernancePolicy)

/-- The lock that an operation edits, with its value now and its new value. -/
def ReflexiveOperation.lockEdit : ReflexiveOperation A → Option (Nat × Nat)
  | .setReflexiveTtl kind ttl => some (policy.reflexiveTtls.get kind, ttl)
  | .setTargetDefault new => some (policy.defaultTarget.ttl, new.ttl)
  | .setMethodPolicy method (some new) => some ((policy.resolve method).ttl, new.ttl)
  | .setMethodPolicy _ none => none
  | .setRole .. => none
  | .selfUpgrade .. => none

def lockEditTtl (editLock current new : Nat) : Nat :=
  if new < current then max editLock current else editLock

def Operation.requiredRole : Operation A → Role
  | .reflexive _ => .admin
  | .targetFunctionCall call => (policy.resolve call.methodName).role

/-- The white space that `str::trim` removes. -/
def isWhitespace (c : Char) : Bool :=
  let n := c.toNat
  (9 ≤ n ∧ n ≤ 13) ∨ n = 0x20 ∨ n = 0x85 ∨ n = 0xA0 ∨ n = 0x1680 ∨ (0x2000 ≤ n ∧ n ≤ 0x200A) ∨
    n = 0x2028 ∨ n = 0x2029 ∨ n = 0x202F ∨ n = 0x205F ∨ n = 0x3000

def isBlank (name : String) : Bool := name.toList.all isWhitespace

def Operation.onCreate : Operation A → Except ValidationError Unit
  | .targetFunctionCall call =>
    if isBlank call.methodName then .error .emptyFunctionCallMethodName
    else if call.gas = 0 then .error .zeroFunctionCallGas
    else .ok ()
  | .reflexive (.selfUpgrade code _) => ensure (¬ code.isEmptyCode) .emptyUpgradeCode
  | .reflexive (.setReflexiveTtl _ ttl) =>
    ensure (ttl ≤ maxProposalTtl) (.ttlExceedsMaximum maxProposalTtl ttl)
  | .reflexive (.setTargetDefault policy) =>
    ensure (policy.ttl ≤ maxProposalTtl) (.ttlExceedsMaximum maxProposalTtl policy.ttl)
  | .reflexive (.setMethodPolicy _ (some policy)) =>
    ensure (policy.ttl ≤ maxProposalTtl) (.ttlExceedsMaximum maxProposalTtl policy.ttl)
  | .reflexive (.setMethodPolicy _ none) => .ok ()
  | .reflexive (.setRole ..) => .ok ()

def Operation.minimumTtl : Operation A → Nat
  | .reflexive operation =>
    let base := policy.reflexiveTtls.get operation.kind
    match operation.lockEdit policy with
    | some (current, new) => lockEditTtl base current new
    | none => base
  | .targetFunctionCall call => (policy.resolve call.methodName).ttl

instance : OperationPolicy (Operation A) GovernancePolicy ValidationError where
  minimumTtl operation policy := operation.minimumTtl policy
  validateOnCreate := Operation.onCreate
  validateOnExecute := Operation.onCreate

end Templar.OracleGovernance.Near
