import Templar.Lib.Checked

/-!
# Roles and what they may do

Every action belongs to a class, and every class to the roles that may take its actions. A
public action asks for no role. While the vault is paused only the actions that pause, restrict
or call off are left.
-/

namespace Templar.Curator

open Checked

inductive AuthPolicyClass where
  | isPublic
  | sentinel
  | allocator
  | allocatorEmergency
  | curator
  deriving DecidableEq, Repr

inductive ActionKind where
  | deposit
  | requestWithdraw
  | executeWithdraw
  | pause
  | setRestrictions
  | policyAdmin
  | beginAllocating
  | finishAllocating
  | syncExternalAssets
  | rebalanceWithdraw
  | beginRefreshing
  | finishRefreshing
  | abortAllocating
  | abortWithdrawing
  | abortRefreshing
  | settlePayout
  | refreshFees
  | manualReconcile
  | emergencyReset
  | atomicWithdraw
  | atomicRedeem
  deriving DecidableEq, Repr

inductive Role where
  | curator
  | sentinel
  | allocator
  deriving DecidableEq, Repr

def canonicalPolicyClass : ActionKind → AuthPolicyClass
  | .deposit | .requestWithdraw | .atomicWithdraw | .atomicRedeem => .isPublic
  | .executeWithdraw | .beginAllocating | .finishAllocating | .syncExternalAssets
  | .rebalanceWithdraw | .beginRefreshing | .finishRefreshing | .settlePayout
  | .refreshFees => .allocator
  | .pause | .setRestrictions => .sentinel
  | .abortAllocating | .abortWithdrawing | .abortRefreshing => .allocatorEmergency
  | .manualReconcile | .emergencyReset | .policyAdmin => .curator

def allowedWhilePaused : ActionKind → Bool
  | .pause | .setRestrictions | .abortAllocating | .abortWithdrawing | .abortRefreshing
  | .manualReconcile | .emergencyReset => true
  | _ => false

def allowedRolesFor (action : ActionKind) : List Role :=
  match canonicalPolicyClass action with
  | .isPublic => []
  | .sentinel => [.sentinel]
  | .allocator => [.allocator, .curator]
  | .allocatorEmergency => [.allocator, .sentinel, .curator]
  | .curator => [.curator]

inductive AuthError where
  | missingRole (action : ActionKind) (policyClass : AuthPolicyClass)
  | vaultPaused
  deriving DecidableEq, Repr

variable {A : Type} [DecidableEq A]

structure RbacConfig (A : Type) where
  assignments : List (A × Role)
  paused : Bool
  deriving DecidableEq

namespace RbacConfig

def withCurator (curator : A) : RbacConfig A := ⟨[(curator, .curator)], false⟩

variable (c : RbacConfig A)

def hasRole (address : A) (role : Role) : Bool := decide ((address, role) ∈ c.assignments)

def addRole (address : A) (role : Role) : RbacConfig A :=
  if c.hasRole address role then c else { c with assignments := c.assignments ++ [(address, role)] }

/-- An empty list of roles lets everybody through. -/
def isAllowed (caller : A) (roles : List Role) : Bool :=
  roles.isEmpty || roles.any (fun role => c.hasRole caller role)

def authorize (action : ActionKind) (caller : A) : Except AuthError Unit := do
  ensure (c.paused = false ∨ allowedWhilePaused action = true) .vaultPaused
  ensure (c.isAllowed caller (allowedRolesFor action) = true)
    (.missingRole action (canonicalPolicyClass action))

end RbacConfig

end Templar.Curator
