import Templar.Lib.RoleStore
import Templar.OracleGovernance.Ledger
import Templar.OracleGovernance.NearPolicy

/-!
# The governance contract on NEAR

The ledger and the bodies, the governed oracle, and who holds which role. A call that
panics changes nothing, and its promises are not sent.

Proposal ids are `u32` in the interface and `u64` in the ledger. Events and views are left
out. Who holds which role is kept by a library, of which only its interface is assumed
(`RoleStore`).
-/

namespace Templar.OracleGovernance.Near

open Checked Function

variable {S A : Type}

inductive Rejection where
  | oneYocto
  | notAuthorized
  | lastAdmin
  | ttlExceedsMaximum
  | noSuchProposal
  | create (error : CreateError ValidationError)
  | cancel (error : CancelError)
  | execute (error : ExecuteError ValidationError)
  | policy (error : PolicyError)
  deriving DecidableEq

/-- What a call sees of the environment. -/
structure Env (A : Type) where
  predecessor : A
  attachedDeposit : Nat
  timestamp : Nat

inductive Promise (A : Type) where
  | functionCall (receiver : A) (call : FunctionCall)
  | deployAndMigrate (code : UpgradeSource) (migrateArgs : List UInt8)
  deriving DecidableEq

structure Contract (S A : Type) extends
    Ledger GovernancePolicy (Operation A) A where
  proxyOracleId : A
  roles : S

variable [RoleStore S A Role]

namespace Contract

def new (proxyOracleId adminId : A) (policy : GovernancePolicy) : Contract S A where
  header := .new policy maxPendingProposals
  proposals := fun _ => none
  proxyOracleId := proxyOracleId
  roles := RoleStore.add RoleStore.empty adminId .admin

variable (c : Contract S A) (env : Env A)

def hasRole (account : A) (role : Role) : Bool := RoleStore.has c.roles account role

def addRole (account : A) (role : Role) : Contract S A :=
  { c with roles := RoleStore.add c.roles account role }

def removeRole (account : A) (role : Role) : Contract S A :=
  { c with roles := RoleStore.remove c.roles account role }

def setPolicy (policy : GovernancePolicy) : Contract S A :=
  { c with header := c.header.setTtls policy }

def assertAuthorized (operation : Operation A) : Except Rejection Unit :=
  ensure (c.hasRole env.predecessor .admin ∨
    c.hasRole env.predecessor (operation.requiredRole c.header.ttls)) .notAuthorized

def assertCanSetRole (account : A) (role : Role) (set : Bool) : Except Rejection Unit :=
  let removesAdmin := !set && role == .admin && c.hasRole account .admin
  ensure (¬ removesAdmin ∨ 1 < RoleStore.count c.roles .admin) .lastAdmin

def createProposal (id : Nat) (operation : Operation A) (requestedTtl : Nat) :
    Except Rejection (Proposal (Operation A) A × Contract S A) := do
  ensure (env.attachedDeposit = 1) .oneYocto
  c.assertAuthorized env operation
  ensure (requestedTtl ≤ maxProposalTtl) .ttlExceedsMaximum
  let (proposal, header) ←
    (c.header.create id operation env.timestamp env.predecessor requestedTtl).mapError .create
  ensure (proposal.ttl ≤ maxProposalTtl) .ttlExceedsMaximum
  .ok (proposal,
    { c with header := header, proposals := update c.proposals id (some proposal) })

def cancelProposal (id : Nat) : Except Rejection (Contract S A) := do
  ensure (env.attachedDeposit = 1) .oneYocto
  let proposal ← okOr (c.proposals id) .noSuchProposal
  c.assertAuthorized env proposal.operation
  let header ← (c.header.cancel id).mapError .cancel
  .ok { c with header := header, proposals := update c.proposals id none }

/-- The effects of an operation: the promise it sends and the state it leaves. -/
def enact : Operation A → Except Rejection (Option (Promise A) × Contract S A)
  | .reflexive (.setReflexiveTtl kind ttl) => do
    let policy ← (c.header.ttls.setReflexiveTtl kind ttl).mapError .policy
    .ok (none, c.setPolicy policy)
  | .reflexive (.setTargetDefault policy) => do
    let policy ← (c.header.ttls.setTargetDefault policy).mapError .policy
    .ok (none, c.setPolicy policy)
  | .reflexive (.setMethodPolicy method policy) => do
    let policy ← (c.header.ttls.setMethodPolicy method policy).mapError .policy
    .ok (none, c.setPolicy policy)
  | .reflexive (.setRole account role set) => do
    c.assertCanSetRole account role set
    .ok (none, if set then c.addRole account role else c.removeRole account role)
  | .reflexive (.selfUpgrade code migrateArgs) =>
    .ok (some (.deployAndMigrate code migrateArgs), c)
  | .targetFunctionCall call => .ok (some (.functionCall c.proxyOracleId call), c)

/-- The check of a role change before the ledger is touched. -/
def assertOperation : Operation A → Except Rejection Unit
  | .reflexive (.setRole account role set) => c.assertCanSetRole account role set
  | _ => .ok ()

def executeProposal (id : Nat) :
    Except Rejection (Operation A × Option (Promise A) × Contract S A) := do
  ensure (env.attachedDeposit = 1) .oneYocto
  let proposal ← okOr (c.proposals id) .noSuchProposal
  c.assertAuthorized env proposal.operation
  c.assertOperation proposal.operation
  let header ← (c.header.execute id proposal env.timestamp).mapError .execute
  let (promise, c') ← enact
    { c with header := header, proposals := update c.proposals id none }
    proposal.operation
  .ok (proposal.operation, promise, c')

end Contract

inductive Call (A : Type) where
  | create (id : Nat) (operation : Operation A) (requestedTtl : Nat)
  | cancel (id : Nat)
  | execute (id : Nat)

structure Event (A : Type) where
  env : Env A
  call : Call A

/-- The contract and what it executed so far. -/
structure World (S A : Type) where
  contract : Contract S A
  log : List (Execution (Operation A))

namespace World

/-- The code that a self-upgrade deploys is not described here: the contract stays as it is. -/
def step (w : World S A) (event : Event A) : World S A :=
  match event.call with
  | .create id operation requestedTtl =>
    match w.contract.createProposal event.env id operation requestedTtl with
    | .ok (_, c) => { w with contract := c }
    | .error _ => w
  | .cancel id =>
    match w.contract.cancelProposal event.env id with
    | .ok c => { w with contract := c }
    | .error _ => w
  | .execute id =>
    match w.contract.executeProposal event.env id with
    | .ok (operation, _, c) => ⟨c, w.log ++ [⟨event.env.timestamp, id, operation⟩]⟩
    | .error _ => w

def run (w : World S A) (events : List (Event A)) : World S A := events.foldl step w

end World

/-- The events come at nondecreasing times, from `start` on. -/
def Timed (start : Nat) (events : List (Event A)) : Prop :=
  (start :: events.map (·.env.timestamp)).Pairwise (· ≤ ·)

end Templar.OracleGovernance.Near
