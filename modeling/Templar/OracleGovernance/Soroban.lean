import Templar.Lib.RoleStore
import Templar.Oracle.SorobanState
import Templar.OracleGovernance.Ledger

/-!
# The governance contract on Soroban

The same kernel with one lock for each kind of action. Editing a lock waits for the lock of
edits and for the lock that is edited, whether it is shortened or not.

The ledger is only written by the contract, so reading it back gives the same ledger. Who holds
which role is kept by a library, of which only its interface is assumed (`RoleStore`). Whether the
oracle accepts a call is the environment's to say; a call that returns an error is rolled back.
-/

namespace Templar.OracleGovernance.Soroban

open Checked Function
open Oracle.Soroban (ProxyConfig CircuitBreakerConfig validateProxyConfig maxManualTripMetadataLen)

/-- The longest lock, 180 days in nanoseconds. -/
def maxProposalTtlNs : Nat := 180 * 24 * 60 * 60 * 1000000000

def maxPendingProposals : Nat := 64

inductive Role where
  | admin
  | manualTripper
  | circuitBreakerOperator
  | proxyConfigurationManager
  deriving DecidableEq

inductive GovernanceError where
  | alreadyInitialized
  | unauthorized
  | missingConfig
  | proposalNotFound
  | proposalNotMature
  | arithmeticOverflow
  | runtimeFailed
  | proposalOutOfOrder
  | invalidInput
  | ttlExceedsMaximum
  | lastAdmin
  deriving DecidableEq

inductive OperationKind where
  | setProxy
  | removeProxy
  | configureBreakers
  | addBreaker
  | removeBreaker
  | rearm
  | setEnforced
  | setManualTrip
  | transferOwnership
  | acceptOwnership
  | renounceOwnership
  | setActionTtl
  | setRole
  | upgrade
  deriving DecidableEq

inductive GovernanceAction (A Asset : Type) where
  | setProxy (asset : Asset) (config : ProxyConfig A Asset)
  | removeProxy (asset : Asset)
  | configureBreakers (asset : Asset) (sampleIntervalSecs historyLen : Nat)
  | addBreaker (asset : Asset) (breaker : CircuitBreakerConfig)
  | removeBreaker (asset : Asset) (breakerId : Nat)
  | rearm (asset : Asset) (breakerId armingDelaySecs : Nat)
  | setEnforced (asset : Asset) (breakerId : Nat) (isEnforced : Bool)
  | setManualTrip (asset : Asset) (isManuallyTripped : Bool) (metadata : Option (List UInt8))
  | transferOwnership (newOwner : A)
  | acceptOwnership
  | renounceOwnership
  | setActionTtl (kind : OperationKind) (newTtlNs : Nat)
  | setRole (account : A) (role : Role) (set : Bool)
  | upgrade (newWasmHash : Vector UInt8 32)

/-- One lock for each kind of action. -/
abbrev TtlConfig := OperationKind → Nat

def TtlConfig.uniform (ttl : Nat) : TtlConfig := fun _ => ttl

def OperationKind.requiredRole : OperationKind → Role
  | .setManualTrip => .manualTripper
  | .rearm | .setEnforced => .circuitBreakerOperator
  | .setProxy | .removeProxy | .configureBreakers | .addBreaker | .removeBreaker =>
    .proxyConfigurationManager
  | .transferOwnership | .acceptOwnership | .renounceOwnership | .setActionTtl | .setRole
  | .upgrade => .admin

namespace GovernanceAction

variable {A Asset : Type}

def kind : GovernanceAction A Asset → OperationKind
  | setProxy .. => .setProxy
  | removeProxy .. => .removeProxy
  | configureBreakers .. => .configureBreakers
  | addBreaker .. => .addBreaker
  | removeBreaker .. => .removeBreaker
  | rearm .. => .rearm
  | setEnforced .. => .setEnforced
  | setManualTrip .. => .setManualTrip
  | transferOwnership .. => .transferOwnership
  | acceptOwnership => .acceptOwnership
  | renounceOwnership => .renounceOwnership
  | setActionTtl .. => .setActionTtl
  | setRole .. => .setRole
  | upgrade .. => .upgrade

def requiredRole (action : GovernanceAction A Asset) : Role :=
  match action with
  | setActionTtl target _ =>
    if target.requiredRole = .admin then .admin else .proxyConfigurationManager
  | action => action.kind.requiredRole

def minimumTtl (ttls : TtlConfig) (action : GovernanceAction A Asset) : Nat :=
  match action with
  | setActionTtl kind _ => max (ttls .setActionTtl) (ttls kind)
  | action => ttls action.kind

def validateAction [DecidableEq A] (action : GovernanceAction A Asset)
    (maxManualTripMetadataLen : Nat) : Except GovernanceError Unit :=
  match action with
  | setProxy _ config => (validateProxyConfig config).mapError fun _ => .invalidInput
  | setManualTrip _ _ metadata =>
    ensure (metadata.all fun m => m.length ≤ maxManualTripMetadataLen) .invalidInput
  | setActionTtl _ newTtlNs => ensure (newTtlNs ≤ maxProposalTtlNs) .ttlExceedsMaximum
  | upgrade wasmHash => ensure (wasmHash ≠ Vector.replicate 32 0) .invalidInput
  | _ => .ok ()

end GovernanceAction

variable {A Asset : Type} [DecidableEq A]

instance : OperationPolicy (GovernanceAction A Asset) TtlConfig GovernanceError where
  minimumTtl action ttls := action.minimumTtl ttls
  validateOnCreate action := action.validateAction maxManualTripMetadataLen
  validateOnExecute action := action.validateAction maxManualTripMetadataLen

def mapCreateError : CreateError GovernanceError → GovernanceError
  | .idOutOfOrder .. => .proposalOutOfOrder
  | .idOverflow => .arithmeticOverflow
  | .tooManyPendingProposals => .invalidInput
  | .validation error => error

def mapCancelError : CancelError → GovernanceError
  | .idOutOfBounds .. => .proposalNotFound
  | .proposalDoesNotExist .. => .proposalNotFound

def mapExecuteError : ExecuteError GovernanceError → GovernanceError
  | .idOutOfBounds .. => .proposalNotFound
  | .proposalDoesNotExist .. => .proposalNotFound
  | .ttlNotElapsed .. => .proposalNotMature
  | .validation error => error

/-- What a call sees: the ledger's time in seconds, and whether the oracle accepts a call. -/
structure Env (A Asset : Type) where
  timestamp : Nat
  runtime : GovernanceAction A Asset → Bool

def Env.now (env : Env A Asset) : Except GovernanceError Nat :=
  okOr (checkedMul 64 env.timestamp 1000000000) .arithmeticOverflow

structure Contract (S A Asset : Type) extends
    Ledger TtlConfig (GovernanceAction A Asset) A where
  proxyOracle : A
  roles : S

variable {S : Type} [RoleStore S A Role]

namespace Contract

def new (admin proxyOracle : A) (initialUniformTtlNs : Nat) :
    Except GovernanceError (Contract S A Asset) := do
  ensure (initialUniformTtlNs ≤ maxProposalTtlNs) .ttlExceedsMaximum
  .ok
    { header := .new (TtlConfig.uniform initialUniformTtlNs) maxPendingProposals
      proposals := fun _ => none
      proxyOracle := proxyOracle
      roles := RoleStore.add RoleStore.empty admin .admin }

variable (c : Contract S A Asset) (env : Env A Asset)

def hasRole (account : A) (role : Role) : Bool := RoleStore.has c.roles account role

def requireAuthorized (caller : A) (action : GovernanceAction A Asset) :
    Except GovernanceError Unit :=
  ensure (c.hasRole caller .admin ∨ c.hasRole caller action.requiredRole) .unauthorized

def grant (account : A) (role : Role) : Contract S A Asset :=
  { c with roles := RoleStore.add c.roles account role }

def revoke (account : A) (role : Role) : Except GovernanceError (Contract S A Asset) :=
  if c.hasRole account role = false then .ok c
  else if role = .admin ∧ RoleStore.count c.roles role ≤ 1 then .error .lastAdmin
  else .ok { c with roles := RoleStore.remove c.roles account role }

def createProposal (caller : A) (id : Nat) (operation : GovernanceAction A Asset)
    (requestedTtl : Nat) : Except GovernanceError (Contract S A Asset) := do
  c.requireAuthorized caller operation
  ensure (requestedTtl ≤ maxProposalTtlNs) .ttlExceedsMaximum
  let now ← env.now
  let (proposal, header) ←
    (c.header.create id operation now caller requestedTtl).mapError mapCreateError
  ensure (proposal.ttl ≤ maxProposalTtlNs) .ttlExceedsMaximum
  let _ ← okOr (checkedAdd 64 proposal.createdAt proposal.ttl) .arithmeticOverflow
  .ok { c with header := header, proposals := update c.proposals id (some proposal) }

def cancelProposal (caller : A) (id : Nat) : Except GovernanceError (Contract S A Asset) := do
  let proposal ← okOr (c.proposals id) .proposalNotFound
  c.requireAuthorized caller proposal.operation
  let header ← (c.header.cancel id).mapError mapCancelError
  .ok { c with header := header, proposals := update c.proposals id none }

/-- The effects of an action. All but the edits of a lock and of a role go to the oracle. -/
def executeAction (action : GovernanceAction A Asset) : Except GovernanceError (Contract S A Asset) :=
  match action with
  | .setActionTtl kind newTtlNs =>
    .ok { c with header := c.header.setTtls (update c.header.ttls kind newTtlNs) }
  | .setRole account role set =>
    if set then .ok (c.grant account role) else c.revoke account role
  | action => do
    ensure (env.runtime action) .runtimeFailed
    .ok c

def executeProposal (caller : A) (id : Nat) :
    Except GovernanceError (GovernanceAction A Asset × Contract S A Asset) := do
  let proposal ← okOr (c.proposals id) .proposalNotFound
  c.requireAuthorized caller proposal.operation
  let now ← env.now
  let header ← (c.header.execute id proposal now).mapError mapExecuteError
  let c' ← executeAction { c with header := header } env proposal.operation
  .ok (proposal.operation, { c' with proposals := update c'.proposals id none })

end Contract

inductive Call (A Asset : Type) where
  | create (caller : A) (id : Nat) (operation : GovernanceAction A Asset)
      (requestedTtl : Nat)
  | cancel (caller : A) (id : Nat)
  | execute (caller : A) (id : Nat)

structure Event (A Asset : Type) where
  env : Env A Asset
  call : Call A Asset

/-- The time of an event in nanoseconds. -/
def Event.time (event : Event A Asset) : Nat := event.env.timestamp * 1000000000

structure World (S A Asset : Type) where
  contract : Contract S A Asset
  log : List (Execution (GovernanceAction A Asset))

namespace World

def step (w : World S A Asset) (event : Event A Asset) : World S A Asset :=
  match event.call with
  | .create caller id operation requestedTtl =>
    match w.contract.createProposal event.env caller id operation requestedTtl with
    | .ok c => { w with contract := c }
    | .error _ => w
  | .cancel caller id =>
    match w.contract.cancelProposal caller id with
    | .ok c => { w with contract := c }
    | .error _ => w
  | .execute caller id =>
    match w.contract.executeProposal event.env caller id with
    | .ok (operation, c) => ⟨c, w.log ++ [⟨event.time, id, operation⟩]⟩
    | .error _ => w

def run (w : World S A Asset) (events : List (Event A Asset)) : World S A Asset :=
  events.foldl step w

end World

/-- The events come at nondecreasing times, from `start` on. -/
def Timed (start : Nat) (events : List (Event A Asset)) : Prop :=
  (start :: events.map Event.time).Pairwise (· ≤ ·)

end Templar.OracleGovernance.Soroban
