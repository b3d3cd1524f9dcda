import Templar.SorobanVault.Entrypoints

/-!
# Storage of the vault's governance contract

The governance contract keeps the proposals that wait, a timelock for each kind of action, and
its own record of the settings it has given the vault. The record is what a submission is
compared with; the vault is not asked.

Waiting proposals are stored in pages by their id, with an index of the pages in use. The
address of the vault is stored at construction and never changed, so it is left to the `Link`
that connects the two contracts.
-/

namespace Templar.VaultGovernance

open Checked Curator SorobanVault Function

inductive TimelockKind where
  | admin | pause | curator | governance | supplyQueue | fees | restrictions | sentinel
  | allocators | allowedAdapters | cap | marketRemoval | capGroup | skim | upgrade | migration
  | timelockConfig | other
  deriving DecidableEq, Repr

inductive GovernanceActionKind where
  | admin | pause | curator | governance | supplyQueue | fees | restrictions | sentinel
  | allocators | allowedAdapters | cap | marketRemoval | capGroup | skim | upgrade | migrate
  | cancelMigration | timelockConfig | other | withdrawalCooldown | idleResyncCooldown | maxNavAge
  deriving DecidableEq, Repr

/-- A delay for each kind. -/
def Timelocks := TimelockKind → UInt64

namespace Timelocks

def fromDefault (defaultNs : UInt64) : Timelocks := fun _ => defaultNs

def get (t : Timelocks) (kind : TimelockKind) : UInt64 := t kind

def set (t : Timelocks) (kind : TimelockKind) (value : UInt64) : Timelocks :=
  update t kind value

end Timelocks

structure FeeParams (A : Type) where
  performanceFeeWad : Int
  performanceRecipient : A
  managementFeeWad : Int
  managementRecipient : A
  maxGrowthRateWad : Option Int
  deriving DecidableEq, Repr

structure SupplyQueueProposalEntry (A : Type) where
  targetId : Nat
  adapter : A
  deriving DecidableEq, Repr

inductive RestrictionMode where
  | none
  | blacklist
  | whitelist
  deriving DecidableEq, Repr

def RestrictionMode.asU32 : RestrictionMode → Nat
  | .none => 0
  | .blacklist => 1
  | .whitelist => 2

abbrev Hash := Fin (2 ^ 256)

inductive GovernanceAction (A : Type) where
  | setAdmin (newAdmin : A)
  | setPaused (paused : Bool)
  | setCurator (curator : A)
  | setGovernance (governance : A)
  | setSupplyQueue (entries : List (SupplyQueueProposalEntry A))
  | setFees (params : FeeParams A)
  | setRestrictions (mode : RestrictionMode) (accounts : List A)
  | setSentinel (sentinel : A)
  | setAllocators (allocators : List A)
  | setAllowedAdapters (adapters : List A)
  | setCap (marketId : Nat) (newCap : Int)
  | removeMarket (marketId : Nat)
  | setGroupCap (capGroupId : String) (newCap : Int)
  | setGroupRelCap (capGroupId : String) (newRelativeCapWad : Int)
  | setGroupMember (marketId : Nat) (capGroupId : String)
  | setSkimRecipient (recipient : A)
  | skim (token : A)
  | upgrade (newWasmHash : Hash)
  | migrate
  | cancelMigration
  | setTimelock (kind : TimelockKind) (newTimelockNs : UInt64)
  | other (key : String) (payloadHash : Hash)
  | setWithdrawalCooldown (withdrawalCooldownNs : Nat)
  | setIdleResyncCooldown (idleResyncCooldownNs : Nat)
  | setMaxNavAge (maxNavAgeNs : Nat)
  deriving DecidableEq

/-- What a proposal is about. Two proposals about the same thing do not wait together. -/
inductive GovernanceActionKey (A : Type) where
  | admin | pause | curator | governance | supplyQueue | fees | withdrawalCooldown
  | idleResyncCooldown | maxNavAge | restrictions | sentinel | allocators | allowedAdapters
  | cap (marketId : Nat)
  | marketRemoval (marketId : Nat)
  | capGroupCap (capGroupId : String)
  | capGroupRelativeCap (capGroupId : String)
  | capGroupMembership (marketId : Nat)
  | skimRecipient
  | skim (token : A)
  | upgrade | migrate | cancelMigration
  | timelockConfig (kind : TimelockKind)
  | other (key : String) (payloadHash : Hash)
  deriving DecidableEq

variable {A σ : Type}

namespace GovernanceAction

def pendingKey : GovernanceAction A → GovernanceActionKey A
  | setAdmin _ => .admin
  | setPaused _ => .pause
  | setCurator _ => .curator
  | setGovernance _ => .governance
  | setSupplyQueue _ => .supplyQueue
  | setFees _ => .fees
  | setWithdrawalCooldown _ => .withdrawalCooldown
  | setIdleResyncCooldown _ => .idleResyncCooldown
  | setMaxNavAge _ => .maxNavAge
  | setRestrictions _ _ => .restrictions
  | setSentinel _ => .sentinel
  | setAllocators _ => .allocators
  | setAllowedAdapters _ => .allowedAdapters
  | setCap marketId _ => .cap marketId
  | removeMarket marketId => .marketRemoval marketId
  | setGroupCap group _ => .capGroupCap group
  | setGroupRelCap group _ => .capGroupRelativeCap group
  | setGroupMember marketId _ => .capGroupMembership marketId
  | setSkimRecipient _ => .skimRecipient
  | skim token => .skim token
  | upgrade _ => .upgrade
  | migrate => .migrate
  | cancelMigration => .cancelMigration
  | setTimelock kind _ => .timelockConfig kind
  | other key payloadHash => .other key payloadHash

def actionKind : GovernanceAction A → GovernanceActionKind
  | setAdmin _ => .admin
  | setPaused _ => .pause
  | setCurator _ => .curator
  | setGovernance _ => .governance
  | setSupplyQueue _ => .supplyQueue
  | setFees _ => .fees
  | setWithdrawalCooldown _ => .withdrawalCooldown
  | setIdleResyncCooldown _ => .idleResyncCooldown
  | setMaxNavAge _ => .maxNavAge
  | setRestrictions _ _ => .restrictions
  | setSentinel _ => .sentinel
  | setAllocators _ => .allocators
  | setAllowedAdapters _ => .allowedAdapters
  | setCap _ _ => .cap
  | removeMarket _ => .marketRemoval
  | setGroupCap _ _ | setGroupRelCap _ _ | setGroupMember _ _ => .capGroup
  | setSkimRecipient _ | skim _ => .skim
  | upgrade _ => .upgrade
  | migrate => .migrate
  | cancelMigration => .cancelMigration
  | setTimelock _ _ => .timelockConfig
  | other _ _ => .other

/-- Cooldowns and the age of market values are delayed like fees. -/
def timelockKind : GovernanceAction A → TimelockKind
  | setAdmin _ => .admin
  | setPaused _ => .pause
  | setCurator _ => .curator
  | setGovernance _ => .governance
  | setSupplyQueue _ => .supplyQueue
  | setFees _ | setWithdrawalCooldown _ | setIdleResyncCooldown _ | setMaxNavAge _ => .fees
  | setRestrictions _ _ => .restrictions
  | setSentinel _ => .sentinel
  | setAllocators _ => .allocators
  | setAllowedAdapters _ => .allowedAdapters
  | setCap _ _ => .cap
  | removeMarket _ => .marketRemoval
  | setGroupCap _ _ | setGroupRelCap _ _ | setGroupMember _ _ => .capGroup
  | setSkimRecipient _ | skim _ => .skim
  | upgrade _ => .upgrade
  | migrate | cancelMigration => .migration
  | setTimelock _ _ => .timelockConfig
  | other _ _ => .other

end GovernanceAction

inductive GovernanceError where
  | unauthorized
  | invalidInput
  | proposalNotFound
  | proposalNotMature
  | arithmeticOverflow
  | duplicatePending
  | noChange
  | timelockOutOfBounds
  | otherNotApproved
  | abdicated
  | proposalExpired
  deriving DecidableEq, Repr

/-- How a call ends without a result: with an error, or stopped by a failing call to the
vault. -/
inductive GovernanceFault where
  | error (e : GovernanceError)
  | trap
  deriving DecidableEq, Repr

abbrev GovM (α : Type) := Except GovernanceFault α

def GovernanceError.fault (e : GovernanceError) : GovernanceFault := .error e

/-- A call to the vault that fails stops the caller. -/
def orStop {α : Type} (x : CallM α) : GovM α := x.mapError fun _ => .trap

@[simp] theorem orStop_eq_ok {α : Type} {x : CallM α} {a : α} : orStop x = .ok a ↔ x = .ok a :=
  mapError_eq_ok

structure QueuedProposal (A : Type) where
  id : Nat
  action : GovernanceAction A
  deriving DecidableEq

def QueuedProposal.actionKey (p : QueuedProposal A) : GovernanceActionKey A := p.action.pendingKey

def QueuedProposal.kind (p : QueuedProposal A) : GovernanceActionKind := p.action.actionKind

structure StoredPending (A : Type) where
  id : Nat
  action : GovernanceAction A
  validAtNs : Nat
  deriving DecidableEq

structure Governance (A : Type) where
  admin : A
  sentinel : Option A
  timelocks : Timelocks
  nextProposalId : Nat
  pendingPageIndex : List Nat
  pendingPages : Nat → Option (List (StoredPending A))
  approvedOtherUntil : String → Hash → Option Nat
  abdicated : GovernanceActionKind → Bool
  currentPaused : Bool
  currentFees : FeeParams A
  currentRestrictionMode : RestrictionMode
  currentRestrictionAccounts : List A
  currentCap : Nat → Option Int
  currentCapGroupCap : String → Option Int
  currentCapGroupRelCap : String → Option Int
  currentCapGroupMembership : Nat → Option String
  knownCapGroupCap : String → Bool
  knownCapGroupRelCap : String → Bool
  knownCapGroupMembership : Nat → Bool
  skimRecipient : Option A
  currentWithdrawalCooldownNs : Nat
  currentIdleResyncCooldownNs : Nat
  currentMaxNavAgeNs : Nat

def dayNs : Nat := 86400000000000

def maxTimelockNs : Nat := 30 * dayNs

def proposalExecutionWindowNs : Nat := 7 * dayNs

def otherApprovalTtlNs : Nat := 30 * dayNs

def maxPendingProposals : Nat := 64

def pendingPageSize : Nat := 16

namespace Governance

def loadPendingPage (g : Governance A) (page : Nat) : List (StoredPending A) :=
  (g.pendingPages page).getD []

def savePendingPage (g : Governance A) (page : Nat) (entries : List (StoredPending A)) :
    Governance A :=
  { g with
    pendingPages := update g.pendingPages page
      (if entries.isEmpty then none else some entries) }

end Governance

def pendingPageId (proposalId : Nat) : Nat := proposalId / pendingPageSize

def StoredPending.restore (item : StoredPending A) : PendingValue (QueuedProposal A) :=
  ⟨⟨item.id, item.action⟩, item.validAtNs⟩

def storedPending (entry : PendingValue (QueuedProposal A)) : StoredPending A :=
  ⟨entry.value.id, entry.value.action, entry.readyAtNs⟩

def pushUniquePage (pages : List Nat) (page : Nat) : List Nat :=
  if page ∈ pages then pages else pages ++ [page]

namespace Governance

/-- The proposals that wait, page by page in the order of the index. -/
def loadQueue (g : Governance A) : PendingActions (QueuedProposal A) :=
  g.pendingPageIndex.flatMap fun page =>
    ((g.loadPendingPage page).filter fun item => decide (pendingPageId item.id = page)).map
      StoredPending.restore

def queuePages (queue : PendingActions (QueuedProposal A)) : List Nat :=
  queue.foldl (fun pages entry => pushUniquePage pages (pendingPageId entry.value.id)) []

/-- Writes every page that holds something, and removes the pages of the old index that hold
nothing any more. -/
def saveQueue (g : Governance A) (queue : PendingActions (QueuedProposal A)) : Governance A :=
  let newPages := queuePages queue
  let written := newPages.foldl (fun g page => g.savePendingPage page
    ((queue.filter fun entry => decide (pendingPageId entry.value.id = page)).map storedPending)) g
  let cleared := g.pendingPageIndex.foldl (fun pages page =>
    if page ∈ newPages then pages else update pages page none) written.pendingPages
  { g with pendingPages := cleared, pendingPageIndex := newPages }

end Governance

end Templar.VaultGovernance
