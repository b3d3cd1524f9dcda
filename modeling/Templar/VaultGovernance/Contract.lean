import Templar.VaultGovernance.State

/-!
# Calls of the vault's governance contract

The admin submits actions. One that takes room away from the vault is executed at once, any
other waits for the timelock of its kind and is then accepted by the admin within a week. The
sentinel may pause and restrict without a proposal and call off most of what waits.

A call that fails, or whose call to the vault fails, is rolled back by the platform.
-/

namespace Templar.VaultGovernance

open Checked Curator SorobanVault Vault GovernanceError TimelockDecision Function

variable {A σ : Type}

/-- The governance contract, the vault and the ledger around them. -/
structure System (A σ : Type) where
  governance : Governance A
  ledger : Ledger A σ

/-- The vault's side of the connection, and the address of the governance contract. -/
structure Link (A σ : Type) where
  host : Host A σ
  address : A

/-- What a call reports. The contract's own events carry the id only; here the action is noted
beside it. -/
inductive Event (A : Type) where
  | submitted (id : Nat) (action : GovernanceAction A) (validAfterNs : Nat)
  | accepted (id : Nat) (action : GovernanceAction A)
  | revoked (id : Nat)
  deriving DecidableEq

structure Done (A σ : Type) where
  events : List (Event A)
  system : System A σ

def ledgerTimestamp (timestamp : Nat) : GovM Nat :=
  okOr (checkedMul 64 timestamp 1000000000) arithmeticOverflow.fault

def toWad (value : Int) : GovM Nat := do
  ensure (0 ≤ value) invalidInput.fault
  return value.toNat

def toOptionalWad : Option Int → GovM (Option Nat)
  | some v => do
    let wad ← toWad v
    return some wad
  | none => .ok none

def validateTimelockNs (value : UInt64) : GovM Unit :=
  ensure (value.toNat ≤ maxTimelockNs) timelockOutOfBounds.fault

section

variable [DecidableEq A]

variable (link : Link A σ) (g : Governance A) (timestamp : Nat) (s : System A σ)

variable (caller : A)

def requireAdmin : GovM Unit :=
  ensure (caller = g.admin) unauthorized.fault

def requireSentinel : GovM Unit :=
  ensure (g.sentinel = some caller) unauthorized.fault

inductive RevokerRole where
  | admin
  | sentinel
  deriving DecidableEq, Repr

def revokerRole : GovM RevokerRole :=
  if caller = g.admin then .ok .admin
  else if g.sentinel = some caller then .ok .sentinel
  else .error unauthorized.fault

/-- The sentinel calls off what concerns the operation of the vault, not its ownership. -/
def canRevokeKind : RevokerRole → GovernanceActionKind → Bool
  | .admin, _ => true
  | .sentinel, kind => match kind with
    | .pause | .sentinel | .supplyQueue | .allocators | .allowedAdapters | .fees
    | .withdrawalCooldown | .idleResyncCooldown | .maxNavAge | .restrictions | .timelockConfig
    | .cap | .marketRemoval | .capGroup => true
    | _ => false

def requireRevokeKind (kind : GovernanceActionKind) : GovM Unit := do
  let role ← revokerRole g caller
  ensure (canRevokeKind role kind = true) unauthorized.fault

variable (action : GovernanceAction A)

def requireNotAbdicated : GovM Unit :=
  ensure (g.abdicated action.actionKind = false) abdicated.fault

def requireContractAddress (world : σ) (a : A) : GovM Unit :=
  ensure (link.host.isContractAddress world a = true) invalidInput.fault

def requireGovernanceTarget (world : σ) (governance : A) : GovM Unit := do
  ensure (link.host.executable governance world = some .wasm) invalidInput.fault
  ensure (governance ≠ link.host.self ∧ governance ≠ link.address) invalidInput.fault

def validateAction (world : σ) : GovernanceAction A → GovM Unit
  | .setGovernance governance => requireGovernanceTarget link world governance
  | .setSupplyQueue entries => do
    ensure (entries.map SupplyQueueProposalEntry.targetId).Nodup invalidInput.fault
    entries.forM fun entry => requireContractAddress link world entry.adapter
  | .setFees params => do
    let _ ← toWad params.performanceFeeWad
    let _ ← toWad params.managementFeeWad
    let _ ← toOptionalWad params.maxGrowthRateWad
  | .setCap _ newCap => do
    let _ ← toWad newCap
  | .setGroupCap _ newCap => do
    let _ ← toWad newCap
  | .setGroupRelCap _ newRelativeCapWad => do
    let relative ← toWad newRelativeCapWad
    ensure (relative ≤ Wad.scale) invalidInput.fault
  | .setTimelock _ newTimelockNs => validateTimelockNs newTimelockNs
  | _ => .ok ()

def FeeParams.config (params : FeeParams A) : GovM (FeeConfig A) := do
  let performanceFee ← toWad params.performanceFeeWad
  let managementFee ← toWad params.managementFeeWad
  let maxRate ← toOptionalWad params.maxGrowthRateWad
  return ⟨performanceFee, managementFee, params.performanceRecipient, params.managementRecipient,
    maxRate⟩

/-- An approval of an opaque action lasts for some time. -/
def otherApprovalLive (key : String) (payloadHash : Hash) : Bool :=
  match g.approvedOtherUntil key payloadHash, ledgerTimestamp timestamp with
  | some until_, .ok now => decide (now ≤ until_)
  | _, _ => false

/-- A change that has to be one, and always waits. -/
def timelockedChange {α : Type} [DecidableEq α] (current proposed : α) : GovM TimelockDecision := do
  ensure (current ≠ proposed) noChange.fault
  return .timelocked

def decideFees (proposed : FeeParams A) : GovM TimelockDecision := do
  let current ← g.currentFees.config
  let proposed ← proposed.config
  let decision ← (current.evaluateChange proposed).mapError fun
    | .noChange => noChange.fault
    | _ => invalidInput.fault
  return if decision.timelocked then .timelocked else .immediate

/-- A group that governance has never set waits, whatever the vault has for it. -/
def decideGroupCap (capGroupId : String) (newCap : Int) : GovM TimelockDecision :=
  if g.knownCapGroupCap capGroupId then do
    let current ← toOptionalWad (g.currentCapGroupCap capGroupId)
    let proposed ← toWad newCap
    (fromCapGroupCapChange current (some proposed)).mapError
      fun _ => noChange.fault
  else .ok .timelocked

def decideGroupRelCap (capGroupId : String) (newRelativeCapWad : Int) : GovM TimelockDecision :=
  if g.knownCapGroupRelCap capGroupId then do
    let current ← toOptionalWad (g.currentCapGroupRelCap capGroupId)
    let proposed ← toWad newRelativeCapWad
    (fromRelativeCapChange current (some proposed)).mapError fun
      | .noChange => noChange.fault
      | .relativeCapTooHigh => invalidInput.fault
  else .ok .timelocked

/-- The name of no group at all is empty. -/
def proposedGroup (capGroupId : String) : Option String :=
  if capGroupId = "" then none else some capGroupId

def decideGroupMember (marketId : Nat) (capGroupId : String) : GovM TimelockDecision :=
  if g.knownCapGroupMembership marketId then
    (fromMembershipAssignmentChange (g.currentCapGroupMembership marketId)
      (proposedGroup capGroupId)).mapError fun _ => noChange.fault
  else .ok .timelocked

def decideCap (marketId : Nat) (newCap : Int) : GovM TimelockDecision := do
  let current ← toOptionalWad (g.currentCap marketId)
  let proposed ← toWad newCap
  (fromCapChange current proposed).mapError
    fun _ => noChange.fault

def decideTimelock (kind : TimelockKind) (proposed : UInt64) : GovM TimelockDecision :=
  (timelockConfigDecision (g.timelocks.get kind).toNat proposed.toNat 0 maxTimelockNs).mapError fun
    | .noChange => noChange.fault
    | .outOfBounds => timelockOutOfBounds.fault

def decideSubmission : GovernanceAction A → GovM TimelockDecision
  | .setAdmin newAdmin => timelockedChange g.admin newAdmin
  | .setPaused paused => do
    ensure (paused = false) invalidInput.fault
    timelockedChange g.currentPaused paused
  | .setSentinel next => do
    ensure (g.sentinel ≠ some next) noChange.fault
    return fromRequiresTimelock g.sentinel.isSome
  | .setTimelock kind proposed => decideTimelock g kind proposed
  | .setFees proposed => decideFees g proposed
  | .setWithdrawalCooldown proposed => timelockedChange g.currentWithdrawalCooldownNs proposed
  | .setIdleResyncCooldown proposed => timelockedChange g.currentIdleResyncCooldownNs proposed
  | .setMaxNavAge proposed => timelockedChange g.currentMaxNavAgeNs proposed
  | .setRestrictions mode accounts =>
    timelockedChange (g.currentRestrictionMode, g.currentRestrictionAccounts) (mode, accounts)
  | .setCap marketId newCap => decideCap g marketId newCap
  | .removeMarket _ => .ok (fromRequiresTimelock true)
  | .setGroupCap capGroupId newCap => decideGroupCap g capGroupId newCap
  | .setGroupRelCap capGroupId newRelativeCapWad => decideGroupRelCap g capGroupId newRelativeCapWad
  | .setGroupMember marketId capGroupId => decideGroupMember g marketId capGroupId
  | .setSkimRecipient next => timelockedChange g.skimRecipient (some next)
  | .other key payloadHash => do
    ensure (otherApprovalLive g timestamp key payloadHash = false) noChange.fault
    return .timelocked
  | .skim _ | .setCurator _ | .setGovernance _ | .setSupplyQueue _ | .setAllocators _
  | .setAllowedAdapters _ | .upgrade _ | .migrate | .cancelMigration => .ok .timelocked

def configCommand (kind : GovernanceConfigKind) (primary : Option A)
    (many : Option (List A)) (valueA : Option Int) : GovernanceCommand A :=
  .setGovernanceConfig ⟨kind, primary, many, valueA, none⟩

/-- The command that carries an action to the vault; none for the actions that are carried out
by the contract itself or by another call of the vault. -/
def governancePayloadForAction : GovernanceAction A → Option (GovernanceCommand A)
  | .setCurator curator => some (configCommand .curator (some curator) none none)
  | .setGovernance governance => some (configCommand .governance (some governance) none none)
  | .setSentinel sentinel => some (configCommand .sentinel (some sentinel) none none)
  | .setAllocators allocators => some (configCommand .allocators none (some allocators) none)
  | .setAllowedAdapters adapters => some (configCommand .allowedAdapters none (some adapters) none)
  | .setSkimRecipient recipient => some (configCommand .skimRecipient (some recipient) none none)
  | .setWithdrawalCooldown ns => some (configCommand .withdrawalCooldown none none (some ns))
  | .setIdleResyncCooldown ns => some (configCommand .idleResyncCooldown none none (some ns))
  | .setMaxNavAge ns => some (configCommand .maxNavAge none none (some ns))
  | .skim token => some (.skim token)
  | .setSupplyQueue entries =>
    let adapters := entries.map SupplyQueueProposalEntry.adapter
    some (.setGovernancePolicy
      { kind := .supplyQueue
        targetIds := some (entries.map SupplyQueueProposalEntry.targetId)
        mode := none
        accounts := if adapters = [] then none else some adapters
        marketId := none, capGroupId := none, value := none, valueB := none, valueC := none })
  | .setPaused paused => some (.setGovernancePolicy
      { kind := .paused, targetIds := none, mode := some paused.toNat, accounts := none
        marketId := none, capGroupId := none, value := none, valueB := none, valueC := none })
  | .setFees params => some (.setGovernancePolicy
      { kind := .fees, targetIds := none, mode := none
        accounts := some [params.performanceRecipient, params.managementRecipient]
        marketId := none, capGroupId := none, value := some params.performanceFeeWad
        valueB := some params.managementFeeWad, valueC := params.maxGrowthRateWad })
  | .setRestrictions mode accounts => some (.setGovernancePolicy
      { kind := .restrictions, targetIds := none, mode := some mode.asU32, accounts := some accounts
        marketId := none, capGroupId := none, value := none, valueB := none, valueC := none })
  | .setCap marketId cap => some (.setGovernancePolicy
      { kind := .cap, targetIds := none, mode := none, accounts := none
        marketId := some marketId, capGroupId := none, value := some cap, valueB := none
        valueC := none })
  | .removeMarket marketId => some (.setGovernancePolicy
      { kind := .removeMarket, targetIds := none, mode := none, accounts := none
        marketId := some marketId, capGroupId := none, value := none, valueB := none
        valueC := none })
  | .setGroupCap capGroupId cap => some (.setGovernancePolicy
      { kind := .group, targetIds := none, mode := some 0, accounts := none, marketId := none
        capGroupId := some capGroupId, value := some cap, valueB := none, valueC := none })
  | .setGroupRelCap capGroupId cap => some (.setGovernancePolicy
      { kind := .group, targetIds := none, mode := some 1, accounts := none, marketId := none
        capGroupId := some capGroupId, value := some cap, valueB := none, valueC := none })
  | .setGroupMember marketId capGroupId => some (.setGovernancePolicy
      { kind := .group, targetIds := none, mode := some 2, accounts := none
        marketId := some marketId, capGroupId := proposedGroup capGroupId, value := none
        valueB := none, valueC := none })
  | .upgrade _ | .migrate | .cancelMigration | .setAdmin _ | .setTimelock _ _ | .other _ _ => none

/-- Carries an action to the vault in the name of a caller. -/
def executeVaultGovernanceAction : GovM (System A σ) := do
  let command ← okOr (governancePayloadForAction action) invalidInput.fault
  let ledger ← orStop (executeGovernance link.host timestamp s.ledger caller command)
  return { s with ledger }

/-- The record of the settings after an action has been executed. -/
def Governance.recordAction : GovernanceAction A → Governance A
  | .setAdmin newAdmin => { g with admin := newAdmin }
  | .setPaused paused => { g with currentPaused := paused }
  | .setFees params => { g with currentFees := params }
  | .setWithdrawalCooldown ns => { g with currentWithdrawalCooldownNs := ns }
  | .setIdleResyncCooldown ns => { g with currentIdleResyncCooldownNs := ns }
  | .setMaxNavAge ns => { g with currentMaxNavAgeNs := ns }
  | .setRestrictions mode accounts =>
    { g with currentRestrictionMode := mode, currentRestrictionAccounts := accounts }
  | .setSentinel sentinel => { g with sentinel := some sentinel }
  | .setCap marketId cap => { g with currentCap := update g.currentCap marketId (some cap) }
  | .removeMarket marketId =>
    { g with
      currentCap := update g.currentCap marketId none
      currentCapGroupMembership := update g.currentCapGroupMembership marketId none }
  | .setGroupCap capGroupId cap =>
    { g with
      currentCapGroupCap := update g.currentCapGroupCap capGroupId (some cap)
      knownCapGroupCap := update g.knownCapGroupCap capGroupId true }
  | .setGroupRelCap capGroupId cap =>
    { g with
      currentCapGroupRelCap := update g.currentCapGroupRelCap capGroupId (some cap)
      knownCapGroupRelCap := update g.knownCapGroupRelCap capGroupId true }
  | .setGroupMember marketId capGroupId =>
    { g with
      currentCapGroupMembership :=
        update g.currentCapGroupMembership marketId (proposedGroup capGroupId)
      knownCapGroupMembership := update g.knownCapGroupMembership marketId true }
  | .setSkimRecipient recipient => { g with skimRecipient := some recipient }
  | .setTimelock kind ns => { g with timelocks := g.timelocks.set kind ns }
  | .setCurator _ | .setGovernance _ | .setSupplyQueue _ | .setAllocators _ | .setAllowedAdapters _
  | .skim _ | .upgrade _ | .migrate | .cancelMigration | .other _ _ => g

def executeAction : GovM (System A σ) :=
  match action with
  | .setAdmin _ => .ok { s with governance := s.governance.recordAction action }
  | .setTimelock _ ns => do
    validateTimelockNs ns
    return { s with governance := s.governance.recordAction action }
  | .other key payloadHash => do
    let now ← ledgerTimestamp timestamp
    return { s with
      governance := { s.governance with
        approvedOtherUntil := update s.governance.approvedOtherUntil key
          (update (s.governance.approvedOtherUntil key) payloadHash
            (some (saturatingAdd 64 now otherApprovalTtlNs))) } }
  | .upgrade _ => do
    let ledger ← orStop (SorobanVault.upgrade s.ledger link.address)
    return { s with ledger }
  | .migrate => do
    let ledger ← orStop (SorobanVault.migrate link.host timestamp s.ledger link.address)
    return { s with ledger }
  | .cancelMigration => do
    let ledger ← orStop (cancelMigrationImpl s.ledger link.address)
    return { s with ledger }
  | _ => do
    let s ← executeVaultGovernanceAction link timestamp s link.address action
    return { s with governance := s.governance.recordAction action }

/-- A shorter timelock waits for the longer of the two: its own kind's and that of changes to
timelocks. -/
def submissionTimelock : Nat :=
  let own := (g.timelocks.get action.timelockKind).toNat
  match action with
  | .setTimelock kind _ => max own (g.timelocks.get kind).toNat
  | _ => own

def nextProposalId (g : Governance A) : GovM (Nat × Governance A) := do
  let next ← okOr (checkedAdd 64 g.nextProposalId 1) arithmeticOverflow.fault
  return (g.nextProposalId, { g with nextProposalId := next })

variable (queue : PendingActions (QueuedProposal A))

/-- Executes a submission that need not wait, in place of one about the same thing that does. -/
def submitImmediate (id : Nat) (action : GovernanceAction A) : GovM (Nat × Done A σ) := do
  let (replaced, queue) := queue.revokeByKey action.pendingKey QueuedProposal.actionKey
  let g := if replaced.isEmpty then s.governance else s.governance.saveQueue queue
  let s ← executeAction link timestamp { s with governance := g } action
  return (id, ⟨replaced.map (fun p => .revoked p.id) ++
    [.submitted id action 0, .accepted id action], s⟩)

def submitTimelocked (id : Nat)
    (action : GovernanceAction A) (nowNs timelockNs : Nat) : GovM (Nat × Done A σ) :=
  let (scheduled, queue) := queue.scheduleReplacing action.pendingKey QueuedProposal.actionKey
    ⟨id, action⟩ nowNs timelockNs
  .ok (id, ⟨scheduled.replaced.map (fun p => .revoked p.id) ++
    [.submitted id action scheduled.readyAtNs],
    { s with governance := s.governance.saveQueue queue }⟩)

def submit : GovM (Nat × Done A σ) := do
  requireAdmin s.governance caller
  requireNotAbdicated s.governance action
  validateAction link s.ledger.world action
  let decision ← decideSubmission s.governance timestamp action
  let nowNs ← ledgerTimestamp timestamp
  let timelockNs := submissionTimelock s.governance action
  let queue := s.governance.loadQueue
  ensure (decision = .immediate ∨
    queue.hasPendingKey action.pendingKey QueuedProposal.actionKey = true ∨
    queue.length < maxPendingProposals) invalidInput.fault
  let (id, g) ← nextProposalId s.governance
  match decision with
  | .immediate => submitImmediate link timestamp { s with governance := g } queue id action
  | .timelocked => submitTimelocked { s with governance := g } queue id action nowNs timelockNs

def expired (entry : PendingValue (QueuedProposal A)) (nowNs : Nat) : Bool :=
  decide (proposalExecutionWindowNs < nowNs - entry.readyAtNs)

/-- Takes the proposal that matures under a key and executes it. -/
def acceptTaken
    (taken : TakePending (QueuedProposal A) × PendingActions (QueuedProposal A)) :
    GovM (Nat × Done A σ) :=
  match taken with
  | (.ready proposal, queue) => do
    let s ← executeAction link timestamp s proposal.action
    return (proposal.id, ⟨[.accepted proposal.id proposal.action],
      { s with governance := s.governance.saveQueue queue }⟩)
  | (.missing, _) => .error proposalNotFound.fault
  | (.pending _, _) => .error proposalNotMature.fault

def accept (proposalId : Nat) : GovM (Nat × Done A σ) := do
  requireAdmin s.governance caller
  let nowNs ← ledgerTimestamp timestamp
  let queue := s.governance.loadQueue
  ensure (queue.any (fun entry => decide (entry.value.id = proposalId) && expired entry nowNs) =
    false) proposalExpired.fault
  acceptTaken link timestamp s (queue.takeByKey nowNs proposalId QueuedProposal.id)

def matching (kind : GovernanceActionKind) : Nat :=
  queue.countP fun entry => decide (entry.value.kind = kind)

def acceptKind (kind : GovernanceActionKind) : GovM (Nat × Done A σ) := do
  requireAdmin s.governance caller
  let nowNs ← ledgerTimestamp timestamp
  let queue := s.governance.loadQueue
  ensure (matching queue kind ≤ 1) duplicatePending.fault
  ensure (queue.any (fun entry => decide (entry.value.kind = kind) && expired entry nowNs) = false)
    proposalExpired.fault
  acceptTaken link timestamp s (queue.takeByKey nowNs kind QueuedProposal.kind)

def revoke (proposalId : Nat) : GovM (Done A σ) := do
  let queue := s.governance.loadQueue
  let entry ← okOr (queue.find? fun entry => decide (entry.value.id = proposalId))
    proposalNotFound.fault
  requireRevokeKind s.governance caller entry.value.kind
  let (removed, queue) := queue.revokeByKey proposalId QueuedProposal.id
  ensure (removed ≠ []) proposalNotFound.fault
  return ⟨[.revoked proposalId], { s with governance := s.governance.saveQueue queue }⟩

def revokeKind (kind : GovernanceActionKind) : GovM (Done A σ) := do
  requireRevokeKind s.governance caller kind
  let queue := s.governance.loadQueue
  ensure (matching queue kind ≠ 0) proposalNotFound.fault
  ensure (matching queue kind ≤ 1) duplicatePending.fault
  let (removed, queue) := queue.revokeByKey kind QueuedProposal.kind
  let proposal ← okOr removed.head? proposalNotFound.fault
  return ⟨[.revoked proposal.id], { s with governance := s.governance.saveQueue queue }⟩

section

variable (key : String) (payloadHash : Hash)

def revokeOtherPending : GovM (Done A σ) := do
  requireRevokeKind s.governance caller .other
  let (removed, queue) := s.governance.loadQueue.revokeByKey (.other key payloadHash)
    QueuedProposal.actionKey
  ensure (removed ≠ []) proposalNotFound.fault
  return ⟨removed.map (fun p => .revoked p.id),
    { s with governance := s.governance.saveQueue queue }⟩

def removeApproval : Done A σ :=
  ⟨[], { s with
    governance := { s.governance with
      approvedOtherUntil := update s.governance.approvedOtherUntil key
        (update (s.governance.approvedOtherUntil key) payloadHash none) } }⟩

def revokeOtherApproved : GovM (Done A σ) := do
  requireRevokeKind s.governance caller .other
  ensure (otherApprovalLive s.governance timestamp key payloadHash = true)
    otherNotApproved.fault
  return removeApproval s key payloadHash

/-- The vault uses up an approval. -/
def consumeOther : GovM (Done A σ) := do
  ensure (caller = link.host.self) unauthorized.fault
  ensure (otherApprovalLive s.governance timestamp key payloadHash = true)
    otherNotApproved.fault
  return removeApproval s key payloadHash

end

def restrictionSnapshot (mode : RestrictionMode) (accounts : List A) :
    Option (GovernanceRestrictions A) :=
  match mode with
  | .none => none
  | .blacklist => some (.ofBlacklist accounts)
  | .whitelist => some (.ofWhitelist accounts)

def setPaused (link : Link A σ) (timestamp : Nat) (s : System A σ) (caller : A)
    (paused : Bool) : GovM (Done A σ) := do
  requireSentinel s.governance caller
  ensure (paused = true) invalidInput.fault
  let action : GovernanceAction A := .setPaused paused
  requireNotAbdicated s.governance action
  let s ← executeVaultGovernanceAction link timestamp s caller action
  return ⟨[], { s with governance := s.governance.recordAction action }⟩

def setRestrictions (link : Link A σ) (timestamp : Nat) (s : System A σ)
    (caller : A) (mode : RestrictionMode) (accounts : List A) :
    GovM (Done A σ) := do
  requireSentinel s.governance caller
  let action : GovernanceAction A := .setRestrictions mode accounts
  requireNotAbdicated s.governance action
  ensure (GovernanceRestrictions.determineRelaxed
      (restrictionSnapshot s.governance.currentRestrictionMode
        s.governance.currentRestrictionAccounts)
      (restrictionSnapshot mode accounts) = false) invalidInput.fault
  let s ← executeVaultGovernanceAction link timestamp s caller action
  return ⟨[], { s with governance := s.governance.recordAction action }⟩

def abdicate (kind : GovernanceActionKind) : GovM (Done A σ) := do
  requireAdmin s.governance caller
  return ⟨[], { s with
    governance := { s.governance with
      abdicated := update s.governance.abdicated kind true } }⟩

inductive GovernanceCall (A : Type) where
  | submit (caller : A) (action : GovernanceAction A)
  | accept (caller : A) (proposalId : Nat)
  | acceptKind (caller : A) (kind : GovernanceActionKind)
  | revoke (caller : A) (proposalId : Nat)
  | revokeKind (caller : A) (kind : GovernanceActionKind)
  | revokeOtherPending (caller : A) (key : String) (payloadHash : Hash)
  | revokeOtherApproved (caller : A) (key : String) (payloadHash : Hash)
  | consumeOther (caller : A) (key : String) (payloadHash : Hash)
  | setPaused (caller : A) (paused : Bool)
  | setRestrictions (caller : A) (mode : RestrictionMode) (accounts : List A)
  | abdicate (caller : A) (kind : GovernanceActionKind)
  | extendTtl

def execute : GovernanceCall A → GovM (Done A σ)
  | .submit caller action => do
    let (_, done) ← submit link timestamp s caller action
    return done
  | .accept caller proposalId => do
    let (_, done) ← accept link timestamp s caller proposalId
    return done
  | .acceptKind caller kind => do
    let (_, done) ← acceptKind link timestamp s caller kind
    return done
  | .revoke caller proposalId => revoke s caller proposalId
  | .revokeKind caller kind => revokeKind s caller kind
  | .revokeOtherPending caller key payloadHash => revokeOtherPending s caller key payloadHash
  | .revokeOtherApproved caller key payloadHash =>
    revokeOtherApproved timestamp s caller key payloadHash
  | .consumeOther caller key payloadHash => consumeOther link timestamp s caller key payloadHash
  | .setPaused caller paused => setPaused link timestamp s caller paused
  | .setRestrictions caller mode accounts => setRestrictions link timestamp s caller mode accounts
  | .abdicate caller kind => abdicate s caller kind
  | .extendTtl => .ok ⟨[], s⟩

/-- The governance contract as it is created. -/
def construct (world : σ) (admin : A) (timelockNs : UInt64) : GovM (Governance A) := do
  requireContractAddress link world link.host.self
  ensure (admin ≠ link.host.self ∧ admin ≠ link.address ∧ link.host.self ≠ link.address)
    invalidInput.fault
  validateTimelockNs timelockNs
  return {
    admin
    sentinel := none
    timelocks := .fromDefault timelockNs
    nextProposalId := 1
    pendingPageIndex := []
    pendingPages := fun _ => none
    approvedOtherUntil := fun _ _ => none
    abdicated := fun _ => false
    currentPaused := false
    currentFees := ⟨0, admin, 0, admin, none⟩
    currentRestrictionMode := .none
    currentRestrictionAccounts := []
    currentCap := fun _ => none
    currentCapGroupCap := fun _ => none
    currentCapGroupRelCap := fun _ => none
    currentCapGroupMembership := fun _ => none
    knownCapGroupCap := fun _ => false
    knownCapGroupRelCap := fun _ => false
    knownCapGroupMembership := fun _ => false
    skimRecipient := none
    currentWithdrawalCooldownNs := defaultWithdrawalCooldownNs
    currentIdleResyncCooldownNs := defaultIdleResyncCooldownNs
    currentMaxNavAgeNs := defaultMaxNavAgeNs }

end

end Templar.VaultGovernance
