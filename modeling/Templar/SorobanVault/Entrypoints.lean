import Templar.Curator.Governance
import Templar.SorobanVault.Session

/-!
# Entry points of the Soroban vault

Each call loads a session, works on it and leaves the storage and the ledger it ends with. An
address that a call acts for has signed it; who signed is a matter of the platform and not
looked at here. The platform also refuses to enter a contract that is already being executed,
so adapters and tokens leave the vault's own storage alone while they are called.

The governance commands come from the governance contract, and those that pause or restrict
also from the sentinel.
-/

namespace Templar.SorobanVault

open Checked Curator Vault ContractError

variable {A σ : Type}

/-- The storage of the vault and everything else on the ledger. -/
structure Ledger (A σ : Type) where
  contract : Contract A
  world : σ

section

variable [DecidableEq A]

variable (v : CuratorVault A σ) (host : Host A σ) (c : Contract A)
  (timestamp : Nat) (l : Ledger A σ)

def loadRbac : RbacConfig A :=
  let config : RbacConfig A := c.allocators.foldl (fun config a => config.addRole a .allocator)
    (RbacConfig.withCurator c.curator)
  let config := match c.sentinel with
    | some sentinel => config.addRole sentinel .sentinel
    | none => config
  { config with paused := c.paused }

/-- The policy is put together from its parts, which are checked on the way. -/
def loadPolicyState : CallM PolicyState :=
  (PolicyState.fromParts c.policyState.markets c.policyState.principals c.policyState.capGroups
    c.policyState.leases c.policyState.supplyQueue).mapError fun _ => storageError.fault

def loadVault : CallM (CuratorVault A σ) := do
  ensure (l.contract.migrationInProgress = false) invalidState.fault
  let policyState ← loadPolicyState l.contract
  return {
    config := ⟨host.self, l.contract.assetToken, l.contract.shareToken, l.contract.fees,
      l.contract.virtualShares, l.contract.virtualAssets, l.contract.withdrawalCooldownNs⟩
    auth := loadRbac l.contract
    storage := l.contract
    world := l.world
    known := []
    state := l.contract.state
    policyState
    restrictions := l.contract.restrictions
    paused := l.contract.paused }

def withContractVault {α : Type} (host : Host A σ) (l : Ledger A σ)
    (f : CuratorVault A σ → CallM (α × CuratorVault A σ)) :
    CallM (α × Ledger A σ) := do
  let v ← loadVault host l
  let (a, v) ← f v
  return (a, ⟨v.storage, v.world⟩)

/-- Books the tokens that the vault holds. What came in unasked raises the fee anchor too, so
that it is not charged as profit. -/
def reconcileActualIdleAssets (state : VaultState A) (actualIdleAssets : Nat) :
    CallM (Bool × VaultState A) :=
  if state.isIdle = false ∨ state.idleAssets = actualIdleAssets then .ok (false, state)
  else do
    let inflow := actualIdleAssets - state.idleAssets
    let state ← transitionToRuntime { state with idleAssets := actualIdleAssets }.syncTotalAssets
    return (true, if inflow = 0 then state else
      { state with feeAnchor := ⟨saturatingAdd 128 state.feeAnchor.totalAssets inflow,
        state.feeAnchor.timestampNs⟩ })

def currentIdleAssets (asset : A) (world : σ) : CallM Nat := do
  let balance ← orTrap ((host.token asset).balance host.self world)
  toU128 balance

def CuratorVault.refreshFeesIfDue (nowNs : Nat) : CallM (CuratorVault A σ) :=
  if v.feesDueForValueTransfer nowNs then v.refreshFees host nowNs else .ok v

/-- Fees that are due are settled before the balance is looked at. Says whether the idle
assets changed and whether fees were settled. -/
def reconcileFeesAndCurrentIdleBalance (v : CuratorVault A σ) (nowNs : Nat) :
    CallM ((Bool × Bool) × CuratorVault A σ) := do
  ensure (v.state.opState.isIdle = true) invalidState.fault
  let feesRefreshed := v.feesDueForValueTransfer nowNs
  let v ← v.refreshFeesIfDue host nowNs
  let actual ← (currentIdleAssets host v.storage.assetToken v.world).mapError fun
    | .error _ => storageError.fault
    | .trap => .trap
  let (idleChanged, state) ← reconcileActualIdleAssets v.state actual
  return ((idleChanged, feesRefreshed), { v with state })

/-- Shares must not be priced by market values that are too old. -/
def navIsStale (nowNs : Nat) : Bool :=
  if c.maxNavAgeNs = 2 ^ 64 - 1 then false
  else match c.navRefreshedNs with
    | none => true
    | some refreshedNs => decide (c.maxNavAgeNs < nowNs - refreshedNs)

def depositWithMinCall (owner receiver : A) (assets minSharesOut nowNs : Nat)
    (v : CuratorVault A σ) : CallM (CuratorVault.DepositResult × CuratorVault A σ) := do
  let (_, v) ← reconcileFeesAndCurrentIdleBalance host v nowNs
  ensure (v.state.externalAssets = 0 ∨ navIsStale v.storage nowNs = false) invalidState.fault
  let v ← v.mapPair host owner receiver
  v.deposit host owner receiver assets minSharesOut nowNs

def depositWithMinImpl (owner receiver : A) (assets minSharesOut : Int) :
    CallM (Int × Ledger A σ) := do
  ensure (0 < assets) invalidInput.fault
  let assets ← toU128 assets
  let minSharesOut ← toU128 minSharesOut
  let nowNs ← ledgerTimestampNs timestamp
  let (result, l) ← withContractVault host l
    (depositWithMinCall host owner receiver assets minSharesOut nowNs)
  let l := if result.sharesMinted ≠ 0 ∧ result.totalAssets ≠ 0 ∧ result.totalShares ≠ 0 then
      { l with contract := { l.contract with virtualOffsetsLocked := true } }
    else l
  let sharesMinted ← toI128 result.sharesMinted
  return (sharesMinted, l)

structure RequestWithdrawReceipt where
  requestId : Nat
  sharesEscrowed : Int
  deriving DecidableEq, Repr

def requestWithdrawImpl (owner receiver : A) (shares minAssetsOut : Int) :
    CallM (RequestWithdrawReceipt × Ledger A σ) := do
  ensure (0 < shares) invalidInput.fault
  let shares ← toU128 shares
  let minAssetsOut ← toU128 minAssetsOut
  let nowNs ← ledgerTimestampNs timestamp
  let (requestId, l) ← withContractVault host l fun v => do
    let v ← v.mapPair host owner receiver
    v.requestWithdraw host owner receiver shares minAssetsOut nowNs
  let sharesEscrowed ← toI128 shares
  return (⟨requestId, sharesEscrowed⟩, l)

/-- Writes back what the reconciliation changed, and settles fees if it has done neither. -/
def CuratorVault.saveOrRefresh (idleChanged feesRefreshed : Bool) (nowNs : Nat) :
    CallM (CuratorVault A σ) :=
  if idleChanged then v.saveState
  else if feesRefreshed then .ok v
  else v.refreshFees host nowNs

def refreshFeesCall (nowNs : Nat) (v : CuratorVault A σ) : CallM (Unit × CuratorVault A σ) := do
  let ((idleChanged, feesRefreshed), v) ← reconcileFeesAndCurrentIdleBalance host v nowNs
  let v ← v.saveOrRefresh host idleChanged feesRefreshed nowNs
  return ((), v)

def refreshFeesImpl : CallM (Ledger A σ) := do
  ensure (l.contract.paused = false) enforcedPause.fault
  let nowNs ← ledgerTimestampNs timestamp
  let (_, l) ← withContractVault host l (refreshFeesCall host nowNs)
  return l

structure ExecuteWithdrawStatus where
  opStateBefore : Nat
  opStateAfter : Nat
  assetsTransferred : Nat
  eventsEmitted : Nat
  deriving DecidableEq, Repr

inductive ExecuteWithdrawReceipt (A : Type) where
  | noPayout (status : ExecuteWithdrawStatus)
  | completed (requestId : Nat) (owner receiver : A) (assetsOut sharesBurned : Nat)
      (status : ExecuteWithdrawStatus)
  deriving DecidableEq, Repr

variable (caller : A)

def executeWithdrawCall (nowNs : Nat) (v : CuratorVault A σ) :
    CallM ((Nat × CuratorVault.ExecuteWithdrawResult A × Nat) × CuratorVault A σ) := do
  let before := v.state.opState.kindCode
  let v ← v.mapCaller host caller
  let (result, v) ← v.executeWithdraw host caller nowNs
  return ((before, result, v.state.opState.kindCode), v)

def executeWithdrawImpl : CallM (ExecuteWithdrawReceipt A × Ledger A σ) := do
  let nowNs ← ledgerTimestampNs timestamp
  let ((before, result, after), l) ← withContractVault host l (executeWithdrawCall host caller nowNs)
  match result with
  | .noPayout summary =>
    return (.noPayout ⟨before, after, summary.assetsTransferred, summary.eventsEmitted⟩, l)
  | .payout summary completed =>
    ensure (completed.owner ∈ l.contract.addressBook) storageError.fault
    ensure (completed.receiver ∈ l.contract.addressBook) storageError.fault
    return (.completed completed.requestId completed.owner completed.receiver completed.assetsOut
      completed.sharesBurned ⟨before, after, summary.assetsTransferred, summary.eventsEmitted⟩, l)

def abortWithdrawingImpl (opId : Nat) : CallM (Ledger A σ) := do
  -- the time is only put into the context of the effects
  let _ ← ledgerTimestampNs timestamp
  let (_, l) ← withContractVault host l fun v => do
    let v ← v.mapCaller host caller
    let v ← v.abortWithdrawing host caller opId
    return ((), v)
  return l

def atomicWithdrawImpl (owner receiver operator : A) (assets maxSharesBurned : Int) :
    CallM (Int × Ledger A σ) := do
  ensure (0 < assets ∧ 0 ≤ maxSharesBurned) invalidInput.fault
  withContractVault host l fun v =>
    v.atomicWithdraw host timestamp assets maxSharesBurned receiver owner operator

def atomicRedeemImpl (owner receiver operator : A) (shares minAssetsOut : Int) :
    CallM (Int × Ledger A σ) := do
  ensure (0 < shares ∧ 0 ≤ minAssetsOut) invalidInput.fault
  withContractVault host l fun v =>
    v.atomicRedeem host timestamp shares minAssetsOut receiver owner operator

def adapterForMarket (market : Nat) : CallM A :=
  okOr (c.adapterBindings.get market) invalidInput.fault

def supplyAdapterForMarket (market : Nat) : CallM A := do
  let adapter ← adapterForMarket c market
  let allowed ← okOr c.allowedAdapters invalidInput.fault
  ensure (adapter ∈ allowed) invalidInput.fault
  return adapter

/-- Before anything moves: the caller's role and, for a supply, its admission by the policy.
Answers the total assets that caps are measured against. -/
def allocatePreflight (market amount : Nat) (supply : Bool) : CallM (Nat × Ledger A σ) :=
  withContractVault host l fun v => do
    v.authorize .beginAllocating caller
    if supply then do
      CuratorVault.validateSupplyAdmission v.policyState market amount v.state.totalAssets
      return (v.state.totalAssets, v)
    else return (0, v)

def allocateSupply (market : Nat) (amount : Int) (preAllocationTotalAssets nowNs : Nat) :
    CallM (Nat × Ledger A σ) := do
  let asset := l.contract.assetToken
  let adapter ← supplyAdapterForMarket l.contract market
  let world ← orTrap ((host.token asset).transfer host.self adapter amount l.world)
  let world ← orTrap (host.supply adapter asset amount world)
  let (value, world) ← orTrap (host.totalAssets adapter asset world)
  let amount ← toU128 amount
  withContractVault host { l with world } fun v => do
    let (opId, v) ← v.beginAllocationInternal host caller [⟨market, amount⟩] nowNs
    v.completeSupplyAllocation host caller market (valuationToU128 value) opId nowNs
      preAllocationTotalAssets

def allocateWithdraw (market : Nat) (amount : Int) (nowNs : Nat) : CallM (Nat × Ledger A σ) := do
  let asset := l.contract.assetToken
  let adapter ← adapterForMarket l.contract market
  let before ← orTrap ((host.token asset).balance host.self l.world)
  let (realized, world) ← orTrap (host.progressWithdrawal adapter asset amount l.world)
  let after ← orTrap ((host.token asset).balance host.self world)
  ensure (-2 ^ 127 ≤ after - before ∧ after - before < 2 ^ 127) invalidState.fault
  ensure (realized = after - before) invalidState.fault
  let realized ← toU128 realized
  let (value, world) ← orTrap (host.totalAssets adapter asset world)
  withContractVault host { l with world } fun v => do
    let (opId, v) ← v.beginAllocationWithdrawInternal host caller market nowNs
    v.completeWithdrawAllocation host caller market realized (valuationToU128 value) opId nowNs

def allocateMove (market : Nat) (amount : Int) (supply : Bool)
    (preAllocationTotalAssets nowNs : Nat) : CallM (Nat × Ledger A σ) :=
  if supply then allocateSupply host l caller market amount preAllocationTotalAssets nowNs
  else allocateWithdraw host l caller market amount nowNs

def allocateImpl (market : Nat) (amount : Int) (supply : Bool) : CallM (Int × Ledger A σ) := do
  ensure (0 < amount) invalidInput.fault
  let amount' ← toU128 amount
  let (preAllocationTotalAssets, l) ← allocatePreflight host l caller market amount' supply
  let nowNs ← ledgerTimestampNs timestamp
  let (newExternal, l) ← allocateMove host l caller market amount supply preAllocationTotalAssets nowNs
  let newExternal ← toI128 newExternal
  return (newExternal, l)

/-- Asks the adapter of each market what its position is worth. -/
def readPositions (markets : List Nat) (world : σ) : CallM (List (Nat × Nat) × σ) :=
  markets.foldlM (fun (acc : List (Nat × Nat) × σ) market => do
    let adapter ← adapterForMarket c market
    let (value, world) ← orTrap (host.totalAssets adapter c.assetToken acc.2)
    return (acc.1 ++ [(market, valuationToU128 value)], world)) ([], world)

def refreshMarketsCall (positions : List (Nat × Nat)) (nowNs : Nat) (v : CuratorVault A σ) :
    CallM (Nat × CuratorVault A σ) := do
  let markets := positions.map Prod.fst
  let coversAllPrincipal := v.policyState.principals.entries.all fun e =>
    decide (e.2 = 0) || decide (e.1 ∈ markets)
  let (opId, v) ← v.beginRefreshing host caller markets nowNs
  let (result, v) ← v.completeRefreshWithPositions host caller positions opId nowNs
  let v := if coversAllPrincipal then
      { v with storage := { v.storage with navRefreshedNs := some nowNs } }
    else v
  return (result.newExternalAssets, v)

def refreshMarketsImpl (markets : List Nat) : CallM (Int × Ledger A σ) := do
  let (_, l) ← withContractVault host l fun v => do
    v.authorize .beginRefreshing caller
    return ((), v)
  let nowNs ← ledgerTimestampNs timestamp
  let (positions, world) ← readPositions host l.contract markets l.world
  let (newExternal, l) ← withContractVault host { l with world }
    (refreshMarketsCall host caller positions nowNs)
  let newExternal ← toI128 newExternal
  return (newExternal, l)

def resyncIdleBalanceImpl : CallM (Ledger A σ) := do
  ensure (l.contract.paused = false) enforcedPause.fault
  let nowNs ← ledgerTimestampNs timestamp
  ensure (l.contract.idleResyncLastNs = 0 ∨
    l.contract.idleResyncCooldownNs ≤ nowNs - l.contract.idleResyncLastNs)
    invalidState.fault
  let (_, l) ← withContractVault host l fun v => do
    let (_, v) ← reconcileFeesAndCurrentIdleBalance host v nowNs
    let v ← v.saveState
    return ((), v)
  return { l with contract := { l.contract with idleResyncLastNs := nowNs } }

def requireGovernance : CallM Unit :=
  ensure (caller = c.governance) unauthorized.fault

def cancelMigrationImpl : CallM (Ledger A σ) := do
  requireGovernance l.contract caller
  ensure (l.contract.migrationInProgress = true) invalidState.fault
  return { l with contract := { l.contract with migrationInProgress := false } }

inductive VaultCommand (A : Type) where
  | depositWithMin (owner receiver : A) (assets minSharesOut : Int)
  | requestWithdraw (owner receiver : A) (shares minAssetsOut : Int)
  | executeWithdraw (caller : A)
  | abortWithdrawing (caller : A) (opId : Nat)
  | atomicWithdraw (owner receiver operator : A) (assets maxSharesBurned : Int)
  | atomicRedeem (owner receiver operator : A) (shares minAssetsOut : Int)
  | allocate (caller : A) (market : Nat) (amount : Int) (supply : Bool)
  | refreshMarkets (caller : A) (markets : List Nat)
  | refreshFees
  | resyncIdleBalance
  | cancelMigration (caller : A)
  | extendTtl

inductive Receipt (A : Type) where
  | deposit (sharesOut : Int)
  | requestWithdraw (receipt : RequestWithdrawReceipt)
  | executeWithdraw (receipt : ExecuteWithdrawReceipt A)
  | i128 (value : Int)
  | empty
  deriving DecidableEq, Repr

def executePublicCommand : VaultCommand A → CallM (Receipt A × Ledger A σ)
  | .depositWithMin owner receiver assets minSharesOut => do
    let (sharesOut, l) ← depositWithMinImpl host timestamp l owner receiver assets minSharesOut
    return (.deposit sharesOut, l)
  | .requestWithdraw owner receiver shares minAssetsOut => do
    let (receipt, l) ← requestWithdrawImpl host timestamp l owner receiver shares minAssetsOut
    return (.requestWithdraw receipt, l)
  | .executeWithdraw caller => do
    let (receipt, l) ← executeWithdrawImpl host timestamp l caller
    return (.executeWithdraw receipt, l)
  | .abortWithdrawing caller opId => do
    let l ← abortWithdrawingImpl host timestamp l caller opId
    return (.empty, l)
  | .atomicWithdraw owner receiver operator assets maxSharesBurned => do
    let (value, l) ← atomicWithdrawImpl host timestamp l owner receiver operator assets
      maxSharesBurned
    return (.i128 value, l)
  | .atomicRedeem owner receiver operator shares minAssetsOut => do
    let (value, l) ← atomicRedeemImpl host timestamp l owner receiver operator shares minAssetsOut
    return (.i128 value, l)
  | .allocate caller market amount supply => do
    let (value, l) ← allocateImpl host timestamp l caller market amount supply
    return (.i128 value, l)
  | .refreshMarkets caller markets => do
    let (value, l) ← refreshMarketsImpl host timestamp l caller markets
    return (.i128 value, l)
  | .refreshFees => do
    let l ← refreshFeesImpl host timestamp l
    return (.empty, l)
  | .resyncIdleBalance => do
    let l ← resyncIdleBalanceImpl host timestamp l
    return (.empty, l)
  | .cancelMigration caller => do
    let l ← cancelMigrationImpl l caller
    return (.empty, l)
  | .extendTtl => .ok (.empty, l)

inductive GovernanceConfigKind where
  | curator
  | governance
  | sentinel
  | allocators
  | allowedAdapters
  | skimRecipient
  | virtualOffsets
  | withdrawalCooldown
  | idleResyncCooldown
  | maxNavAge
  | unknown (code : Nat)
  deriving DecidableEq, Repr

inductive GovernancePolicyKind where
  | supplyQueue
  | cap
  | removeMarket
  | restrictions
  | group
  | paused
  | fees
  | unknown (code : Nat)
  deriving DecidableEq, Repr

structure GovernanceConfigArgs (A : Type) where
  kind : GovernanceConfigKind
  primary : Option A
  many : Option (List A)
  valueA : Option Int
  valueB : Option Int

structure GovernancePolicyArgs (A : Type) where
  kind : GovernancePolicyKind
  targetIds : Option (List Nat)
  mode : Option Nat
  accounts : Option (List A)
  marketId : Option Nat
  capGroupId : Option String
  value : Option Int
  valueB : Option Int
  valueC : Option Int

inductive GovernanceCommand (A : Type) where
  | setGovernanceConfig (args : GovernanceConfigArgs A)
  | setGovernancePolicy (args : GovernancePolicyArgs A)
  | skim (token : A)

/-- An argument that the command needs. -/
def ensureSome {α : Type} (value : Option α) : CallM α := okOr value invalidInput.fault

@[simp] theorem ensureSome_eq_ok {α : Type} {value : Option α} {a : α} :
    ensureSome value = .ok a ↔ value = some a := okOr_eq_ok

/-- An argument that the command does not take. -/
def ensureNone {α : Type} (value : Option α) : CallM Unit :=
  ensure (value.isNone = true) invalidInput.fault

def toU64 (v : Int) : CallM Nat := do
  ensure (0 ≤ v ∧ v < 2 ^ 64) invalidInput.fault
  return v.toNat

def applyCuratorConfig (newCurator : A) : CallM (Contract A) := do
  host.requireWasmOrAccountAddress l.world newCurator
  return { l.contract with curator := newCurator }

def applyGovernanceConfig (governance : A) : CallM (Contract A) := do
  host.requireContractAddress l.world governance
  return { l.contract with governance }

def applySentinelConfig (sentinel : A) : CallM (Contract A) := do
  host.requireWasmOrAccountAddress l.world sentinel
  return { l.contract with sentinel := some sentinel }

def applyAllocatorsConfig (allocators : List A) : CallM (Contract A) := do
  allocators.forM (host.requireWasmOrAccountAddress l.world)
  ensure allocators.Nodup invalidInput.fault
  return { l.contract with allocators }

/-- An empty list removes the entry altogether. -/
def applyAllowedAdaptersConfig (adapters : List A) : CallM (Contract A) := do
  ensure adapters.Nodup invalidInput.fault
  adapters.forM (host.requireContractAddress l.world)
  return { l.contract with allowedAdapters := if adapters = [] then none else some adapters }

def applySkimRecipientConfig (recipient : A) : Contract A := { c with skimRecipient := recipient }

def applyVirtualOffsetsConfig (virtualShares virtualAssets : Int) : CallM (Contract A) := do
  ensure (c.virtualOffsetsLocked = false) invalidState.fault
  ensure (c.state.totalAssets = 0 ∧ c.state.totalShares = 0) invalidState.fault
  let virtualShares ← toU128 virtualShares
  let virtualAssets ← toU128 virtualAssets
  return { c with virtualShares, virtualAssets }

def applyWithdrawalCooldownConfig (ns : Int) : CallM (Contract A) := do
  let withdrawalCooldownNs ← toU64 ns
  return { c with withdrawalCooldownNs }

def applyIdleResyncCooldownConfig (ns : Int) : CallM (Contract A) := do
  let idleResyncCooldownNs ← toU64 ns
  return { c with idleResyncCooldownNs }

def applyMaxNavAgeConfig (ns : Int) : CallM (Contract A) := do
  let maxNavAgeNs ← toU64 ns
  return { c with maxNavAgeNs }

def applyConfig (args : GovernanceConfigArgs A) : CallM (Contract A) :=
  match args.kind with
  | .curator => ensureSome args.primary >>= applyCuratorConfig host l
  | .governance => ensureSome args.primary >>= applyGovernanceConfig host l
  | .sentinel => ensureSome args.primary >>= applySentinelConfig host l
  | .allocators => ensureSome args.many >>= applyAllocatorsConfig host l
  | .allowedAdapters => ensureSome args.many >>= applyAllowedAdaptersConfig host l
  | .skimRecipient => do
    let recipient ← ensureSome args.primary
    return applySkimRecipientConfig l.contract recipient
  | .virtualOffsets => do
    let virtualShares ← ensureSome args.valueA
    let virtualAssets ← ensureSome args.valueB
    applyVirtualOffsetsConfig l.contract virtualShares virtualAssets
  | .withdrawalCooldown => ensureSome args.valueA >>= applyWithdrawalCooldownConfig l.contract
  | .idleResyncCooldown => ensureSome args.valueA >>= applyIdleResyncCooldownConfig l.contract
  | .maxNavAge => ensureSome args.valueA >>= applyMaxNavAgeConfig l.contract
  | .unknown _ => .error invalidInput.fault

def setGovernanceConfigImpl (args : GovernanceConfigArgs A) : CallM (Ledger A σ) := do
  requireGovernance l.contract caller
  let contract ← applyConfig host l args
  return { l with contract }

def adapterAllowed (adapter : A) : Bool :=
  match c.allowedAdapters with
  | some allowed => decide (adapter ∈ allowed)
  | none => false

/-- Checks the adapter of one queued market. A market keeps the adapter it has been given, and
no adapter serves two markets. -/
def bindAdapter (bindings : OrderedMap Nat A) (target : Nat × Option A) :
    CallM (OrderedMap Nat A) :=
  match bindings.get target.1 with
  | some existing => do
    ensure (target.2 = none ∨ target.2 = some existing) invalidInput.fault
    host.requireContractAddress l.world existing
    ensure (adapterAllowed l.contract existing = true) invalidInput.fault
    return bindings
  | none => do
    let adapter ← ensureSome target.2
    host.requireContractAddress l.world adapter
    ensure (adapterAllowed l.contract adapter = true) invalidInput.fault
    ensure (adapter ∉ bindings.values) invalidInput.fault
    return bindings.insert target.1 adapter

def applySupplyQueuePolicy (targetIds : List Nat) (adapters : Option (List A)) :
    CallM (Ledger A σ) := do
  ensure (∀ given ∈ adapters, given.length = targetIds.length) invalidInput.fault
  let proposed := match adapters with
    | some given => targetIds.zip (given.map some)
    | none => targetIds.map (·, none)
  let bindings ← proposed.foldlM (bindAdapter host l) l.contract.adapterBindings
  let (_, l) ← withContractVault host l fun v => do
    let v ← v.setSupplyQueueAuthorized targetIds
    return ((), v)
  return { l with contract := { l.contract with adapterBindings := bindings } }

def applyCapPolicy (marketId : Nat) (newCap : Int) : CallM (Ledger A σ) := do
  let newCap ← toU128 newCap
  let (_, l) ← withContractVault host l fun v => do
    let v ← v.applyGovernanceCapAuthorized marketId newCap
    return ((), v)
  return l

def applyRemoveMarketPolicy (marketId : Nat) : CallM (Ledger A σ) := do
  let (_, l) ← withContractVault host l fun v => do
    let v ← v.applyGovernanceRemoveMarketAuthorized marketId
    return ((), v)
  return l

def restrictionsFromPolicy (mode : Nat) (accounts : List A) : CallM (Option (Restrictions A)) :=
  match mode with
  | 0 => .ok none
  | 1 => .ok (some (.blacklist (normalizeMembers accounts)))
  | 2 => .ok (some (.whitelist (normalizeMembers accounts)))
  | _ => .error invalidInput.fault

def governanceRestrictions : Option (Restrictions A) → Option (GovernanceRestrictions A)
  | none => none
  | some (.blacklist addresses) => some (.ofBlacklist addresses)
  | some (.whitelist addresses) => some (.ofWhitelist addresses)

def ensureSentinelIdentity : CallM Unit := do
  let sentinel ← okOr c.sentinel missingConfig.fault
  ensure (caller = sentinel) unauthorized.fault

/-- Restrictions are widened by governance and narrowed by the sentinel. -/
def applyRestrictionsPolicy (mode : Nat) (accounts : List A) : CallM (Ledger A σ) := do
  let next ← restrictionsFromPolicy mode accounts
  if GovernanceRestrictions.determineRelaxed (governanceRestrictions l.contract.restrictions)
      (governanceRestrictions next) then do
    requireGovernance l.contract caller
    let contract ← CuratorVault.saveRestrictions l.contract next
    return { l with contract }
  else do
    ensureSentinelIdentity l.contract caller
    let (_, l) ← withContractVault host l fun v => do
      let v ← v.setRestrictions caller next
      return ((), v)
    return l

def parseCapGroup (raw : String) : CallM CapGroupId :=
  CuratorVault.policyOrInvalidInput (CapGroupId.tryFrom raw)

def optionalU128 : Option Int → CallM (Option Nat)
  | some raw => do
    let value ← toU128 raw
    return some value
  | none => .ok none

def capGroupUpdate (mode : Nat) (marketId : Option Nat) (capGroupId : Option String)
    (value : Option Int) : CallM CapGroupUpdate :=
  let raw := capGroupId.getD ""
  match mode with
  | 0 => do
    let id ← parseCapGroup raw
    let newCap ← optionalU128 value
    return .setCap id newCap
  | 1 => do
    let id ← parseCapGroup raw
    let newRelativeCap ← optionalU128 value
    return .setRelativeCap id newRelativeCap
  | 2 => do
    let marketId ← ensureSome marketId
    if raw = "" then return .setMembership marketId none
    else do
      let id ← parseCapGroup raw
      return .setMembership marketId (some id)
  | _ => .error invalidInput.fault

def applyGroupPolicy (mode : Nat) (marketId : Option Nat) (capGroupId : Option String)
    (value : Option Int) : CallM (Ledger A σ) := do
  let update ← capGroupUpdate mode marketId capGroupId value
  let (_, l) ← withContractVault host l fun v => do
    let v ← v.applyGovernanceCapGroupUpdateAuthorized update
    return ((), v)
  return l

/-- The sentinel pauses, governance resumes. -/
def applyPausedPolicy (paused : Bool) : CallM (Ledger A σ) :=
  if paused then do
    ensureSentinelIdentity l.contract caller
    let (_, l) ← withContractVault host l fun v => do
      let v ← v.pause caller true
      return ((), v)
    return l
  else do
    requireGovernance l.contract caller
    return { l with contract := { l.contract with paused := false } }

/-- Fees must not accrue to the vault itself or to one of its tokens. -/
def allowedFeeRecipients (fees : FeesSpec A) : Bool :=
  [host.self, c.assetToken, c.shareToken].all fun address =>
    decide (fees.performance.recipient ≠ address ∧ fees.management.recipient ≠ address)

def requireAllowedFeeRecipients (fees : FeesSpec A) : CallM Unit :=
  ensure (allowedFeeRecipients host c fees = true) invalidInput.fault

def requireNonNegativeBoundedWad (value : Int) (max : Nat) : CallM Nat := do
  let value ← toU128 value
  ensure (value ≤ max) invalidInput.fault
  return value

def applyFeeChange (performanceFeeWad : Int) (performanceRecipient : A)
    (managementFeeWad : Int) (managementRecipient : A) (maxGrowthRateWad : Option Int) :
    CallM (Contract A) := do
  let performanceFee ← requireNonNegativeBoundedWad performanceFeeWad maxPerformanceFeeWad
  let managementFee ← requireNonNegativeBoundedWad managementFeeWad maxManagementFeeWad
  let maxRate ← optionalU128 maxGrowthRateWad
  let fees : FeesSpec A :=
    ⟨⟨performanceFee, performanceRecipient⟩, ⟨managementFee, managementRecipient⟩, maxRate⟩
  requireAllowedFeeRecipients host c fees
  return { c with
    fees
    addressBook := (c.addressBook.insert performanceRecipient).insert managementRecipient }

/-- A recipient that is no longer allowed is not paid for the last window. -/
def CuratorVault.payLastWindow (storedRecipientsAllowed : Bool) (nowNs : Nat) :
    CallM (CuratorVault A σ) :=
  if storedRecipientsAllowed then v.refreshFeesIfDue host nowNs else .ok v

/-- Settles the fees under the old rates and starts a new window at the present value. -/
def settleFees (storedRecipientsAllowed : Bool) (nowNs : Nat) (v : CuratorVault A σ) :
    CallM (Unit × CuratorVault A σ) := do
  ensure (v.state.opState.isIdle = true) invalidState.fault
  let v ← v.payLastWindow host storedRecipientsAllowed nowNs
  let v := if v.state.feeAnchor.timestampNs < nowNs then
      { v with state := { v.state with feeAnchor := ⟨v.state.totalAssets, nowNs⟩ } }
    else v
  let v ← v.saveState
  return ((), v)

def applyFeesPolicy (accounts : List A) (performanceFeeWad managementFeeWad : Int)
    (maxGrowthRateWad : Option Int) : CallM (Ledger A σ) :=
  match accounts with
  | [performanceRecipient, managementRecipient] => do
    let nowNs ← ledgerTimestampNs timestamp
    let allowed := allowedFeeRecipients host l.contract l.contract.fees
    let (_, l) ← withContractVault host l (settleFees host allowed nowNs)
    let contract ← applyFeeChange host l.contract performanceFeeWad performanceRecipient
      managementFeeWad managementRecipient maxGrowthRateWad
    return { l with contract }
  | _ => .error invalidInput.fault

def setGovernancePolicyImpl (args : GovernancePolicyArgs A) : CallM (Ledger A σ) :=
  match args.kind with
  | .supplyQueue => do
    ensureNone args.mode
    ensureNone args.marketId
    ensureNone args.capGroupId
    ensureNone args.value
    ensureNone args.valueB
    ensureNone args.valueC
    requireGovernance l.contract caller
    let targetIds ← ensureSome args.targetIds
    applySupplyQueuePolicy host l targetIds args.accounts
  | .cap => do
    ensureNone args.targetIds
    ensureNone args.mode
    ensureNone args.accounts
    ensureNone args.capGroupId
    ensureNone args.valueB
    ensureNone args.valueC
    requireGovernance l.contract caller
    let marketId ← ensureSome args.marketId
    let value ← ensureSome args.value
    applyCapPolicy host l marketId value
  | .removeMarket => do
    ensureNone args.targetIds
    ensureNone args.mode
    ensureNone args.accounts
    ensureNone args.capGroupId
    ensureNone args.value
    ensureNone args.valueB
    ensureNone args.valueC
    requireGovernance l.contract caller
    let marketId ← ensureSome args.marketId
    applyRemoveMarketPolicy host l marketId
  | .restrictions => do
    ensureNone args.targetIds
    ensureNone args.marketId
    ensureNone args.capGroupId
    ensureNone args.value
    ensureNone args.valueB
    ensureNone args.valueC
    let mode ← ensureSome args.mode
    let accounts ← ensureSome args.accounts
    applyRestrictionsPolicy host l caller mode accounts
  | .group => do
    ensureNone args.targetIds
    ensureNone args.accounts
    ensureNone args.valueB
    ensureNone args.valueC
    requireGovernance l.contract caller
    let mode ← ensureSome args.mode
    applyGroupPolicy host l mode args.marketId args.capGroupId args.value
  | .paused => do
    ensureNone args.targetIds
    ensureNone args.accounts
    ensureNone args.marketId
    ensureNone args.capGroupId
    ensureNone args.value
    ensureNone args.valueB
    ensureNone args.valueC
    let mode ← ensureSome args.mode
    match mode with
    | 0 => applyPausedPolicy host l caller false
    | 1 => applyPausedPolicy host l caller true
    | _ => .error invalidInput.fault
  | .fees => do
    ensureNone args.targetIds
    ensureNone args.mode
    ensureNone args.marketId
    ensureNone args.capGroupId
    requireGovernance l.contract caller
    let accounts ← ensureSome args.accounts
    let value ← ensureSome args.value
    let valueB ← ensureSome args.valueB
    applyFeesPolicy host timestamp l accounts value valueB args.valueC
  | .unknown _ => .error invalidInput.fault

/-- Sends what the vault holds of a foreign token to the recipient. -/
def skimImpl (token : A) : CallM (Ledger A σ) := do
  requireGovernance l.contract caller
  ensure (token ≠ l.contract.assetToken ∧ token ≠ l.contract.shareToken) invalidInput.fault
  let balance ← orTrap ((host.token token).balance host.self l.world)
  ensure (0 < balance) invalidState.fault
  let world ← orTrap
    ((host.token token).transfer host.self l.contract.skimRecipient balance l.world)
  return { l with world }

inductive GovernanceCommandCaller where
  | governance
  | sentinel
  deriving DecidableEq, Repr

def governanceCommandCallerKind : CallM GovernanceCommandCaller :=
  if caller = c.governance then .ok .governance
  else if c.sentinel = some caller then .ok .sentinel
  else .error unauthorized.fault

def governanceCommandAllowsSentinel : GovernanceCommand A → Bool
  | .setGovernancePolicy args => args.kind == .restrictions || args.kind == .paused
  | _ => false

def requireGovernanceCommandAuthorization (kind : GovernanceCommandCaller)
    (command : GovernanceCommand A) : CallM Unit :=
  match kind with
  | .governance => .ok ()
  | .sentinel =>
    ensure (governanceCommandAllowsSentinel command = true) unauthorized.fault

def executeGovernanceCommand (command : GovernanceCommand A) : CallM (Ledger A σ) := do
  ensure (l.contract.migrationInProgress = false) migrationNotAllowed.fault
  match command with
  | .setGovernanceConfig args => setGovernanceConfigImpl host l caller args
  | .setGovernancePolicy args => setGovernancePolicyImpl host timestamp l caller args
  | .skim token => skimImpl host l caller token

def executeGovernance (command : GovernanceCommand A) : CallM (Ledger A σ) := do
  let kind ← governanceCommandCallerKind l.contract caller
  requireGovernanceCommandAuthorization kind command
  executeGovernanceCommand host timestamp l caller command

def initializeImpl (stored : Option (Contract A)) (world : σ)
    (curator governance assetToken shareToken : A) (virtualShares virtualAssets : Int)
    (withdrawalCooldownNs idleResyncCooldownNs : Nat) : CallM (Ledger A σ) := do
  ensure (stored.isNone = true) alreadyInitialized.fault
  let virtualShares ← toU128 virtualShares
  let virtualAssets ← toU128 virtualAssets
  host.requireWasmOrAccountAddress world curator
  host.requireContractAddress world governance
  return {
    world
    contract := {
      state := .new
      policyState := .default
      restrictions := none
      paused := false
      fees := ⟨⟨0, host.zeroAddress⟩, ⟨0, host.zeroAddress⟩, none⟩
      virtualShares
      virtualAssets
      virtualOffsetsLocked := false
      withdrawalCooldownNs
      idleResyncCooldownNs
      maxNavAgeNs := defaultMaxNavAgeNs
      idleResyncLastNs := 0
      navRefreshedNs := none
      curator
      governance
      assetToken
      shareToken
      skimRecipient := governance
      sentinel := none
      allocators := []
      allowedAdapters := none
      adapterBindings := .empty
      addressBook := []
      migrationInProgress := false } }

/-- Hands the contract over to new code, which has to migrate before anything else. -/
def upgrade (operator : A) : CallM (Ledger A σ) := do
  requireGovernance l.contract operator
  return { l with contract := { l.contract with migrationInProgress := true } }

def normalizeMigratedState : CallM (Contract A) := do
  let nowNs ← ledgerTimestampNs timestamp
  ensure (c.virtualAssets = 0 ∨ c.state.withdrawQueue.isEmpty = true) invalidState.fault
  ensure (c.state.withdrawQueue.checkInvariantsWithMax sorobanMaxPendingWithdrawals = true)
    storageError.fault
  return { c with state := { c.state with feeAnchor := ⟨c.state.totalAssets, nowNs⟩ } }

def migrate (operator : A) : CallM (Ledger A σ) := do
  requireGovernance l.contract operator
  ensure (l.contract.migrationInProgress = true) invalidState.fault
  let contract ← normalizeMigratedState l.contract timestamp
  -- what is stored is read and written once more
  let policyState ← loadPolicyState contract
  let contract ← CuratorVault.saveRestrictions { contract with policyState } contract.restrictions
  requireAllowedFeeRecipients host contract contract.fees
  return { l with contract := { contract with migrationInProgress := false } }

end

/-- A ledger with the vault at 1. Its tokens do what they are asked; the world is what the vault
holds of the asset, and of the first hundred units the rest is in the market. -/
def sampleHost : Host Nat Int where
  self := 1
  zeroAddress := 0
  executable := fun _ _ => some .wasm
  token := fun _ => {
    mint := fun _ _ held => some held
    burn := fun _ _ held => some held
    burnFrom := fun _ _ _ held => some held
    transfer := fun source target amount held =>
      some (if source = 1 then held - amount else if target = 1 then held + amount else held)
    balance := fun _ held => some held }
  supply := fun _ _ _ held => some held
  progressWithdrawal := fun _ _ amount held => some (amount, held + amount)
  totalAssets := fun _ _ held => some (100 - held, held)

end Templar.SorobanVault
