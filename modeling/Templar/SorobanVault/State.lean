import Templar.Curator.Access
import Templar.Curator.Policy
import Templar.Vault.Actions

/-!
# Storage of the Soroban vault and what lies outside it

The contract keeps the kernel's state, the policy state and its configuration in storage. A
call loads them into a session, lets the kernel compute, has the effects carried out by the
token contracts and writes back. Tokens, adapters and other contracts are a `Host`: functions on
the rest of the ledger, about which nothing is assumed here. A call that fails, for whatever
reason, is rolled back by the platform, so a failure carries no state.

Runtime errors become contract errors of the same name at the boundary and are written as
such from the start.
-/

namespace Templar.SorobanVault

open Checked Curator Vault

inductive ContractError where
  | unauthorized
  | invalidState
  | invalidInput
  | storageError
  | effectFailed
  | kernelError
  | alreadyInitialized
  | missingConfig
  | conversionOverflow
  | enforcedPause
  | migrationNotAllowed
  deriving DecidableEq, Repr

/-- How a call ends without a result: with an error, or because the platform or a called
contract stops it. -/
inductive Fault where
  | error (e : ContractError)
  | trap
  deriving DecidableEq, Repr

abbrev CallM (α : Type) := Except Fault α

def ContractError.fault (e : ContractError) : Fault := .error e

def orTrap {α : Type} (x : Option α) : CallM α := okOr x .trap

/-- An abort inside the kernel stops the call, an error of the kernel is reported as one. -/
def transitionToRuntime {α : Type} (x : KernelM α) : CallM α :=
  x.mapError fun
    | .abort _ => .trap
    | .error _ => ContractError.kernelError.fault

@[simp] theorem transitionToRuntime_eq_ok {α : Type} {x : KernelM α} {a : α} :
    transitionToRuntime x = .ok a ↔ x = .ok a := mapError_eq_ok

def toU128 (v : Int) : CallM Nat := do
  ensure (0 ≤ v) ContractError.invalidInput.fault
  return v.toNat

def toI128 (v : Nat) : CallM Int := do
  ensure (v < 2 ^ 127) ContractError.conversionOverflow.fault
  return (v : Int)

/-- A position under water counts as nothing. -/
def valuationToU128 (v : Int) : Nat := v.toNat

def ledgerTimestampNs (timestamp : Nat) : CallM Nat :=
  okOr (checkedMul 64 timestamp 1000000000) ContractError.conversionOverflow.fault

inductive Executable where
  | wasm
  | stellarAsset
  | account
  deriving DecidableEq, Repr

/-- A token contract. An operation without a result has failed and changed nothing. -/
structure Token (A σ : Type) where
  mint : A → Int → σ → Option σ
  burn : A → Int → σ → Option σ
  burnFrom : A → A → Int → σ → Option σ
  transfer : A → A → Int → σ → Option σ
  balance : A → σ → Option Int

structure Host (A σ : Type) where
  self : A
  zeroAddress : A
  executable : A → σ → Option Executable
  token : A → Token A σ
  supply : A → A → Int → σ → Option σ
  progressWithdrawal : A → A → Int → σ → Option (Int × σ)
  totalAssets : A → A → σ → Option (Int × σ)

variable {A σ : Type}

section

variable (host : Host A σ) (world : σ) (a : A)

def Host.isContractAddress : Bool :=
  match host.executable a world with
  | some .wasm => true
  | some .stellarAsset => true
  | _ => false

def Host.requireContractAddress : CallM Unit :=
  ensure (host.isContractAddress world a = true) ContractError.invalidInput.fault

def Host.requireWasmOrAccountAddress : CallM Unit :=
  ensure (host.executable a world ≠ some .stellarAsset) ContractError.invalidInput.fault

end

def minWithdrawalAssets : Nat := 1000

def sorobanMaxPendingWithdrawals : Nat := maxPending

def defaultWithdrawalCooldownNs : Nat := 60 * 60 * 1000000000

def defaultIdleResyncCooldownNs : Nat := 120 * 1000000000

def defaultMaxNavAgeNs : Nat := 86400000000000

def sorobanMaxRestrictionAddresses : Nat := 3072

/-- Everything an initialised vault has in storage. -/
structure Contract (A : Type) where
  state : VaultState A
  policyState : PolicyState
  restrictions : Option (Restrictions A)
  paused : Bool
  fees : FeesSpec A
  virtualShares : Nat
  virtualAssets : Nat
  virtualOffsetsLocked : Bool
  withdrawalCooldownNs : Nat
  idleResyncCooldownNs : Nat
  maxNavAgeNs : Nat
  idleResyncLastNs : Nat
  navRefreshedNs : Option Nat
  curator : A
  governance : A
  assetToken : A
  shareToken : A
  skimRecipient : A
  sentinel : Option A
  allocators : List A
  allowedAdapters : Option (List A)
  adapterBindings : OrderedMap Nat A
  addressBook : List A
  migrationInProgress : Bool

structure EffectSummary where
  sharesMinted : Nat
  sharesBurned : Nat
  sharesTransferred : Nat
  assetsTransferred : Nat
  eventsEmitted : Nat
  deriving DecidableEq, Repr

namespace EffectSummary

def new : EffectSummary := ⟨0, 0, 0, 0, 0⟩

def record (s : EffectSummary) : KernelEffect A → EffectSummary
  | .mintShares _ shares => { s with sharesMinted := saturatingAdd 128 s.sharesMinted shares }
  | .burnShares _ shares => { s with sharesBurned := saturatingAdd 128 s.sharesBurned shares }
  | .burnSharesFrom _ _ shares => { s with sharesBurned := saturatingAdd 128 s.sharesBurned shares }
  | .transferShares _ _ shares =>
    { s with sharesTransferred := saturatingAdd 128 s.sharesTransferred shares }
  | .transferAssets _ amount =>
    { s with assetsTransferred := saturatingAdd 128 s.assetsTransferred amount }
  | .transferAssetsFrom _ _ amount =>
    { s with assetsTransferred := saturatingAdd 128 s.assetsTransferred amount }
  | .emitEvent _ => { s with eventsEmitted := saturatingAdd 32 s.eventsEmitted 1 }

def merge (s t : EffectSummary) : EffectSummary where
  sharesMinted := saturatingAdd 128 s.sharesMinted t.sharesMinted
  sharesBurned := saturatingAdd 128 s.sharesBurned t.sharesBurned
  sharesTransferred := saturatingAdd 128 s.sharesTransferred t.sharesTransferred
  assetsTransferred := saturatingAdd 128 s.assetsTransferred t.assetsTransferred
  eventsEmitted := saturatingAdd 32 s.eventsEmitted t.eventsEmitted

end EffectSummary

def toI128Event (value : Nat) : CallM Int := do
  ensure (value < 2 ^ 127) ContractError.effectFailed.fault
  return (value : Int)

structure ContractConfig (A : Type) where
  vaultAddress : A
  assetAddress : A
  shareAddress : A
  fees : FeesSpec A
  virtualShares : Nat
  virtualAssets : Nat
  withdrawalCooldownNs : Nat

/-- A session: what the call has loaded, the storage it writes to, the ledger around it and
the addresses it can resolve. -/
structure CuratorVault (A σ : Type) where
  config : ContractConfig A
  auth : RbacConfig A
  storage : Contract A
  world : σ
  known : List A
  state : VaultState A
  policyState : PolicyState
  restrictions : Option (Restrictions A)
  paused : Bool

end Templar.SorobanVault
