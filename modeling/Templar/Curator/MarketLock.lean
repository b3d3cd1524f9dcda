import Templar.Lib.Checked
import Templar.Lib.Table

/-!
# Fenced market leases

A market is worked on by one operation at a time. The registry gives the operation a lease on
the market, with a fencing token that no later lease repeats; a callback presents the token it
was given, and a callback whose lease is gone, or has been replaced, is recognised by that.
-/

namespace Templar.Curator

open Checked

structure MarketLease where
  targetId : Nat
  owner : Nat
  opId : Option Nat
  acquiredAt : Nat
  expiresAt : Nat
  fencingToken : Nat
  deriving DecidableEq, Repr

def MarketLease.isExpired (lease : MarketLease) (now : Nat) : Bool := decide (lease.expiresAt ≤ now)

inductive AcquireLeaseError where
  | zeroTtl
  | expiryOverflow
  | alreadyLeased (existing : MarketLease)
  deriving DecidableEq, Repr

inductive ReleaseLeaseError where
  | notFound (targetId : Nat)
  | ownerMismatch (targetId expectedOwner actualOwner : Nat)
  | tokenMismatch (targetId expectedToken actualToken : Nat)
  deriving DecidableEq, Repr

structure MarketLeaseRegistry where
  leasesByTarget : Table Nat MarketLease
  nextFencingToken : Nat
  deriving DecidableEq

namespace MarketLeaseRegistry

def new : MarketLeaseRegistry := ⟨∅, 0⟩

variable (r : MarketLeaseRegistry)

def get (targetId : Nat) : Option MarketLease := r.leasesByTarget.lookup targetId

def getActive (targetId now : Nat) : Option MarketLease :=
  (r.get targetId).filter (fun lease => !lease.isExpired now)

def cleanupExpired (now : Nat) : MarketLeaseRegistry :=
  { r with leasesByTarget := r.leasesByTarget.retain (fun lease => !lease.isExpired now) }

/-- The tokens given out are not forgotten with the leases. -/
def clear : MarketLeaseRegistry := { r with leasesByTarget := ∅ }

/-- A lease held by another owner is refused; the owner's own is replaced by a new one. -/
def tryAcquire (targetId owner : Nat) (opId : Option Nat) (now ttl : Nat) :
    Outcome (Except AcquireLeaseError (MarketLeaseRegistry × MarketLease)) :=
  if ttl = 0 then .ok (.error .zeroTtl)
  else
    match checkedAdd 64 now ttl with
    | none => .ok (.error .expiryOverflow)
    | some expiresAt =>
      let cleaned := r.cleanupExpired now
      match (cleaned.getActive targetId now).filter (fun existing => existing.owner ≠ owner) with
      | some existing => .ok (.error (.alreadyLeased existing))
      | none => do
        let token ← expect "fencing token overflow should be unreachable"
          (checkedAdd 64 cleaned.nextFencingToken 1)
        let lease : MarketLease := ⟨targetId, owner, opId, now, expiresAt, token⟩
        return .ok (⟨cleaned.leasesByTarget.insert targetId lease, token⟩, lease)

def releaseIfOwnedWithToken (targetId owner token : Nat) :
    Except ReleaseLeaseError MarketLeaseRegistry := do
  let existing ← okOr (r.get targetId) (.notFound targetId)
  ensure (existing.owner = owner) (.ownerMismatch targetId existing.owner owner)
  ensure (existing.fencingToken = token) (.tokenMismatch targetId existing.fencingToken token)
  return { r with leasesByTarget := r.leasesByTarget.erase targetId }

variable {r r' : MarketLeaseRegistry} {targetId owner now ttl token : Nat} {opId : Option Nat}
  {lease : MarketLease}

theorem getActive_eq_some :
    r.getActive targetId now = some lease ↔ r.get targetId = some lease ∧ now < lease.expiresAt := by
  simp [getActive, Option.filter_eq_some_iff, MarketLease.isExpired]

theorem tryAcquire_eq_ok (h : r.tryAcquire targetId owner opId now ttl = .ok (.ok (r', lease))) :
    lease.owner = owner ∧ lease.opId = opId ∧ lease.fencingToken = r.nextFencingToken + 1 ∧
      now < lease.expiresAt ∧ r'.leasesByTarget =
        (r.leasesByTarget.retain (fun old => !old.isExpired now)).insert targetId lease := by
  unfold tryAcquire at h
  split at h
  · cases h
  rename_i httl
  split at h
  · cases h
  rename_i expiresAt hexp
  dsimp only at h
  split at h
  · cases h
  rename_i hfree
  simp only [do_ok] at h hexp
  obtain ⟨token, ⟨-, rfl⟩, rfl, rfl⟩ := h
  exact ⟨rfl, rfl, rfl, by simp only; omega, rfl⟩

theorem releaseIfOwnedWithToken_eq_ok
    (h : r.releaseIfOwnedWithToken targetId owner token = .ok r') :
    r' = { r with leasesByTarget := r.leasesByTarget.erase targetId } := by
  simp only [releaseIfOwnedWithToken, do_ok] at h
  obtain ⟨_, -, -, -, rfl⟩ := h
  rfl

end MarketLeaseRegistry

end Templar.Curator
