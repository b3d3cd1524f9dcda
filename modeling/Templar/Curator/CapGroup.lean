import Templar.Vault.Number

/-!
# Cap groups

A cap group bounds what its markets may hold together, by an amount, by a share of the vault's
total assets, or by both. A group without a cap of either kind is unlimited.
-/

namespace Templar.Curator

open Checked Vault

structure CapGroup where
  absoluteCap : Option Nat
  relativeCap : Option Nat
  deriving DecidableEq, Repr

namespace CapGroup

def isUnlimited (g : CapGroup) : Bool := g.absoluteCap.isNone && g.relativeCap.isNone

def effectiveCap (g : CapGroup) (totalAssets : Nat) : Nat :=
  if g.isUnlimited then 2 ^ 128 - 1
  else
    let absolute := g.absoluteCap.getD (2 ^ 128 - 1)
    let relative := (g.relativeCap.map (fun cap =>
      Number.asU128Saturating (Wad.applyFloored cap totalAssets))).getD (2 ^ 128 - 1)
    min absolute relative

def availableCapacity (g : CapGroup) (currentPrincipal totalAssets : Nat) : Nat :=
  g.effectiveCap totalAssets - currentPrincipal

inductive Excess where
  | absoluteCap (requested currentPrincipal absoluteCap : Nat)
  | relativeCap (requested currentPrincipal effectiveCap totalAssets : Nat)
  | overflow (currentPrincipal requested : Nat)
  deriving DecidableEq, Repr

/-- Both caps are looked at on their own; an unset cap refuses nothing. -/
def enforce (g : CapGroup) (currentPrincipal amount totalAssets : Nat) : Except Excess Unit := do
  let newPrincipal ← okOr (checkedAdd 128 currentPrincipal amount) (.overflow currentPrincipal amount)
  match g.absoluteCap with
  | some cap => ensure (newPrincipal ≤ cap) (.absoluteCap amount currentPrincipal cap)
  | none => .ok ()
  match g.relativeCap with
  | some cap =>
    let effectiveCap := Number.asU128Saturating (Wad.applyFloored cap totalAssets)
    ensure (newPrincipal ≤ effectiveCap)
      (.relativeCap amount currentPrincipal effectiveCap totalAssets)
  | none => .ok ()

end CapGroup

structure CapGroupRecord where
  cap : CapGroup
  principal : Nat
  deriving DecidableEq, Repr

namespace CapGroupRecord

def availableCapacity (r : CapGroupRecord) (totalAssets : Nat) : Nat :=
  r.cap.availableCapacity r.principal totalAssets

/-- An unset cap reads as zero here, and as the whole for the relative cap. -/
def absoluteCap (r : CapGroupRecord) : Nat := r.cap.absoluteCap.getD 0

def relativeCap (r : CapGroupRecord) : Nat := r.cap.relativeCap.getD Wad.scale

end CapGroupRecord

/-- The first item that occurs again later. -/
def findFirstDuplicate : List Nat → Option Nat
  | [] => none
  | item :: rest => if item ∈ rest then some item else findFirstDuplicate rest

end Templar.Curator
