import Templar.Near.State

/-!
# Fee accrual and conversions of the NEAR vault

The contract charges fees itself and runs the kernel with a mirror of its own books and with all
rates set to zero. `internalAccrueFee` mints the fee shares and then moves the anchor, through
the kernel when time has advanced and directly when it has not.
-/

namespace Templar.Near

open Checked Vault Curator Number

variable {A : Type}

/-- An error of a called function becomes a panic with a fixed text. -/
def orPanic {ε α : Type} (text : String) (x : Except ε α) : Outcome α :=
  x.mapError (fun _ => .message text)

@[simp] theorem orPanic_eq_ok {ε α : Type} {text : String} {x : Except ε α} {a : α} :
    orPanic text x = .ok a ↔ x = .ok a := mapError_eq_ok

namespace Contract

variable (c : Contract A)

def totalSupply : Nat := c.shares.supply

def kernelStateMirror : VaultState A where
  totalAssets := c.getTotalAssets
  totalShares := c.totalSupply
  idleAssets := c.idleBalance
  externalAssets := c.getTotalAssets - c.idleBalance
  feeAnchor := c.feeAnchor
  opState := c.opState
  withdrawQueue := c.withdrawQueue
  nextOpId := c.nextOpId

/-- The kernel adds one to an offset of zero, so the offsets are passed one lower. -/
def kernelConfigMirror : VaultConfig A where
  -- the rates are zero, so the recipients are never read
  fees := ⟨⟨0, c.fees.performance.recipient⟩, ⟨0, c.fees.management.recipient⟩, none⟩
  minWithdrawalAssets := 0
  withdrawalCooldownNs := c.withdrawalCooldownNs
  maxPendingWithdrawals := maxPending
  paused := c.gate.paused
  virtualShares := c.virtualShares - 1
  virtualAssets := c.virtualAssets - 1

def kernelRestrictionsMirror : Option (Vault.Restrictions A) :=
  c.gate.restrictions.bind Restrictions.toKernelMode

/-- Only growth over a set anchor is limited. -/
def totalAssetsForFeeAccrual (curTotalAssets : Nat) (anchor : FeeAccrualAnchor) (now : Nat) : Nat :=
  match c.fees.maxTotalAssetsGrowthRate with
  | none => curTotalAssets
  | some maxRate =>
    if curTotalAssets ≤ anchor.totalAssets ∨ anchor.totalAssets = 0 ∨ now < anchor.timestampNs then
      curTotalAssets
    else
      let elapsedNs := now - anchor.timestampNs
      if elapsedNs = 0 then anchor.totalAssets
      else
        let annualMaxIncrease := Wad.applyFloored maxRate anchor.totalAssets
        let maxIncrease := asU128Saturating (mulDivFloor annualMaxIncrease elapsedNs yearNs)
        min curTotalAssets (saturatingAdd 128 anchor.totalAssets maxIncrease)

def computeManagementFeeShares (feeAssetsBase curTotalAssets totalSupply
    lastTimestampNs now : Nat) : Nat :=
  if c.fees.management.feeWad = 0 ∨ totalSupply = 0 ∨ now ≤ lastTimestampNs then 0
  else
    let annualFeeAssets := Wad.applyFloored c.fees.management.feeWad feeAssetsBase
    let feeAssets := mulDivFloor annualFeeAssets (now - lastTimestampNs) yearNs
    computeFeeSharesFromAssets feeAssets curTotalAssets totalSupply

/-- The total that fees are charged on at this moment. -/
def feeTotalAssets (now : Nat) : Nat := c.totalAssetsForFeeAccrual c.getTotalAssets c.feeAnchor now

def managementFeeShares (now : Nat) : Nat :=
  c.computeManagementFeeShares (c.feeTotalAssets now) c.getTotalAssets c.totalSupply
    c.feeAnchor.timestampNs now

/-- The performance fee in shares, on a supply that may already include a management fee. -/
def performanceFeeShares (now totalSupply : Nat) : Nat :=
  computeFeeSharesFromAssets
    (Wad.applyFloored c.fees.performance.feeWad (c.feeTotalAssets now - c.feeAnchor.totalAssets))
    c.getTotalAssets totalSupply

/-- The supply and the assets a conversion uses, after the fees that would accrue now. -/
def effectiveTotalsFeeAware (now : Nat) : Nat × Nat :=
  let supplyAfterManagement := saturatingAdd 256 c.totalSupply (c.managementFeeShares now)
  let newTotalSupply := saturatingAdd 256
    (saturatingAdd 256 supplyAfterManagement (c.performanceFeeShares now supplyAfterManagement))
    c.virtualShares
  let newTotalAssets := saturatingAdd 256 c.getTotalAssets c.virtualAssets
  (asU128Trunc newTotalSupply, asU128Trunc newTotalAssets)

def convertToAssets (now shares : Nat) : Nat :=
  if shares = 0 then 0
  else
    let (newTotalSupply, newTotalAssets) := c.effectiveTotalsFeeAware now
    asU128Trunc (mulDivFloor shares newTotalAssets newTotalSupply)

def previewWithdraw (now assets : Nat) : Nat :=
  if assets = 0 then 0
  else
    let (newTotalSupply, newTotalAssets) := c.effectiveTotalsFeeAware now
    asU128Trunc (mulDivCeil assets newTotalSupply newTotalAssets)

variable [DecidableEq A]

/-- A fee that would overflow the supply is logged and not minted. -/
def mintFee (c : Contract A) (recipient : A) (shares : Nat) : Contract A :=
  let minted := asU128Trunc shares
  if 0 < shares ∧ c.totalSupply + minted < 2 ^ 128 then
    { c with shares := c.shares.mint recipient minted }
  else c

def applyKernelRefreshFees (env : Env A) (c : Contract A) (curTotalAssets : Nat) :
    Outcome (Contract A) := do
  let result ← orPanic "Kernel refresh fees failed" (applyAction c.kernelStateMirror
    c.kernelConfigMirror c.kernelRestrictionsMirror env.currentAccountId
    (.refreshFees env.blockTimestamp))
  return { c with feeAnchor := ⟨curTotalAssets, result.state.feeAnchor.timestampNs⟩ }

/-- The performance fee is charged on the supply that the management fee has left. -/
def internalAccrueFee (env : Env A) (c : Contract A) : Outcome (Contract A) :=
  let now := env.blockTimestamp
  let curTotalAssets := c.getTotalAssets
  let charged := c.mintFee c.fees.management.recipient (c.managementFeeShares now)
  let charged := charged.mintFee c.fees.performance.recipient
    (c.performanceFeeShares now charged.totalSupply)
  if c.feeAnchor.timestampNs < now then charged.applyKernelRefreshFees env curTotalAssets
  else .ok { charged with feeAnchor := { c.feeAnchor with totalAssets := curTotalAssets } }

variable {env : Env A} {c c' : Contract A}

theorem mintFee_eq (c : Contract A) (recipient : A) (shares : Nat) :
    ∃ ledger, c.mintFee recipient shares = { c with shares := ledger } := by
  unfold mintFee
  dsimp only
  split
  · exact ⟨_, rfl⟩
  · exact ⟨c.shares, rfl⟩

/-- Through the kernel the anchor moves only in an idle vault. -/
theorem applyKernelRefreshFees_eq_ok {total : Nat} (h : c.applyKernelRefreshFees env total = .ok c') :
    c.opState = .idle ∧ ∃ t, c' = { c with feeAnchor := ⟨total, t⟩ } := by
  simp only [applyKernelRefreshFees, do_ok, orPanic_eq_ok, applyAction, handleRefreshFees] at h
  obtain ⟨r, ⟨hidle, -⟩, rfl⟩ := h
  exact ⟨by simpa [VaultState.isIdle, kernelStateMirror] using hidle, _, rfl⟩

/-- An accrual touches the ledger and the anchor only. The anchor takes the recorded total; its
timestamp moves only in an idle vault. -/
theorem internalAccrueFee_eq_ok (h : c.internalAccrueFee env = .ok c') :
    (c.feeAnchor.timestampNs < env.blockTimestamp → c.opState = .idle) ∧
      ∃ ledger t, c' = { c with shares := ledger, feeAnchor := ⟨c.getTotalAssets, t⟩ } := by
  unfold internalAccrueFee at h
  dsimp only at h
  obtain ⟨l₁, h₁⟩ := c.mintFee_eq c.fees.management.recipient (c.managementFeeShares env.blockTimestamp)
  rw [h₁] at h
  generalize c.performanceFeeShares env.blockTimestamp _ = n at h
  obtain ⟨l₂, h₂⟩ := mintFee_eq { c with shares := l₁ } c.fees.performance.recipient n
  rw [h₂] at h
  split at h
  · obtain ⟨hidle, t, rfl⟩ := applyKernelRefreshFees_eq_ok h
    exact ⟨fun _ => hidle, _, t, rfl⟩
  · rename_i hnow
    cases h
    exact ⟨fun hlt => absurd hlt hnow, _, _, rfl⟩

end Contract

end Templar.Near
