import Templar.SorobanVault.State

/-!
# The custodial adapter of the Soroban vault

The adapter forwards what the vault allocates to a custodian and releases to the vault what has
come back. In between it only reports: the assets it stands for are a number that the custodian,
the vault or the admin sets. A report names the number it replaces and the count of changes that
it follows, so it cannot overwrite a movement that its author has not seen.
-/

namespace Templar.CustodialAdapter

open Checked SorobanVault Function List

inductive AdapterError where
  | unauthorized
  | invalidInput
  | missingConfig
  | arithmeticOverflow
  | arithmeticUnderflow
  | insufficientReturnedLiquidity
  | paused
  deriving DecidableEq, Repr

/-- How a call ends without a result: with an error, or stopped by a failing call to the token. -/
inductive AdapterFault where
  | error (e : AdapterError)
  | trap
  deriving DecidableEq, Repr

abbrev AdapterM (α : Type) := Except AdapterFault α

structure Adapter (A : Type) where
  admin : A
  pendingAdmin : Option A
  vault : A
  custodian : A
  asset : A
  paused : Bool
  reportedAssets : A → Option Int
  reportNonce : A → Option Nat
  reportedAt : A → Option Nat

structure AdapterHost (A σ : Type) where
  self : A
  isContractAddress : A → Bool
  token : A → Token A σ

/-- The adapter and the rest of the ledger. -/
structure AdapterLedger (A σ : Type) where
  adapter : Adapter A
  world : σ

variable {A σ : Type} [DecidableEq A]

def checkedI128 (v : Int) : Option Int := if -2 ^ 127 ≤ v ∧ v < 2 ^ 127 then some v else none

def construct (host : AdapterHost A σ) (admin vault custodian asset : A) :
    AdapterM (Adapter A) := do
  ensure (host.isContractAddress vault = true) (.error .invalidInput)
  ensure (host.isContractAddress asset = true) (.error .invalidInput)
  ensure (admin ≠ host.self ∧ vault ≠ host.self ∧ asset ≠ host.self ∧ asset ≠ admin ∧ asset ≠ vault ∧
    asset ≠ custodian ∧ custodian ≠ vault ∧ custodian ≠ host.self) (.error .invalidInput)
  return ⟨admin, none, vault, custodian, asset, false, fun _ => none, fun _ => none, fun _ => none⟩

def requirePositive (amount : Int) : AdapterM Unit :=
  ensure (0 < amount) (.error .invalidInput)

/-- What is released of a request, and what is still reported afterwards. -/
def withdrawalResult (reported idleBalance requested : Int) : AdapterM (Int × Int) := do
  requirePositive requested
  ensure (0 ≤ reported ∧ 0 ≤ idleBalance) (.error .invalidInput)
  let actual := min (min reported idleBalance) requested
  ensure (0 < actual) (.error .insufficientReturnedLiquidity)
  let nextReported ← okOr (checkedI128 (reported - actual)) (.error .arithmeticUnderflow)
  return (actual, nextReported)

def exactWithdrawalResult (reported idleBalance requested : Int) : AdapterM Int := do
  requirePositive requested
  ensure (0 ≤ reported ∧ 0 ≤ idleBalance) (.error .invalidInput)
  ensure (requested ≤ reported ∧ requested ≤ idleBalance) (.error .insufficientReturnedLiquidity)
  okOr (checkedI128 (reported - requested)) (.error .arithmeticUnderflow)

/-- A transfer that moves anything but the amount fails. -/
def transferExact (token : Token A σ) (sender receiver : A) (amount : Int) (world : σ) :
    AdapterM σ := do
  let senderBefore ← okOr (token.balance sender world) .trap
  let receiverBefore ← okOr (token.balance receiver world) .trap
  let world ← okOr (token.transfer sender receiver amount world) .trap
  let senderAfter ← okOr (token.balance sender world) .trap
  let receiverAfter ← okOr (token.balance receiver world) .trap
  let debited ← okOr (checkedI128 (senderBefore - senderAfter)) (.error .invalidInput)
  let credited ← okOr (checkedI128 (receiverAfter - receiverBefore)) (.error .invalidInput)
  ensure (debited = amount ∧ credited = amount) (.error .invalidInput)
  return world

namespace Adapter

variable (a : Adapter A)

variable (caller : A)

def requireAdmin : AdapterM Unit :=
  ensure (caller = a.admin) (.error .unauthorized)

def requireVault : AdapterM Unit :=
  ensure (caller = a.vault) (.error .unauthorized)

def requireAdminOrVault : AdapterM Unit :=
  ensure (caller = a.admin ∨ caller = a.vault) (.error .unauthorized)

def requireNotPaused : AdapterM Unit := ensure (a.paused = false) (.error .paused)

def requireReportUpdateAuthority : AdapterM Unit :=
  if caller = a.admin then .ok ()
  else do
    a.requireNotPaused
    ensure (caller = a.vault ∨ caller = a.custodian) (.error .unauthorized)

def requireAsset (asset : A) : AdapterM Unit :=
  ensure (asset = a.asset) (.error .invalidInput)

def loadReportedAssets (asset : A) : Int := (a.reportedAssets asset).getD 0

def loadReportNonce (asset : A) : Nat := (a.reportNonce asset).getD 0

def nextReportNonce (asset : A) : AdapterM Nat :=
  okOr (checkedAdd 64 (a.loadReportNonce asset) 1) (.error .arithmeticOverflow)

/-- An amount of zero is not stored. -/
def store (asset : A) (amount : Int) (nonce : Nat) : Adapter A :=
  { a with
    reportedAssets := update a.reportedAssets asset (if amount = 0 then none else some amount)
    reportNonce := update a.reportNonce asset (some nonce) }

def setPaused (paused : Bool) : AdapterM (Adapter A) := do
  a.requireAdminOrVault caller
  return { a with paused }

def setReportedAssets (timestamp : Nat) (caller asset : A) (expectedCurrent amount : Int)
    (reportNonce : Nat) : AdapterM (Adapter A) := do
  a.requireReportUpdateAuthority caller
  a.requireAsset asset
  ensure (0 ≤ expectedCurrent ∧ 0 ≤ amount) (.error .invalidInput)
  ensure (a.loadReportedAssets asset = expectedCurrent) (.error .invalidInput)
  let nextReportNonce ← a.nextReportNonce asset
  ensure (reportNonce = nextReportNonce) (.error .invalidInput)
  return { a.store asset amount reportNonce with
    reportedAt := update a.reportedAt asset (some timestamp) }

def setAdmin (admin : A) : AdapterM (Adapter A) := do
  a.requireAdmin caller
  return { a with pendingAdmin := some admin }

def acceptAdmin : AdapterM (Adapter A) := do
  let pendingAdmin ← okOr a.pendingAdmin (.error .missingConfig)
  ensure (caller = pendingAdmin) (.error .unauthorized)
  return { a with admin := caller, pendingAdmin := none }

end Adapter

namespace AdapterLedger

variable (host : AdapterHost A σ) (l : AdapterLedger A σ)

def supply (caller asset : A) (amount : Int) : AdapterM (AdapterLedger A σ) := do
  l.adapter.requireNotPaused
  l.adapter.requireVault caller
  requirePositive amount
  l.adapter.requireAsset asset
  let nonce ← l.adapter.nextReportNonce asset
  let next ← okOr (checkedI128 (l.adapter.loadReportedAssets asset + amount))
    (.error .arithmeticOverflow)
  let world ← transferExact (host.token asset) host.self l.adapter.custodian amount l.world
  return ⟨l.adapter.store asset next nonce, world⟩

/-- The two ways to withdraw differ in what they make of a request that cannot be met. -/
def release (settle : Int → Int → AdapterM (Int × Int)) (caller asset : A) (amount : Int) :
    AdapterM (Int × AdapterLedger A σ) := do
  l.adapter.requireVault caller
  requirePositive amount
  l.adapter.requireAsset asset
  let nonce ← l.adapter.nextReportNonce asset
  let idleBalance ← okOr ((host.token asset).balance host.self l.world) .trap
  let (actual, next) ← settle (l.adapter.loadReportedAssets asset) idleBalance
  let world ← transferExact (host.token asset) host.self l.adapter.vault actual l.world
  return (actual, ⟨l.adapter.store asset next nonce, world⟩)

def withdraw (caller asset : A) (amount : Int) : AdapterM (Int × AdapterLedger A σ) :=
  l.release host (fun reported idle =>
    (amount, ·) <$> exactWithdrawalResult reported idle amount) caller asset amount

def progressWithdrawal (caller asset : A) (amount : Int) : AdapterM (Int × AdapterLedger A σ) :=
  l.release host (fun reported idle => withdrawalResult reported idle amount) caller asset amount

end AdapterLedger

inductive Step (A σ : Type) where
  | supply (caller asset : A) (amount : Int)
  | withdraw (caller asset : A) (amount : Int)
  | progressWithdrawal (caller asset : A) (amount : Int)
  | setReportedAssets (timestamp : Nat) (caller asset : A) (expectedCurrent amount : Int)
      (reportNonce : Nat)
  | setPaused (caller : A) (paused : Bool)
  | setAdmin (caller admin : A)
  | acceptAdmin (caller : A)
  | world (world : σ)

/-- The amount that a step asks the adapter to release. -/
def Step.requests : Step A σ → Option Int
  | .withdraw _ _ amount | .progressWithdrawal _ _ amount => some amount
  | _ => none

/-- What changes the reported assets. -/
inductive Change where
  | supplied (amount : Int)
  | released (amount : Int)
  | reported (expectedCurrent amount : Int)
  deriving DecidableEq, Repr

def Change.effect : Change → Int
  | supplied amount => amount
  | released amount => -amount
  | reported expectedCurrent amount => amount - expectedCurrent

namespace AdapterLedger

/-- What a call has changed, and the ledger after it. -/
def execute (host : AdapterHost A σ) (l : AdapterLedger A σ) :
    Step A σ → AdapterM (Option Change × AdapterLedger A σ)
  | .supply caller asset amount => (some (.supplied amount), ·) <$> l.supply host caller asset amount
  | .withdraw caller asset amount =>
    (fun r => (some (.released r.1), r.2)) <$> l.withdraw host caller asset amount
  | .progressWithdrawal caller asset amount =>
    (fun r => (some (.released r.1), r.2)) <$> l.progressWithdrawal host caller asset amount
  | .setReportedAssets timestamp caller asset expectedCurrent amount reportNonce =>
    (fun adapter => (some (.reported expectedCurrent amount), { l with adapter })) <$>
      l.adapter.setReportedAssets timestamp caller asset expectedCurrent amount reportNonce
  | .setPaused caller paused =>
    (fun adapter => (none, { l with adapter })) <$> l.adapter.setPaused caller paused
  | .setAdmin caller admin =>
    (fun adapter => (none, { l with adapter })) <$> l.adapter.setAdmin caller admin
  | .acceptAdmin caller => (fun adapter => (none, { l with adapter })) <$> l.adapter.acceptAdmin caller
  | .world world => .ok (none, { l with world })

/-- A call that fails is rolled back. -/
def step (host : AdapterHost A σ) (l : AdapterLedger A σ) (s : Step A σ) :
    Option Change × AdapterLedger A σ := (l.execute host s).toOption.getD (none, l)

variable (l : AdapterLedger A σ)

/-- What the adapter reports. -/
def reported : Int := l.adapter.loadReportedAssets l.adapter.asset

def nonce : Nat := l.adapter.loadReportNonce l.adapter.asset

end AdapterLedger

/-- Runs with the changes they have made. -/
inductive Runs (host : AdapterHost A σ) (l₀ : AdapterLedger A σ) :
    List Change → AdapterLedger A σ → Prop
  | refl : Runs host l₀ [] l₀
  | tail {log} {l : AdapterLedger A σ} (run : Runs host l₀ log l) (s : Step A σ) :
      Runs host l₀ (log ++ (l.step host s).1.toList) (l.step host s).2

/-- What a step may change in a ledger: it has moved the tokens, or it names what it replaces. -/
def Allowed (host : AdapterHost A σ) (l : AdapterLedger A σ) (s : Step A σ)
    (l' : AdapterLedger A σ) : Change → Prop
  | .supplied amount => 0 < amount ∧ l.adapter.paused = false ∧
      transferExact (host.token l.adapter.asset) host.self l.adapter.custodian amount l.world = .ok l'.world
  | .released amount => amount ≤ l.reported ∧ (∃ request, s.requests = some request ∧ amount ≤ request) ∧
      (∃ balance, (host.token l.adapter.asset).balance host.self l.world = some balance ∧
        amount ≤ balance) ∧
      transferExact (host.token l.adapter.asset) host.self l.adapter.vault amount l.world = .ok l'.world
  | .reported expectedCurrent amount => 0 ≤ amount ∧ expectedCurrent = l.reported ∧
      ∃ timestamp caller, s = .setReportedAssets timestamp caller l.adapter.asset expectedCurrent amount
        (l.nonce + 1) ∧ (l.adapter.paused = true → caller = l.adapter.admin)

/-- A step leaves the report alone, or makes one change that it may make and counts it. -/
inductive Effected (host : AdapterHost A σ) (l : AdapterLedger A σ) (s : Step A σ) :
    Option Change × AdapterLedger A σ → Prop
  | unchanged {l' : AdapterLedger A σ} (asset : l'.adapter.asset = l.adapter.asset)
      (reported : l'.reported = l.reported) (nonce : l'.nonce = l.nonce) : Effected host l s (none, l')
  | changed {c : Change} {l' : AdapterLedger A σ} (allowed : Allowed host l s l' c)
      (asset : l'.adapter.asset = l.adapter.asset) (reported : l'.reported = l.reported + c.effect)
      (nonce : l'.nonce = l.nonce + 1) : Effected host l s (some c, l')

section

variable {host : AdapterHost A σ} {l₀ l l' : AdapterLedger A σ} {s : Step A σ}
  {caller asset admin vault custodian : A} {amount idle actual next expectedCurrent reported : Int}
  {c : Change} {log : List Change} {a : Adapter A} {world : σ} {timestamp reportNonce : Nat}

/-- To store the effect of a change is to make it. -/
theorem Effected.of_store {reportedAt : A → Option Nat} (allowed : Allowed host l s l' c)
    (hamount : amount = l.reported + c.effect)
    (h : l'.adapter = { l.adapter.store l.adapter.asset amount (l.nonce + 1) with reportedAt }) :
    Effected host l s (some c, l') := by
  obtain ⟨a, world⟩ := l'
  subst h hamount
  have hstored (v : Int) : (if v = 0 then none else some v).getD 0 = v := by
    split
    · next hzero => exact hzero.symm
    · rfl
  refine .changed allowed rfl ?_ ?_
  · simp only [AdapterLedger.reported, Adapter.loadReportedAssets, Adapter.store, update_self]
    exact hstored _
  · simp only [AdapterLedger.nonce, Adapter.loadReportNonce, Adapter.store, update_self, Option.getD_some]

theorem checkedI128_eq_some {v w : Int} (h : checkedI128 v = some w) : w = v := by
  unfold checkedI128 at h
  split at h
  · exact (Option.some.inj h).symm
  · cases h

theorem withdrawalResult_eq_ok
    (h : withdrawalResult reported idle amount = .ok (actual, next)) :
    actual ≤ reported ∧ actual ≤ idle ∧ actual ≤ amount ∧ next = reported - actual := by
  simp only [withdrawalResult, do_ok] at h
  obtain ⟨-, -, -, _, hnext, rfl, rfl⟩ := h
  have hsub := checkedI128_eq_some hnext
  omega

theorem exactWithdrawalResult_eq_ok
    (h : (amount, ·) <$> exactWithdrawalResult reported idle amount = .ok (actual, next)) :
    actual ≤ reported ∧ actual ≤ idle ∧ actual ≤ amount ∧ next = reported - actual := by
  simp only [map_eq_ok, exactWithdrawalResult, do_ok] at h
  obtain ⟨_, ⟨-, -, ⟨hreported, hidle⟩, hnext⟩, rfl, rfl⟩ := h
  exact ⟨hreported, hidle, Int.le_refl _, checkedI128_eq_some hnext⟩

/-- What is released fits what is reported, what is there and what is asked for. -/
theorem AdapterLedger.release_effected {settle : Int → Int → AdapterM (Int × Int)}
    {r : Int × AdapterLedger A σ} (hs : s.requests = some amount)
    (hsettle : ∀ {reported idle actual next}, settle reported idle = .ok (actual, next) →
      actual ≤ reported ∧ actual ≤ idle ∧ actual ≤ amount ∧ next = reported - actual)
    (h : l.release host settle caller asset amount = .ok r) :
    Effected host l s (some (.released r.1), r.2) := by
  simp only [release, Adapter.requireAsset, Adapter.nextReportNonce, do_ok] at h
  obtain ⟨-, -, rfl, _, ⟨-, rfl⟩, idle, hidle, ⟨actual, next⟩, hresult, world, hmoved, rfl⟩ := h
  obtain ⟨hreported, hidle', hrequest, rfl⟩ := hsettle hresult
  exact .of_store ⟨hreported, ⟨amount, hs, hrequest⟩, ⟨idle, hidle, hidle'⟩, hmoved⟩
    (Int.sub_eq_add_neg) rfl

theorem AdapterLedger.setReportedAssets_effected
    (h : l.adapter.setReportedAssets timestamp caller asset expectedCurrent amount reportNonce = .ok a) :
    Effected host l (.setReportedAssets timestamp caller asset expectedCurrent amount reportNonce)
      (some (.reported expectedCurrent amount), { l with adapter := a }) := by
  simp only [Adapter.setReportedAssets, Adapter.requireAsset, Adapter.nextReportNonce, do_ok] at h
  obtain ⟨hauthority, rfl, ⟨-, hpositive⟩, rfl, _, ⟨-, rfl⟩, rfl, rfl⟩ := h
  have heffect : amount = l.reported + (Change.reported l.reported amount).effect := by
    simp only [Change.effect]
    omega
  refine .of_store ⟨hpositive, rfl, timestamp, caller, rfl, fun hpaused => ?_⟩ heffect rfl
  unfold Adapter.requireReportUpdateAuthority Adapter.requireNotPaused at hauthority
  split at hauthority
  · next hadmin => exact hadmin
  · -- While the adapter is paused only the admin is heard.
    simp only [do_ok, hpaused] at hauthority
    cases hauthority.1

/-- A call that goes through does one of these. -/
theorem AdapterLedger.execute_effected {r : Option Change × AdapterLedger A σ}
    (h : l.execute host s = .ok r) : Effected host l s r := by
  cases s <;> simp only [execute, map_eq_ok] at h
  case supply =>
    obtain ⟨l', h, rfl⟩ := h
    simp only [supply, Adapter.requireNotPaused, requirePositive, Adapter.requireAsset,
      Adapter.nextReportNonce, do_ok] at h
    obtain ⟨hrunning, -, hpositive, rfl, _, ⟨-, rfl⟩, next, hnext, world, hmoved, rfl⟩ := h
    exact .of_store ⟨hpositive, hrunning, hmoved⟩ (checkedI128_eq_some hnext) rfl
  case withdraw =>
    obtain ⟨released, h, rfl⟩ := h
    exact release_effected rfl exactWithdrawalResult_eq_ok h
  case progressWithdrawal =>
    obtain ⟨released, h, rfl⟩ := h
    exact release_effected rfl withdrawalResult_eq_ok h
  case setReportedAssets =>
    obtain ⟨a, h, rfl⟩ := h
    exact setReportedAssets_effected h
  case world =>
    cases h
    exact .unchanged rfl rfl rfl
  case setPaused | setAdmin =>
    obtain ⟨a, h, rfl⟩ := h
    simp only [Adapter.setPaused, Adapter.setAdmin, do_ok] at h
    obtain ⟨-, rfl⟩ := h
    exact .unchanged rfl rfl rfl
  case acceptAdmin =>
    obtain ⟨a, h, rfl⟩ := h
    simp only [Adapter.acceptAdmin, do_ok] at h
    obtain ⟨_, -, -, rfl⟩ := h
    exact .unchanged rfl rfl rfl

theorem AdapterLedger.step_effected : Effected host l s (l.step host s) := by
  unfold step
  cases h : l.execute host s with
  | error e => exact .unchanged rfl rfl rfl
  | ok r => exact execute_effected h

/-- A report that is accepted follows the nonce that it finds. -/
theorem AdapterLedger.nonce_of_accepted
    (h : (l.step host (.setReportedAssets timestamp caller asset expectedCurrent amount reportNonce)).1 ≠
      none) : reportNonce = l.nonce + 1 := by
  unfold step at h
  cases hexecute : l.execute host
      (.setReportedAssets timestamp caller asset expectedCurrent amount reportNonce) with
  | error e =>
    rw [hexecute] at h
    exact absurd rfl h
  | ok r =>
    obtain ⟨a, ha, -⟩ := map_eq_ok.mp hexecute
    simp only [Adapter.setReportedAssets, Adapter.nextReportNonce, Adapter.requireAsset, do_ok] at ha
    obtain ⟨-, rfl, -, -, _, ⟨-, rfl⟩, rfl, -⟩ := ha
    rfl

/-- Along a run the report moves by the effects of the changes and the nonce counts them. -/
theorem Runs.accounted (run : Runs host l₀ log l) (hl : 0 ≤ l₀.reported) :
    l.adapter.asset = l₀.adapter.asset ∧ l.reported = l₀.reported + (log.map Change.effect).sum ∧
      0 ≤ l.reported ∧ l.nonce = l₀.nonce + log.length := by
  induction run with
  | refl => exact ⟨rfl, by simp, hl, rfl⟩
  | @tail log l run s ih =>
    obtain ⟨hasset, hreported, hpositive, hnonce⟩ := ih
    generalize hr : l.step host s = r
    have heffected : Effected host l s r := hr ▸ AdapterLedger.step_effected
    cases heffected with
    | unchanged asset reported nonce =>
      refine ⟨asset.trans hasset, ?_, reported ▸ hpositive, ?_⟩
      · simpa using reported.trans hreported
      · simpa using nonce.trans hnonce
    | @changed c l' allowed asset reported nonce =>
      refine ⟨asset.trans hasset, ?_, ?_, ?_⟩
      · simp only [Option.toList_some, map_append, sum_append, map_cons, map_nil, sum_singleton]
        omega
      · show 0 ≤ l'.reported
        cases c <;> simp only [Allowed, Change.effect] at allowed reported <;> omega
      · simp only [Option.toList_some, length_append, length_singleton]
        omega

/-- In every run the report is the sum of what was supplied, released and corrected, the nonce counts
these changes, each of them is allowed where it is made, and a report prepared from what the ledger
showed at some time is accepted later only if nothing has changed since. -/
theorem reports_miss_no_movement
    (hnew : construct host admin vault custodian asset = .ok a) (run : Runs host ⟨a, world⟩ log l) :
    l.reported = (log.map Change.effect).sum ∧ 0 ≤ l.reported ∧ l.nonce = log.length ∧
      (∀ s c, (l.step host s).1 = some c → Allowed host l s (l.step host s).2 c) ∧
      ∀ {since l'}, Runs host l since l' → ∀ timestamp caller amount,
        (l'.step host (.setReportedAssets timestamp caller l.adapter.asset l.reported amount
          (l.nonce + 1))).1 ≠ none → since = [] := by
  simp only [construct, do_ok] at hnew
  obtain ⟨-, -, -, rfl⟩ := hnew
  obtain ⟨-, hreported, hpositive, hnonce⟩ := run.accounted (Int.le_refl 0)
  refine ⟨hreported.trans (Int.zero_add _), hpositive, hnonce.trans (Nat.zero_add _), ?_, ?_⟩
  · intro s c hc
    generalize hr : l.step host s = r at hc ⊢
    have heffected : Effected host l s r := hr ▸ AdapterLedger.step_effected
    cases heffected with
    | unchanged => cases hc
    | changed allowed =>
      cases hc
      exact allowed
  · intro since l' run' timestamp caller amount haccepted
    obtain ⟨-, -, -, hsince⟩ := run'.accounted hpositive
    have hnext := AdapterLedger.nonce_of_accepted haccepted
    have hlength : since.length = 0 := by omega
    exact length_eq_zero_iff.mp hlength

end

/-- An adapter at address 0 and a token with a balance for each address. -/
def plainHost : AdapterHost Nat (Nat → Int) where
  self := 0
  isContractAddress _ := true
  token _ :=
    { mint := fun _ _ _ => none
      burn := fun _ _ _ => none
      burnFrom := fun _ _ _ _ => none
      transfer := fun sender receiver amount balances => some fun address =>
        balances address + (if address = receiver then amount else 0) -
          (if address = sender then amount else 0)
      balance := fun address balances => some (balances address) }

def plainLedger : AdapterLedger Nat (Nat → Int) :=
  ⟨⟨1, none, 2, 3, 4, false, fun _ => none, fun _ => none, fun _ => none⟩, fun _ => 9⟩

/-- A report prepared after a supply is good then, and is refused once something was released. -/
theorem reports_miss_no_movement_released :
    construct plainHost 1 2 3 4 = .ok plainLedger.adapter ∧ ∃ l l',
      Runs plainHost plainLedger [.supplied 5] l ∧ Runs plainHost l [.released 2] l' ∧
        l'.reported = 3 ∧
        (l.step plainHost (.setReportedAssets 0 3 4 5 6 2)).1 = some (.reported 5 6) ∧
        (l'.step plainHost (.setReportedAssets 0 3 4 5 6 2)).1 = none := by
  have hnew : construct plainHost 1 2 3 4 = .ok plainLedger.adapter := rfl
  have run := (@Runs.refl _ _ _ plainHost plainLedger).tail (.supply 2 4 5)
  have run' := (@Runs.refl _ _ _ plainHost (plainLedger.step plainHost (.supply 2 4 5)).2).tail
    (.progressWithdrawal 2 4 2)
  obtain ⟨-, -, -, -, hstale⟩ := reports_miss_no_movement hnew run
  refine ⟨hnew, _, _, run, run', by decide, by decide, ?_⟩
  by_contra haccepted
  cases hstale run' 0 3 6 haccepted

end Templar.CustodialAdapter
