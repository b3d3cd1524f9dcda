import Templar.Lib.Checked
import Templar.Lib.Table

/-!
# The deployment registry

The owner registers versions of contract code and deploys them to accounts of the registry. Code
that is published on the chain and every deployment are confirmed by a callback that is told how
the promise went. Until then a version is listed as if it were confirmed and an account is
reserved.

A run is any interleaving of calls and callbacks. If no deployment names a version that is still
unconfirmed, the registry tells the truth about every account and every version.
-/

namespace Templar.Registry

open Checked List AList

inductive VersionEntry (Hash : Type) where
  | code (hash : Hash) (code : Option (List UInt8))
  | globalHash (hash : Hash)
  deriving DecidableEq

def VersionEntry.codeHash {Hash : Type} : VersionEntry Hash → Hash
  | .code hash _ | .globalHash hash => hash

inductive VersionSource (Hash : Type) where
  | stored (code : List UInt8)
  | publishGlobal (code : List UInt8)
  | existingGlobal (hash : Hash)

structure Deployment (Hash : Type) where
  versionKey : String
  codeHash : Hash
  blockHeight : Nat
  deriving DecidableEq

inductive RegistryEntry (Hash : Type) where
  | reserved
  | deployed (deployment : Deployment Hash)
  deriving DecidableEq

structure Contract (A Hash : Type) where
  owner : Option A
  versions : Table String (VersionEntry Hash)
  registry : Table A (RegistryEntry Hash)

/-- What the chain knows: the account that a name makes with the registry's own, if it is a valid
one, whether that is a direct sub-account, the hash of code and the price of a stored byte. -/
structure Host (A Hash : Type) where
  accountOf : String → Option A
  isSubAccount : A → Bool
  sha256 : List UInt8 → Hash
  storageByteCost : Nat

structure Context (A : Type) where
  predecessor : A
  attachedDeposit : Nat
  blockHeight : Nat

/-- How a promise went, with the length of what it returned. -/
inductive PromiseResult where
  | failed
  | successful (length : Nat)
  deriving DecidableEq, Repr

def PromiseResult.succeeded : PromiseResult → Bool
  | failed => false
  | successful _ => true

/-- A result that is too long counts as an error. -/
def PromiseResult.isOk (maxLength : Nat) : PromiseResult → Bool
  | failed => false
  | successful length => decide (length ≤ maxLength)

variable {A Hash : Type} [DecidableEq A]

def Contract.new (predecessor : A) : Contract A Hash := ⟨some predecessor, ∅, ∅⟩

namespace Contract

variable (host : Host A Hash) (c : Contract A Hash) (ctx : Context A)

def assertOwner : Outcome Unit := do
  let owner ← expect "No owner" c.owner
  require (ctx.predecessor = owner) "Owner only"

def assertOneYocto : Outcome Unit :=
  require (ctx.attachedDeposit = 1) "Requires attached deposit of exactly 1 yoctoNEAR"

/-- Registers a version, and says whether a promise has been made that will confirm it. -/
def addVersion (versionKey : String) (source : VersionSource Hash) :
    Outcome (Contract A Hash × Bool) := do
  c.assertOwner ctx
  require (c.versions.lookup versionKey = none) "Version key already exists"
  match source with
  | .stored code => do
    assertOneYocto ctx
    return ({ c with versions := c.versions.insert versionKey (.code (host.sha256 code) (some code)) },
      false)
  | .publishGlobal code => do
    require (ctx.attachedDeposit ≠ 0) "Deposit required to pay for global contract deployment"
    return ({ c with versions := c.versions.insert versionKey (.globalHash (host.sha256 code)) }, true)
  | .existingGlobal hash => do
    assertOneYocto ctx
    return ({ c with versions := c.versions.insert versionKey (.globalHash hash) }, true)

def addVersion01Finalize (versionKey : String) (result : PromiseResult) : Contract A Hash :=
  if result.isOk 0x1000 then c else { c with versions := c.versions.erase versionKey }

def removeVersion (versionKey : String) : Outcome (Contract A Hash) := do
  assertOneYocto ctx
  c.assertOwner ctx
  match c.versions.lookup versionKey with
  | none | some (.code _ none) => .ok c
  | some (.code hash (some _)) =>
    return { c with versions := c.versions.insert versionKey (.code hash none) }
  | some (.globalHash _) => .error (.message "Global contract cannot be removed")

/-- The deposit pays for the storage of code that is not on the chain. -/
def requireStorage : VersionEntry Hash → Outcome Unit
  | .code _ code => do
    let code ← expect "Version code has been deleted" code
    let minimumDeposit := min (host.storageByteCost * code.length) (2 ^ 128 - 1)
    require (minimumDeposit ≤ ctx.attachedDeposit)
      s!"Insufficient deposit to pay for storage (minimum: {minimumDeposit})"
  | .globalHash _ => .ok ()

/-- Reserves an account, and makes a promise to deploy to it. -/
def deploy (name versionKey : String) : Outcome (Contract A Hash × A × Deployment Hash) := do
  require (name ≠ "") "Name must not be empty"
  c.assertOwner ctx
  let version ← expect "Version key does not exist" (c.versions.lookup versionKey)
  let accountId ← expect "Deployment name is not a valid account ID" (host.accountOf name)
  require (host.isSubAccount accountId = true) "Deployment account cannot be created"
  require (c.registry.lookup accountId = none) "Market ID collision"
  requireStorage host ctx version
  return ({ c with registry := c.registry.insert accountId .reserved }, accountId,
    ⟨versionKey, version.codeHash, ctx.blockHeight⟩)

def deploy01Finalize (accountId : A) (deployment : Deployment Hash) (result : PromiseResult) :
    Contract A Hash :=
  if result.isOk 0x1000 then
    { c with registry := c.registry.insert accountId (.deployed deployment) }
  else { c with registry := c.registry.erase accountId }

end Contract

/-- The contract with the promises whose callbacks are still to come. `settled` and `confirmed`
keep what has come of them: every deployment with how its promise went, and every version that
has been confirmed, with its hash. -/
structure System (A Hash : Type) where
  contract : Contract A Hash
  adding : List String
  deploying : List (A × Deployment Hash)
  settled : List (A × Deployment Hash × Bool)
  confirmed : List (String × Hash)

def System.new (predecessor : A) : System A Hash := ⟨.new predecessor, [], [], [], []⟩

inductive Step (A Hash : Type) where
  | addVersion (ctx : Context A) (versionKey : String) (source : VersionSource Hash)
  | removeVersion (ctx : Context A) (versionKey : String)
  | deploy (ctx : Context A) (name versionKey : String)
  | resolveAdd (versionKey : String) (result : PromiseResult)
  | resolveDeploy (accountId : A) (deployment : Deployment Hash) (result : PromiseResult)

/-- The versions that a key is confirmed as when it is listed now. -/
def Contract.listed (c : Contract A Hash) (versionKey : String) : List (String × Hash) :=
  ((c.versions.lookup versionKey).map fun entry => (versionKey, entry.codeHash)).toList

variable [DecidableEq Hash]

/-- A call that fails changes nothing, and a callback comes once. -/
def System.step (host : Host A Hash) (s : System A Hash) : Step A Hash → System A Hash
  | .addVersion ctx versionKey source =>
    match s.contract.addVersion host ctx versionKey source with
    | .ok (contract, true) => { s with contract, adding := versionKey :: s.adding }
    | .ok (contract, false) =>
      { s with contract, confirmed := contract.listed versionKey ++ s.confirmed }
    | .error _ => s
  | .removeVersion ctx versionKey =>
    match s.contract.removeVersion ctx versionKey with
    | .ok contract => { s with contract }
    | .error _ => s
  | .deploy ctx name versionKey =>
    match s.contract.deploy host ctx name versionKey with
    | .ok (contract, accountId, deployment) =>
      { s with contract, deploying := (accountId, deployment) :: s.deploying }
    | .error _ => s
  | .resolveAdd versionKey result =>
    if versionKey ∈ s.adding then
      { s with
        contract := s.contract.addVersion01Finalize versionKey result
        adding := s.adding.erase versionKey
        confirmed := (if result.isOk 0x1000 then s.contract.listed versionKey else []) ++ s.confirmed }
    else s
  | .resolveDeploy accountId deployment result =>
    if (accountId, deployment) ∈ s.deploying then
      { s with
        contract := s.contract.deploy01Finalize accountId deployment result
        deploying := s.deploying.erase (accountId, deployment)
        settled := (accountId, deployment, result.succeeded) :: s.settled }
    else s

/-- A deployment names a version that is not waiting to be confirmed, and what it returns is not
too long to be read. -/
def Orderly (s : System A Hash) : Step A Hash → Prop
  | .deploy _ _ versionKey => versionKey ∉ s.adding
  | .resolveDeploy _ _ (.successful length) => length ≤ 0x1000
  | _ => True

inductive Runs (host : Host A Hash) (s₀ : System A Hash) : System A Hash → Prop
  | refl : Runs host s₀ s₀
  | tail {s : System A Hash} {step} (run : Runs host s₀ s) (orderly : Orderly s step) :
      Runs host s₀ (s.step host step)

/-- The registry against the promises to deploy and what has come of them. -/
structure Accounted (registry : Table A (RegistryEntry Hash))
    (deploying : List (A × Deployment Hash))
    (settled : List (A × Deployment Hash × Bool)) : Prop where
  deployed : ∀ a d, registry.lookup a = some (.deployed d) ↔ (a, d, true) ∈ settled
  reserved : ∀ a, registry.lookup a = some .reserved ↔ ∃ d, (a, d) ∈ deploying
  once : (deploying.map Prod.fst ++ (settled.filter fun e => e.2.2).map Prod.fst).Nodup

section

variable {registry : Table A (RegistryEntry Hash)} {deploying : List (A × Deployment Hash)}
  {settled : List (A × Deployment Hash × Bool)} {a : A} {d : Deployment Hash}

omit [DecidableEq Hash] in
theorem Accounted.reserve (h : Accounted registry deploying settled) (hfree : registry.lookup a = none) :
    Accounted (registry.insert a .reserved) ((a, d) :: deploying) settled := by
  have hnew : ∀ d', (a, d') ∉ deploying := fun d' hmem => by
    cases hfree.symm.trans ((h.reserved a).mpr ⟨d', hmem⟩)
  have hnever : ∀ d', (a, d', true) ∉ settled := fun d' hmem => by
    cases hfree.symm.trans ((h.deployed a d').mpr hmem)
  refine ⟨?_, ?_, ?_⟩
  · intro b d'
    by_cases hb : b = a
    · subst hb
      simpa using hnever d'
    · rw [lookup_insert_ne hb, h.deployed]
  · intro b
    by_cases hb : b = a
    · subst hb
      simp
    · rw [lookup_insert_ne hb, h.reserved]
      simp [hb]
  · rw [map_cons, cons_append, nodup_cons]
    refine ⟨?_, h.once⟩
    simpa using ⟨hnew, hnever⟩

/-- The callback of a deployment finds the account reserved for it alone. -/
theorem Accounted.settle (h : Accounted registry deploying settled) (hmem : (a, d) ∈ deploying) (ok : Bool) :
    Accounted (if ok then registry.insert a (.deployed d) else registry.erase a)
      (deploying.erase (a, d)) ((a, d, ok) :: settled) := by
  have hreserved : registry.lookup a = some .reserved := (h.reserved a).mpr ⟨d, hmem⟩
  have hnever : ∀ d', (a, d', true) ∉ settled := fun d' hold => by
    cases hreserved.symm.trans ((h.deployed a d').mpr hold)
  have hdistinct : (deploying.map Prod.fst).Nodup := (nodup_append.mp h.once).1
  have hnodup : deploying.Nodup := hdistinct.of_map
  have hothers : ∀ b d', (b, d') ∈ deploying.erase (a, d) ↔ b ≠ a ∧ (b, d') ∈ deploying := by
    intro b d'
    rw [hnodup.mem_erase_iff]
    constructor
    · rintro ⟨hne, hb⟩
      refine ⟨fun hba => hne ?_, hb⟩
      exact inj_on_of_nodup_map hdistinct hb hmem hba
    · rintro ⟨hne, hb⟩
      exact ⟨fun heq => hne (congrArg Prod.fst heq), hb⟩
  have hlookup : ∀ b, b ≠ a →
      (if ok then registry.insert a (.deployed d) else registry.erase a).lookup b = registry.lookup b := by
    intro b hb
    cases ok
    · exact lookup_erase_ne hb
    · exact lookup_insert_ne hb
  have hperm := (perm_cons_erase hmem).map Prod.fst
  refine ⟨?_, ?_, ?_⟩
  · intro b d'
    by_cases hb : b = a
    · subst hb
      cases ok <;> simp [hnever, eq_comm]
    · rw [hlookup b hb, h.deployed]
      simp [hb]
  · intro b
    simp only [hothers]
    by_cases hb : b = a
    · subst hb
      cases ok <;> simp
    · rw [hlookup b hb, h.reserved]
      simp [hb]
  · have hall := (hperm.append_right ((settled.filter fun e => e.2.2).map Prod.fst)).nodup_iff.mp h.once
    cases ok
    · exact (nodup_cons.mp hall).2
    · exact perm_middle.nodup_iff.mpr hall

end

/-- The versions against those that are to be confirmed and those that have been. -/
structure Versioned (versions : Table String (VersionEntry Hash)) (adding : List String)
    (confirmed : List (String × Hash)) : Prop where
  nodup : adding.Nodup
  waiting : ∀ key ∈ adding, versions.lookup key ≠ none
  kept : ∀ key hash, (key, hash) ∈ confirmed →
    (versions.lookup key).map VersionEntry.codeHash = some hash ∧ key ∉ adding
  listed : ∀ key hash, (versions.lookup key).map VersionEntry.codeHash = some hash →
    key ∈ adding ∨ (key, hash) ∈ confirmed

section

omit [DecidableEq A] [DecidableEq Hash]

variable {versions versions' : Table String (VersionEntry Hash)} {adding : List String}
  {confirmed : List (String × Hash)} {key : String} {entry : VersionEntry Hash} {hash : Hash}

section

variable (h : Versioned versions adding confirmed)
include h

theorem Versioned.congr (hsame : ∀ key, (versions'.lookup key).map VersionEntry.codeHash =
      (versions.lookup key).map VersionEntry.codeHash) : Versioned versions' adding confirmed := by
  refine ⟨h.nodup, ?_, ?_, ?_⟩
  · intro key hkey hnone
    have hold := hsame key
    rw [hnone, Option.map_none, eq_comm, Option.map_eq_none_iff] at hold
    exact h.waiting key hkey hold
  · intro key hash hmem
    rw [hsame]
    exact h.kept key hash hmem
  · intro key hash
    rw [hsame]
    exact h.listed key hash

/-- A version is added under a free key and waits. -/
theorem Versioned.add (hfree : versions.lookup key = none) (entry : VersionEntry Hash) :
    Versioned (versions.insert key entry) (key :: adding) confirmed := by
  have hnew : key ∉ adding := fun hmem => h.waiting key hmem hfree
  refine ⟨nodup_cons.mpr ⟨hnew, h.nodup⟩, ?_, ?_, ?_⟩
  · intro k hmem
    by_cases hk : k = key
    · simp [hk]
    · rw [lookup_insert_ne hk]
      exact h.waiting k ((mem_cons.mp hmem).resolve_left hk)
  · intro k hash hmem
    obtain ⟨hlookup, hout⟩ := h.kept k hash hmem
    have hk : k ≠ key := by
      rintro rfl
      rw [hfree] at hlookup
      cases hlookup
    rw [lookup_insert_ne hk]
    exact ⟨hlookup, by simp [hk, hout]⟩
  · intro k hash hlookup
    by_cases hk : k = key
    · simp [hk]
    · rw [lookup_insert_ne hk] at hlookup
      exact (h.listed k hash hlookup).imp_left (mem_cons_of_mem _)

theorem Versioned.confirm (hmem : key ∈ adding)
    (hentry : versions.lookup key = some entry) :
    Versioned versions (adding.erase key) ((key, entry.codeHash) :: confirmed) := by
  have hothers : ∀ k, k ∈ adding.erase key ↔ k ≠ key ∧ k ∈ adding := fun k => h.nodup.mem_erase_iff
  refine ⟨h.nodup.erase key, fun k hk => h.waiting k ((hothers k).mp hk).2, ?_, ?_⟩
  · intro k hash hk
    rcases mem_cons.mp hk with heq | hk
    · cases heq
      simp [hentry, hothers]
    · obtain ⟨hlookup, hout⟩ := h.kept k hash hk
      exact ⟨hlookup, fun hin => hout ((hothers k).mp hin).2⟩
  · intro k hash hlookup
    by_cases hk : k = key
    · subst hk
      rw [hentry] at hlookup
      cases hlookup
      simp
    · rcases h.listed k hash hlookup with hin | hin
      · exact .inl ((hothers k).mpr ⟨hk, hin⟩)
      · exact .inr (mem_cons_of_mem _ hin)

theorem Versioned.drop (hmem : key ∈ adding) :
    Versioned (versions.erase key) (adding.erase key) confirmed := by
  have hothers : ∀ k, k ∈ adding.erase key ↔ k ≠ key ∧ k ∈ adding := fun k => h.nodup.mem_erase_iff
  refine ⟨h.nodup.erase key, ?_, ?_, ?_⟩
  · intro k hk
    obtain ⟨hne, hk⟩ := (hothers k).mp hk
    rw [lookup_erase_ne hne]
    exact h.waiting k hk
  · intro k hash hk
    obtain ⟨hlookup, hout⟩ := h.kept k hash hk
    have hne : k ≠ key := fun heq => hout (heq ▸ hmem)
    rw [lookup_erase_ne hne]
    exact ⟨hlookup, fun hin => hout ((hothers k).mp hin).2⟩
  · intro k hash hlookup
    by_cases hk : k = key
    · subst hk
      rw [lookup_erase] at hlookup
      cases hlookup
    · rw [lookup_erase_ne hk] at hlookup
      exact (h.listed k hash hlookup).imp_left fun hin => (hothers k).mpr ⟨hk, hin⟩

end

end

structure Truthful (s : System A Hash) : Prop where
  accounts : Accounted s.contract.registry s.deploying s.settled
  versions : Versioned s.contract.versions s.adding s.confirmed
  named : ∀ a d, (a, d) ∈ s.deploying ∨ (a, d, true) ∈ s.settled →
    (d.versionKey, d.codeHash) ∈ s.confirmed

variable {host : Host A Hash} {s s' : System A Hash} {ctx : Context A}
  {c c' : Contract A Hash} {versionKey : String}

omit [DecidableEq Hash] in
theorem Truthful.new (predecessor : A) : Truthful (.new predecessor : System A Hash) := by
  refine ⟨⟨?_, ?_, nodup_nil⟩, ⟨nodup_nil, nofun, nofun, nofun⟩, ?_⟩
  · intro a d
    simp [System.new, Contract.new]
  · intro a
    simp [System.new, Contract.new]
  · rintro a d (h | h) <;> cases h

omit [DecidableEq Hash] in
/-- A version is listed under a key that was free. -/
theorem Contract.addVersion_eq_ok {source : VersionSource Hash} {waits : Bool}
    (h : c.addVersion host ctx versionKey source = .ok (c', waits)) :
    c.versions.lookup versionKey = none ∧
      ∃ entry, c' = { c with versions := c.versions.insert versionKey entry } := by
  simp only [addVersion, do_ok] at h
  obtain ⟨-, hfree, h⟩ := h
  refine ⟨hfree, ?_⟩
  cases source <;> simp only [do_ok] at h
  all_goals
    obtain ⟨-, rfl, -⟩ := h
    exact ⟨_, rfl⟩

omit [DecidableEq Hash] in
/-- Removing a version keeps its key and its hash. -/
theorem Contract.removeVersion_eq_ok (h : c.removeVersion ctx versionKey = .ok c') :
    c'.registry = c.registry ∧ ∀ key, (c'.versions.lookup key).map VersionEntry.codeHash =
      (c.versions.lookup key).map VersionEntry.codeHash := by
  simp only [removeVersion, do_ok] at h
  obtain ⟨-, -, h⟩ := h
  split at h
  · cases h
    exact ⟨rfl, fun _ => rfl⟩
  · cases h
    exact ⟨rfl, fun _ => rfl⟩
  · next hash code hlookup =>
    cases h
    refine ⟨rfl, fun key => ?_⟩
    by_cases hkey : key = versionKey
    · subst hkey
      rw [lookup_insert, hlookup]
      rfl
    · rw [lookup_insert_ne hkey]
  · cases h

omit [DecidableEq Hash] in
/-- An account that was free is reserved for a version that is listed. -/
theorem Contract.deploy_eq_ok {name : String} {accountId : A} {deployment : Deployment Hash}
    (h : c.deploy host ctx name versionKey = .ok (c', accountId, deployment)) :
    c.registry.lookup accountId = none ∧ deployment.versionKey = versionKey ∧
      (c.versions.lookup versionKey).map VersionEntry.codeHash = some deployment.codeHash ∧
      c' = { c with registry := c.registry.insert accountId .reserved } := by
  simp only [deploy, do_ok] at h
  obtain ⟨-, -, version, hversion, _, -, -, hfree, -, rfl, rfl, rfl⟩ := h
  exact ⟨hfree, rfl, congrArg (Option.map VersionEntry.codeHash) hversion, rfl⟩

theorem Truthful.step (h : Truthful s) {step : Step A Hash} (horderly : Orderly s step) :
    Truthful (s.step host step) := by
  cases step with
  | addVersion ctx key source =>
    simp only [System.step]
    cases hadd : s.contract.addVersion host ctx key source with
    | error e => exact h
    | ok result =>
      obtain ⟨contract, waits⟩ := result
      obtain ⟨hfree, entry, rfl⟩ := Contract.addVersion_eq_ok hadd
      have hwaits := h.versions.add hfree entry
      cases waits with
      | true => exact ⟨h.accounts, hwaits, h.named⟩
      | false =>
        have hconfirmed := hwaits.confirm mem_cons_self (lookup_insert _)
        rw [erase_cons_head] at hconfirmed
        simp only [Contract.listed, lookup_insert]
        exact ⟨h.accounts, hconfirmed, fun a d hd => mem_cons_of_mem _ (h.named a d hd)⟩
  | removeVersion ctx key =>
    simp only [System.step]
    cases hremove : s.contract.removeVersion ctx key with
    | error e => exact h
    | ok contract =>
      obtain ⟨hregistry, hhashes⟩ := Contract.removeVersion_eq_ok hremove
      refine ⟨?_, h.versions.congr hhashes, h.named⟩
      rw [hregistry]
      exact h.accounts
  | deploy ctx name key =>
    simp only [System.step]
    cases hdeploy : s.contract.deploy host ctx name key with
    | error e => exact h
    | ok result =>
      obtain ⟨contract, accountId, deployment⟩ := result
      obtain ⟨hfree, rfl, hlisted, rfl⟩ := Contract.deploy_eq_ok hdeploy
      refine ⟨h.accounts.reserve hfree, h.versions, ?_⟩
      rintro a d (hmem | hmem)
      · rcases mem_cons.mp hmem with heq | hmem
        · cases heq
          exact (h.versions.listed _ _ hlisted).resolve_left horderly
        · exact h.named a d (.inl hmem)
      · exact h.named a d (.inr hmem)
  | resolveAdd key result =>
    simp only [System.step]
    split
    · next hmem =>
      unfold Contract.addVersion01Finalize
      split
      · obtain ⟨entry, hentry⟩ := Option.ne_none_iff_exists'.mp (h.versions.waiting key hmem)
        simp only [Contract.listed, hentry]
        exact ⟨h.accounts, h.versions.confirm hmem hentry,
          fun a d hd => mem_cons_of_mem _ (h.named a d hd)⟩
      · exact ⟨h.accounts, h.versions.drop hmem, h.named⟩
    · exact h
  | resolveDeploy accountId deployment result =>
    simp only [System.step]
    split
    · next hmem =>
      have hread : result.isOk 0x1000 = result.succeeded := by
        cases result with
        | failed => rfl
        | successful length => exact decide_eq_true horderly
      unfold Contract.deploy01Finalize
      rw [hread]
      have haccounts := h.accounts.settle hmem result.succeeded
      refine ⟨?_, ?_, ?_⟩
      · cases hresult : result.succeeded <;> simpa [hresult] using haccounts
      · cases result.succeeded <;> exact h.versions
      · rintro a d (hin | hin)
        · exact h.named a d (.inl (mem_of_mem_erase hin))
        · rcases mem_cons.mp hin with heq | hin
          · obtain ⟨rfl, rfl, -⟩ := by simpa using heq
            exact h.named _ _ (.inl hmem)
          · exact h.named a d (.inr hin)
    · exact h

/-- What has been settled and confirmed stays so. -/
theorem System.step_mono (s : System A Hash) (step : Step A Hash) :
    s.settled ⊆ (s.step host step).settled ∧ s.confirmed ⊆ (s.step host step).confirmed := by
  cases step <;> simp only [System.step] <;> split <;> simp

theorem Runs.truthful (hrun : Runs host s s') (h : Truthful s) :
    Truthful s' ∧ s.settled ⊆ s'.settled ∧ s.confirmed ⊆ s'.confirmed := by
  induction hrun with
  | refl => exact ⟨h, List.Subset.refl _, List.Subset.refl _⟩
  | @tail s₁ step _ horderly ih =>
    obtain ⟨htruthful, hsettled, hconfirmed⟩ := ih
    obtain ⟨hsettled', hconfirmed'⟩ := @System.step_mono _ _ _ _ host s₁ step
    exact ⟨htruthful.step horderly, List.Subset.trans hsettled hsettled',
      List.Subset.trans hconfirmed hconfirmed'⟩

/-- In every run of calls and callbacks in which no deployment names a version that is still
unconfirmed, and no answer to a deployment is too long to be read: an account is listed as deployed
exactly if its promise has succeeded, as reserved exactly while it is in flight, and has at most
one promise that is in flight or has succeeded; the version of every deployment is registered with
the hash that the deployment records. Whatever comes later, an account that is deployed stays as it
is, and a version that has been confirmed keeps its hash. -/
theorem registry_tells_the_truth {predecessor : A} (h : Runs host (.new predecessor) s) :
    Accounted s.contract.registry s.deploying s.settled ∧
    (∀ a d, s.contract.registry.lookup a = some (.deployed d) →
      (s.contract.versions.lookup d.versionKey).map VersionEntry.codeHash = some d.codeHash) ∧
    ∀ s', Runs host s s' →
      (∀ a d, s.contract.registry.lookup a = some (.deployed d) →
        s'.contract.registry.lookup a = some (.deployed d)) ∧
      ∀ key hash, (key, hash) ∈ s.confirmed →
        (s'.contract.versions.lookup key).map VersionEntry.codeHash = some hash := by
  obtain ⟨htruthful, -, -⟩ := h.truthful (.new predecessor)
  refine ⟨htruthful.accounts, ?_, ?_⟩
  · intro a d hd
    have hnamed := htruthful.named a d (.inr ((htruthful.accounts.deployed a d).mp hd))
    exact (htruthful.versions.kept _ _ hnamed).1
  · intro s' hrun
    obtain ⟨hlater, hsettled, hconfirmed⟩ := hrun.truthful htruthful
    refine ⟨?_, ?_⟩
    · intro a d hd
      exact (hlater.accounts.deployed a d).mpr (hsettled ((htruthful.accounts.deployed a d).mp hd))
    · intro key hash hmem
      exact (hlater.versions.kept key hash (hconfirmed hmem)).1

/-- Every name is an account of its own, and code is its own hash. -/
def plainHost : Host String (List UInt8) := ⟨some, fun _ => true, id, 0⟩

def byOwner : Context String := ⟨"owner", 1, 7⟩

def addStored : Step String (List UInt8) := .addVersion byOwner "v" (.stored [1])

def deployStored : Step String (List UInt8) := .deploy byOwner "a" "v"

theorem registry_tells_the_truth_stored :
    ∃ s, Runs plainHost (.new "owner") s ∧ s.contract.registry.lookup "a" = some (.deployed ⟨"v", [1], 7⟩) ∧
      (s.contract.versions.lookup "v").map VersionEntry.codeHash = some [1] := by
  have hrun : Runs plainHost (.new "owner") (((System.new "owner").step plainHost addStored).step plainHost
      deployStored |>.step plainHost (.resolveDeploy "a" ⟨"v", [1], 7⟩ (.successful 0))) :=
    .tail (.tail (.tail .refl trivial) (not_mem_nil)) (Nat.zero_le _)
  refine ⟨_, hrun, by decide, ?_⟩
  exact (registry_tells_the_truth hrun).2.1 "a" ⟨"v", [1], 7⟩ (by decide)

/-- A version is to be found on the chain, an account is deployed with it meanwhile, and only then
the search fails: the key is free again, and the account is listed with it. -/
def deployUnconfirmed : List (Step String (List UInt8)) :=
  [.addVersion byOwner "v" (.existingGlobal [9]), .deploy byOwner "a" "v", .resolveAdd "v" .failed,
    .resolveDeploy "a" ⟨"v", [9], 7⟩ (.successful 0), .addVersion byOwner "v" (.stored [1])]

/-- The account is listed with a version that has other code by now. -/
theorem registry_lists_other_code :
    let s := deployUnconfirmed.foldl (System.step plainHost) (.new "owner")
    s.contract.registry.lookup "a" = some (.deployed ⟨"v", [9], 7⟩) ∧
      (s.contract.versions.lookup "v").map VersionEntry.codeHash = some [1] := by
  decide

end Templar.Registry
