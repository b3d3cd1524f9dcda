import Templar.Lending.Supply

/-!
# Schedules of waiting deposits

Both a supply position and the market keep a list of deposits that wait for the
snapshot they activate in. `scheduled p l` adds up the amounts of a list whose index
meets `p`. A position's list is `Orderly`: its indices increase strictly within given
bounds. Each operation on a list is described by what it does to these sums.
-/

namespace Templar.Lending

open Checked List

def scheduled (p : Nat → Bool) (l : List IncomingDeposit) : Nat :=
  (l.map fun d => if p d.activateAtSnapshotIndex then d.amount else 0).sum

/-- Everything that waits. -/
def waiting (l : List IncomingDeposit) : Nat := scheduled (fun _ => true) l

/-- What waits for one snapshot. -/
def dueAt (k : Nat) (l : List IncomingDeposit) : Nat := scheduled (fun i => decide (i = k)) l

/-- What an amount grows to when all deposits due by a snapshot have joined it. -/
def activeAt (k active : Nat) (l : List IncomingDeposit) : Nat :=
  active + scheduled (fun i => decide (i ≤ k)) l

@[simp] theorem scheduled_nil (p : Nat → Bool) : scheduled p [] = 0 := rfl

@[simp] theorem scheduled_cons (p : Nat → Bool) (d : IncomingDeposit) (l : List IncomingDeposit) :
    scheduled p (d :: l) = (if p d.activateAtSnapshotIndex then d.amount else 0) + scheduled p l := rfl

@[simp] theorem scheduled_append (p : Nat → Bool) (l₁ l₂ : List IncomingDeposit) :
    scheduled p (l₁ ++ l₂) = scheduled p l₁ + scheduled p l₂ := by
  simp [scheduled]

variable {p : Nat → Bool} {l l' : List IncomingDeposit} {d : IncomingDeposit}
  {lo hi k active amount n : Nat}

theorem scheduled_congr {q : Nat → Bool}
    (h : ∀ d ∈ l, p d.activateAtSnapshotIndex = q d.activateAtSnapshotIndex) :
    scheduled p l = scheduled q l := by
  induction l with
  | nil => rfl
  | cons d l ih =>
    have hd := h d (by simp)
    have hl := ih (by intro e he; exact h e (by simp [he]))
    simp only [scheduled_cons, hd, hl]

theorem scheduled_eq_zero (h : ∀ d ∈ l, p d.activateAtSnapshotIndex = false) :
    scheduled p l = 0 := by
  induction l with
  | nil => rfl
  | cons d l ih =>
    have hd := h d (by simp)
    have hl := ih (by intro e he; exact h e (by simp [he]))
    simp [scheduled_cons, hd, hl]

theorem scheduled_le_waiting (p : Nat → Bool) (l : List IncomingDeposit) :
    scheduled p l ≤ waiting l := by
  induction l with
  | nil => exact Nat.le_refl _
  | cons d l ih =>
    simp only [waiting, scheduled_cons, ↓reduceIte] at ih ⊢
    split <;> omega

theorem le_scheduled (hd : d ∈ l) (hp : p d.activateAtSnapshotIndex = true) :
    d.amount ≤ scheduled p l := by
  induction l with
  | nil => cases hd
  | cons e l ih =>
    rw [scheduled_cons]
    rcases mem_cons.mp hd with rfl | hd
    · rw [if_pos hp]
      exact Nat.le_add_right _ _
    · exact Nat.le_trans (ih hd) (Nat.le_add_left _ _)

/-- Indices increase strictly, from `lo` on and up to `hi`. -/
def Orderly (lo hi : Nat) : List IncomingDeposit → Prop
  | [] => True
  | d :: rest => lo ≤ d.activateAtSnapshotIndex ∧ d.activateAtSnapshotIndex ≤ hi ∧
      Orderly (d.activateAtSnapshotIndex + 1) hi rest

theorem Orderly.mono {lo' hi' : Nat} (h : Orderly lo hi l) (hlo : lo' ≤ lo) (hhi : hi ≤ hi') :
    Orderly lo' hi' l := by
  induction l generalizing lo lo' with
  | nil => trivial
  | cons d l ih =>
    obtain ⟨h₁, h₂, h₃⟩ := h
    exact ⟨by omega, by omega, ih h₃ (Nat.le_refl _)⟩

theorem Orderly.bounds (h : Orderly lo hi l) :
    ∀ d ∈ l, lo ≤ d.activateAtSnapshotIndex ∧ d.activateAtSnapshotIndex ≤ hi := by
  induction l generalizing lo with
  | nil => simp
  | cons e l ih =>
    obtain ⟨h₁, h₂, h₃⟩ := h
    intro d hd
    rcases mem_cons.mp hd with rfl | hd
    · exact ⟨h₁, h₂⟩
    · have hb := ih h₃ d hd
      omega

theorem Orderly.dueAt_of_lt (h : Orderly lo hi l) (hk : k < lo ∨ hi < k) : dueAt k l = 0 := by
  apply scheduled_eq_zero
  intro d hd
  have hb := h.bounds d hd
  simp only [decide_eq_false_iff_not]
  omega

theorem Orderly.activeAt_of_lt (h : Orderly lo hi l) (hk : k < lo) :
    activeAt k active l = active := by
  have hz : scheduled (fun i => decide (i ≤ k)) l = 0 := by
    apply scheduled_eq_zero
    intro d hd
    have hb := h.bounds d hd
    simp only [decide_eq_false_iff_not]
    omega
  rw [activeAt, hz, Nat.add_zero]

theorem activeAt_le_waiting (k active : Nat) (l : List IncomingDeposit) :
    activeAt k active l ≤ active + waiting l :=
  Nat.add_le_add_left (scheduled_le_waiting _ l) active

/-- The amounts due one snapshot later are those due at it. -/
theorem activeAt_succ (k active : Nat) (l : List IncomingDeposit) :
    activeAt (k + 1) active l = activeAt k active l + dueAt (k + 1) l := by
  simp only [activeAt, dueAt]
  induction l with
  | nil => rfl
  | cons d l ih =>
    simp only [scheduled_cons, decide_eq_true_eq]
    by_cases h₁ : d.activateAtSnapshotIndex ≤ k
    · rw [if_pos h₁, if_pos (by omega), if_neg (by omega)]
      omega
    · by_cases h₂ : d.activateAtSnapshotIndex = k + 1
      · rw [if_neg h₁, if_pos (by omega), if_pos h₂]
        omega
      · rw [if_neg h₁, if_neg (by omega), if_neg h₂]
        omega

theorem activeAt_cons_of_le (h : d.activateAtSnapshotIndex ≤ k) :
    activeAt k active (d :: l) = activeAt k (active + d.amount) l := by
  simp only [activeAt, scheduled_cons, h, decide_true, ↓reduceIte]
  omega

/-- A list within one index holds at most one deposit. -/
theorem Orderly.cases_one (h : Orderly k k l) : l = [] ∨ ∃ amount, l = [⟨k, amount⟩] := by
  cases l with
  | nil => exact Or.inl rfl
  | cons d l =>
    obtain ⟨h₁, h₂, h₃⟩ := h
    obtain ⟨index, amount⟩ := d
    obtain rfl : index = k := by simp only at h₁ h₂; omega
    cases l with
    | nil => exact Or.inr ⟨amount, rfl⟩
    | cons e l =>
      obtain ⟨h₄, h₅, -⟩ := h₃
      simp only at h₄
      omega

theorem Orderly.snoc (h : Orderly lo hi l) (hlo : lo ≤ hi + 1) :
    Orderly lo (hi + 1) (l ++ [⟨hi + 1, amount⟩]) := by
  induction l generalizing lo with
  | nil => exact ⟨hlo, Nat.le_refl _, trivial⟩
  | cons d l ih =>
    obtain ⟨h₁, h₂, h₃⟩ := h
    exact ⟨h₁, by omega, ih h₃ (by omega)⟩

/-- The list before a last deposit at an index stays below that index. -/
theorem Orderly.of_snoc (h : Orderly lo (n + 1) (l ++ [⟨n + 1, amount⟩])) : Orderly lo n l := by
  induction l generalizing lo with
  | nil => trivial
  | cons d l ih =>
    obtain ⟨h₁, -, h₃⟩ := h
    have hb := (h₃.bounds ⟨n + 1, amount⟩ (by simp)).1
    simp only at hb
    exact ⟨h₁, by omega, ih h₃⟩

/-- A list whose last deposit is not at the upper bound stays below it. -/
theorem Orderly.tighten (h : Orderly lo (n + 1) (l ++ [d])) (hd : d.activateAtSnapshotIndex ≠ n + 1) :
    Orderly lo n (l ++ [d]) := by
  induction l generalizing lo with
  | nil =>
    obtain ⟨h₁, h₂, -⟩ := h
    exact ⟨h₁, by omega, trivial⟩
  | cons e l ih =>
    obtain ⟨h₁, -, h₃⟩ := h
    have hb := h₃.bounds d (by simp)
    exact ⟨h₁, by omega, ih h₃⟩

theorem totalOf_eq_ok {total result : Nat} (h : totalOf l total = .ok result) :
    result = total + waiting l := by
  induction l generalizing total with
  | nil =>
    cases h
    rfl
  | cons d l ih =>
    obtain ⟨t, ht, h⟩ := bind_eq_ok.mp h
    obtain ⟨-, rfl⟩ := add_eq_ok.mp ht
    have hr := ih h
    simp only [waiting, scheduled_cons, ↓reduceIte] at hr ⊢
    omega

theorem onlyOverflow_totalOf (l : List IncomingDeposit) (total : Nat) :
    OnlyOverflow (totalOf l total) := by
  induction l generalizing total with
  | nil => exact within_ok _
  | cons d l ih => exact (onlyOverflow_add _ _ _).bind fun t _ => ih t

/-- A deposit joins a position's list: at an index no smaller than those in it, the
list stays orderly and every sum that covers the index grows by the amount. -/
theorem addToPosition_eq_ok (h : addToPosition l amount (n + 1) = .ok l')
    (hl : Orderly lo (n + 1) l) (hlo : lo ≤ n + 1) : Orderly lo (n + 1) l' ∧
      ∀ p, scheduled p l' = scheduled p l + if p (n + 1) then amount else 0 := by
  unfold addToPosition at h
  -- The list is empty, ends at the index, or ends below it.
  rcases eq_nil_or_concat l with rfl | ⟨l₀, d, rfl⟩
  · simp only [getLast?_nil, do_ok] at h
    obtain ⟨-, rfl⟩ := h
    exact ⟨⟨hlo, Nat.le_refl _, trivial⟩, fun p => by simp⟩
  · rw [concat_eq_append] at h hl ⊢
    simp only [getLast?_concat, dropLast_concat] at h
    obtain ⟨index, v⟩ := d
    split at h
    · rename_i hlast
      simp only at hlast
      subst hlast
      obtain ⟨total, ht, h⟩ := bind_eq_ok.mp h
      obtain ⟨-, rfl⟩ := add_eq_ok.mp ht
      cases h
      refine ⟨hl.of_snoc.snoc hlo, fun p => ?_⟩
      simp only [scheduled_append, scheduled_cons, scheduled_nil]
      split <;> omega
    · rename_i hlast
      obtain ⟨-, -, rfl, rfl⟩ := bind_eq_ok.mp h
      refine ⟨(hl.tighten hlast).snoc hlo, fun p => ?_⟩
      simp only [scheduled_append, scheduled_cons, scheduled_nil]
      omega

/-- A deposit joins the market's list. -/
theorem addToMarket_eq_ok {index : Nat} (h : addToMarket amount index l = .ok l') (p : Nat → Bool) :
    scheduled p l' = scheduled p l + if p index then amount else 0 := by
  induction l generalizing l' with
  | nil =>
    cases h
    simp
  | cons d l ih =>
    simp only [addToMarket] at h
    split at h
    · rename_i hd
      obtain ⟨total, ht, h⟩ := bind_eq_ok.mp h
      obtain ⟨-, rfl⟩ := add_eq_ok.mp ht
      cases h
      simp only [scheduled_cons, hd]
      split <;> omega
    · obtain ⟨rest, hr, rfl, rfl⟩ := bind_eq_ok.mp h
      simp only [scheduled_cons, ih hr]
      omega

/-- Taking the deposits due at the first index of an orderly list. -/
theorem takeIncoming_eq_ok {i amount' : Nat} (h : takeIncoming i l amount = .ok (amount', l'))
    (hl : Orderly i hi l) :
    Orderly (i + 1) hi l' ∧ ∀ k, i ≤ k → activeAt k amount' l' = activeAt k amount l := by
  cases l with
  | nil =>
    cases h
    exact ⟨trivial, fun _ _ => rfl⟩
  | cons d l =>
    obtain ⟨h₁, h₂, h₃⟩ := hl
    simp only [takeIncoming] at h
    split at h
    · rename_i hd
      obtain ⟨a, ha, h⟩ := bind_eq_ok.mp h
      obtain ⟨-, rfl⟩ := add_eq_ok.mp ha
      rw [hd] at h₃
      -- The next deposit, if there is one, is due later.
      have hrest : takeIncoming i l (amount + d.amount) = .ok (amount + d.amount, l) := by
        cases l with
        | nil => rfl
        | cons e l =>
          have hne : e.activateAtSnapshotIndex ≠ i := by
            have := h₃.1
            omega
          simp only [takeIncoming, hne, ↓reduceIte]
      rw [hrest] at h
      cases h
      exact ⟨h₃, fun k hk => (activeAt_cons_of_le (by omega)).symm⟩
    · cases h
      exact ⟨⟨by omega, h₂, h₃⟩, fun _ _ => rfl⟩

/-- Activation up to an index: amounts active from that index on, and sums of deposits
due later, do not change. -/
theorem activateThrough_eq_ok {through active' : Nat}
    (h : activateThrough through l active = .ok (active', l')) (hl : Orderly lo hi l) :
    Orderly (max lo (through + 1)) hi l' ∧
      (∀ k, through ≤ k → activeAt k active' l' = activeAt k active l) ∧
      (∀ p, (∀ i, i ≤ through → p i = false) → scheduled p l' = scheduled p l) ∧
      active' + waiting l' = active + waiting l ∧ l' ⊆ l := by
  induction l generalizing active lo with
  | nil =>
    cases h
    exact ⟨trivial, fun _ _ => rfl, fun _ _ => rfl, rfl, fun _ h => h⟩
  | cons d l ih =>
    obtain ⟨h₁, h₂, h₃⟩ := hl
    simp only [activateThrough] at h
    split at h
    · rename_i hd
      obtain ⟨a, ha, h⟩ := bind_eq_ok.mp h
      obtain ⟨-, rfl⟩ := add_eq_ok.mp ha
      obtain ⟨ho, hk, hp, hw, hsub⟩ := ih h h₃
      refine ⟨ho.mono (by omega) (Nat.le_refl _), ?_, ?_, ?_, subset_cons_of_subset _ hsub⟩
      · intro k hle
        rw [hk k hle, activeAt_cons_of_le (by omega)]
      · intro p hfalse
        rw [hp p hfalse, scheduled_cons, hfalse _ hd]
        simp
      · simp only [waiting, scheduled_cons, ↓reduceIte] at hw ⊢
        omega
    · cases h
      exact ⟨⟨by omega, h₂, h₃⟩, fun _ _ => rfl, fun _ _ => rfl, rfl, fun _ h => h⟩

theorem onlyOverflow_takeIncoming (i : Nat) (l : List IncomingDeposit) (amount : Nat) :
    OnlyOverflow (takeIncoming i l amount) := by
  induction l generalizing amount with
  | nil => exact within_ok _
  | cons d l ih =>
    exact Within.ite (fun _ => (onlyOverflow_add _ _ _).bind fun a _ => ih a) fun _ => within_ok _

theorem onlyOverflow_activateThrough (through : Nat) (l : List IncomingDeposit) (active : Nat) :
    OnlyOverflow (activateThrough through l active) := by
  induction l generalizing active with
  | nil => exact within_ok _
  | cons d l ih =>
    exact Within.ite (fun _ => (onlyOverflow_add _ _ _).bind fun a _ => ih a) fun _ => within_ok _

end Templar.Lending
