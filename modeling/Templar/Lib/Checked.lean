import Mathlib.Algebra.Order.Ring.Nat
import Mathlib.Tactic.Common

/-!
# Checked machine arithmetic

A program compiled with overflow checks aborts at the first operation whose
result leaves its machine type. An `Outcome` is what such a program returns: a
value, or the reason it aborted. Naturals stand for the unsigned machine types,
and every operation names the width it is checked against.

`Within E x` says that `x` aborts, if it aborts at all, for a reason in `E`. Its
rules follow the shape of the program, so that the absence of one kind of abort
is proved without evaluating the others.
-/

namespace Templar.Checked

/-- The reasons to abort. A narrowing that does not fit counts as overflow. -/
inductive Panic where
  | overflow
  | underflow
  | divisionByZero
  | unwrapNone
  | message (text : String)
  deriving DecidableEq, Repr

abbrev Outcome (α : Type) := Except Panic α

variable {ε α β : Type} {f : α → Except ε β} {e : ε} {bits n b a c : Nat} {text : String}
  {o : Option α} {u : Unit} {x : Outcome α}

def fit (bits n : Nat) : Outcome Nat :=
  if n < 2 ^ bits then .ok n else .error .overflow

def add (bits a b : Nat) : Outcome Nat := fit bits (a + b)

def mul (bits a b : Nat) : Outcome Nat := fit bits (a * b)

def sub (a b : Nat) : Outcome Nat :=
  if b ≤ a then .ok (a - b) else .error .underflow

def div (a b : Nat) : Outcome Nat :=
  if b = 0 then .error .divisionByZero else .ok (a / b)

/-- Subtraction with a text of its own for the abort. -/
def unwrapSub (a b : Nat) (text : String) : Outcome Nat :=
  if b ≤ a then .ok (a - b) else .error (.message ("Arithmetic underflow: " ++ text))

def unwrap : Option α → Outcome α
  | some a => .ok a
  | none => .error .unwrapNone

/-- The unwrapping of a narrowing conversion: absence means the value did not fit. -/
def unwrapFit : Option α → Outcome α
  | some a => .ok a
  | none => .error .overflow

def expect (text : String) : Option α → Outcome α
  | some a => .ok a
  | none => .error (.message text)

def require (c : Prop) [Decidable c] (text : String) : Outcome Unit :=
  if c then .ok () else .error (.message text)

/-- The checked operations that report a result out of range instead of aborting. -/
def checkedAdd (bits a b : Nat) : Option Nat := if a + b < 2 ^ bits then some (a + b) else none

def checkedMul (bits a b : Nat) : Option Nat := if a * b < 2 ^ bits then some (a * b) else none

def checkedSub (a b : Nat) : Option Nat := if b ≤ a then some (a - b) else none

def saturatingAdd (bits a b : Nat) : Nat := min (a + b) (2 ^ bits - 1)

/-- A program with errors of its own fails with `e` unless the condition holds. -/
def ensure (c : Prop) [Decidable c] (e : ε) : Except ε Unit := if c then .ok () else .error e

def okOr (o : Option α) (e : ε) : Except ε α :=
  match o with
  | some a => .ok a
  | none => .error e

theorem bind_eq_ok {x : Except ε α} {b : β} : (x >>= f) = .ok b ↔ ∃ a, x = .ok a ∧ f a = .ok b := by
  cases x with
  | ok a => simp [bind, Except.bind]
  | error e => simp [bind, Except.bind]

theorem bind_eq_error {x : Except ε α} :
    (x >>= f) = .error e ↔ x = .error e ∨ ∃ a, x = .ok a ∧ f a = .error e := by
  cases x with
  | ok a => simp [bind, Except.bind]
  | error e => simp [bind, Except.bind]

@[simp] theorem ok_bind (a : α) (f : α → Except ε β) : ((.ok a : Except ε α) >>= f) = f a := rfl

@[simp] theorem error_bind (e : ε) (f : α → Except ε β) :
    ((.error e : Except ε α) >>= f) = .error e := rfl

@[simp] theorem fit_eq_ok {m : Nat} : fit bits n = .ok m ↔ n < 2 ^ bits ∧ m = n := by
  by_cases h : n < 2 ^ bits <;> simp [fit, h, eq_comm]

@[simp] theorem add_eq_ok : add bits a b = .ok c ↔ a + b < 2 ^ bits ∧ c = a + b := fit_eq_ok

@[simp] theorem mul_eq_ok : mul bits a b = .ok c ↔ a * b < 2 ^ bits ∧ c = a * b := fit_eq_ok

@[simp] theorem sub_eq_ok : sub a b = .ok c ↔ b ≤ a ∧ c = a - b := by
  by_cases h : b ≤ a <;> simp [sub, h, eq_comm]

@[simp] theorem div_eq_ok : div a b = .ok c ↔ b ≠ 0 ∧ c = a / b := by
  by_cases h : b = 0 <;> simp [div, h, eq_comm]

@[simp] theorem unwrapSub_eq_ok : unwrapSub a b text = .ok c ↔ b ≤ a ∧ c = a - b := by
  by_cases h : b ≤ a <;> simp [unwrapSub, h, eq_comm]

@[simp] theorem unwrap_eq_ok {a : α} : unwrap o = .ok a ↔ o = some a := by
  cases o <;> simp [unwrap]

@[simp] theorem expect_eq_ok {a : α} : expect text o = .ok a ↔ o = some a := by
  cases o <;> simp [expect]

@[simp] theorem require_eq_ok {c : Prop} [Decidable c] : require c text = .ok u ↔ c := by
  by_cases h : c <;> simp [require, h]

@[simp] theorem checkedAdd_eq_some :
    checkedAdd bits a b = some c ↔ a + b < 2 ^ bits ∧ c = a + b := by
  by_cases h : a + b < 2 ^ bits <;> simp [checkedAdd, h, eq_comm]

@[simp] theorem checkedMul_eq_some :
    checkedMul bits a b = some c ↔ a * b < 2 ^ bits ∧ c = a * b := by
  by_cases h : a * b < 2 ^ bits <;> simp [checkedMul, h, eq_comm]

@[simp] theorem checkedSub_eq_some : checkedSub a b = some c ↔ b ≤ a ∧ c = a - b := by
  by_cases h : b ≤ a <;> simp [checkedSub, h, eq_comm]

@[simp] theorem ensure_eq_ok {c : Prop} [Decidable c] : ensure c e = .ok u ↔ c := by
  by_cases h : c <;> simp [ensure, h]

@[simp] theorem okOr_eq_ok {a : α} : okOr o e = .ok a ↔ o = some a := by
  cases o <;> simp [okOr]

theorem ensure_of {c : Prop} [Decidable c] (h : c) : ensure c e = .ok () := if_pos h

theorem ensure_of_not {c : Prop} [Decidable c] (h : ¬ c) : ensure c e = .error e := if_neg h

theorem okOr_checkedAdd (h : a + b < 2 ^ bits) : okOr (checkedAdd bits a b) e = .ok (a + b) := by
  rw [checkedAdd, if_pos h]
  rfl

theorem okOr_checkedAdd_of_le (h : 2 ^ bits ≤ a + b) : okOr (checkedAdd bits a b) e = .error e := by
  rw [checkedAdd, if_neg (Nat.not_lt.mpr h)]
  rfl

theorem map_eq_ok {x : Except ε α} {f : α → β} {b : β} :
    f <$> x = .ok b ↔ ∃ a, x = .ok a ∧ f a = b := by
  cases x <;> simp [Functor.map, Except.map]

theorem pure_eq_ok {a b : α} : (pure a : Except ε α) = .ok b ↔ b = a := by
  simp [pure, Except.pure, eq_comm]

@[simp] theorem mapError_eq_ok {δ : Type} {x : Except ε α} {f : ε → δ} {a : α} :
    x.mapError f = .ok a ↔ x = .ok a := by
  cases x <;> simp [Except.mapError]

/-- The steps of a program that has succeeded, as one rule for `simp only`: it peels a `do` block
apart down to the conditions that were met and the values that were found. -/
theorem do_ok :
    (∀ {ε α β : Type} {f : α → Except ε β} {x : Except ε α} {b : β},
      (x >>= f) = .ok b ↔ ∃ a, x = .ok a ∧ f a = .ok b) ∧
    (∀ {p : Unit → Prop}, (∃ u, p u) ↔ p ()) ∧
    (∀ {ε α : Type} {a b : α}, (pure a : Except ε α) = .ok b ↔ b = a) ∧
    (∀ {ε α : Type} {a b : α}, (.ok a : Except ε α) = .ok b ↔ b = a) ∧
    (∀ {ε α : Type} {e : ε} {x : Except ε α} {b : α} {c : Prop} [Decidable c],
      (if c then .error e else x) = .ok b ↔ ¬ c ∧ x = .ok b) ∧
    (∀ {ε α : Type} {e : ε} {x : Except ε α} {b : α} {c : Prop} [Decidable c],
      (if c then x else .error e) = .ok b ↔ c ∧ x = .ok b) ∧
    (∀ {ε δ α : Type} {e : δ} {x : Except ε (Except δ α)} {b : α} {c : Prop} [Decidable c],
      (if c then .ok (.error e) else x) = .ok (.ok b) ↔ ¬ c ∧ x = .ok (.ok b)) ∧
    (∀ {ε δ α : Type} {f : ε → δ} {x : Except ε α} {a : α}, x.mapError f = .ok a ↔ x = .ok a) ∧
    (∀ {α β : Type} {a c : α} {b d : β}, (a, b) = (c, d) ↔ a = c ∧ b = d) ∧
    (∀ {ε : Type} {e : ε} {u : Unit} {c : Prop} [Decidable c], ensure c e = .ok u ↔ c) ∧
    (∀ {u : Unit} {c : Prop} [Decidable c] {text}, require c text = .ok u ↔ c) ∧
    (∀ {ε α : Type} {e : ε} {o : Option α} {a : α}, okOr o e = .ok a ↔ o = some a) ∧
    (∀ {α : Type} {o : Option α} {a : α} {text}, expect text o = .ok a ↔ o = some a) ∧
    (∀ {bits a b c}, checkedAdd bits a b = some c ↔ a + b < 2 ^ bits ∧ c = a + b) ∧
    (∀ {bits a b c}, add bits a b = .ok c ↔ a + b < 2 ^ bits ∧ c = a + b) ∧
    (∀ {a b c}, sub a b = .ok c ↔ b ≤ a ∧ c = a - b) ∧
    ∀ {bits n m}, fit bits n = .ok m ↔ n < 2 ^ bits ∧ m = n :=
  ⟨bind_eq_ok, ⟨fun ⟨_, h⟩ => h, fun h => ⟨(), h⟩⟩, pure_eq_ok, pure_eq_ok,
    by intros; split <;> simp_all, by intros; split <;> simp_all, by intros; split <;> simp_all,
    mapError_eq_ok, Prod.mk_inj, ensure_eq_ok, require_eq_ok, okOr_eq_ok, expect_eq_ok,
    checkedAdd_eq_some, add_eq_ok, sub_eq_ok, fit_eq_ok⟩

theorem saturatingAdd_of_lt (h : a + b < 2 ^ bits) : saturatingAdd bits a b = a + b := by
  unfold saturatingAdd
  omega

theorem toOption_eq_some {x : Except ε α} {a : α} : x.toOption = some a ↔ x = .ok a := by
  cases x <;> simp [Except.toOption]

section Decidable

variable {P : α → Prop} [DecidablePred P]

instance decidableExistsSome : (o : Option α) → Decidable (∃ a, o = some a ∧ P a)
  | none => isFalse (by simp)
  | some a => decidable_of_iff (P a) (by simp)

instance decidableExistsOk : (x : Except ε α) → Decidable (∃ a, x = .ok a ∧ P a)
  | .error _ => isFalse (by simp)
  | .ok a => decidable_of_iff (P a) (by simp)

/-- Whether a program aborts for a given reason is decided without comparing results. -/
instance decidableEqError [DecidableEq ε] (e : ε) : (x : Except ε α) → Decidable (x = .error e)
  | .ok _ => isFalse (by simp)
  | .error e' => decidable_of_iff (e' = e) (by simp)

end Decidable

/-- `x` aborts only for reasons in `E`. -/
def Within (E : Panic → Prop) (x : Outcome α) : Prop := ∀ e, x = .error e → E e

/-- The only abort left is a value too large for its machine type. -/
abbrev OnlyOverflow (x : Outcome α) : Prop := Within (· = .overflow) x

variable {E : Panic → Prop}

theorem within_ok (a : α) : Within E (.ok a) := by
  intro e h
  cases h

theorem within_error {e : Panic} (h : E e) : Within E (.error e : Outcome α) := by
  intro e' he
  cases he
  exact h

/-- Sequencing: the continuation may use the value its predecessor returned. -/
theorem Within.bind {f : α → Outcome β} (hx : Within E x) (hf : ∀ a, x = .ok a → Within E (f a)) :
    Within E (x >>= f) := by
  intro e he
  rcases bind_eq_error.mp he with h | ⟨a, ha, h⟩
  · exact hx e h
  · exact hf a ha e h

theorem Within.ite {c : Prop} [Decidable c] {y : Outcome α} (hx : c → Within E x)
    (hy : ¬c → Within E y) : Within E (if c then x else y) := by
  split
  · exact hx ‹_›
  · exact hy ‹_›

theorem Within.mono {F : Panic → Prop} (hx : Within E x) (h : ∀ e, E e → F e) :
    Within F x := fun e he => h e (hx e he)

/-- Without a reason to abort there is a result. -/
theorem Within.exists_ok (hx : Within (fun _ => False) x) : ∃ a, x = .ok a := by
  cases x with
  | ok a => exact ⟨a, rfl⟩
  | error e => exact (hx e rfl).elim

theorem Within.of_onlyOverflow (hx : OnlyOverflow x) (h : E .overflow) :
    Within E x := hx.mono fun _ he => he ▸ h

theorem onlyOverflow_fit (bits n : Nat) : OnlyOverflow (fit bits n) := by
  unfold fit
  exact Within.ite (fun _ => within_ok _) (fun _ => within_error rfl)

theorem within_fit (h : n < 2 ^ bits) : Within E (fit bits n) := by
  rw [fit, if_pos h]
  exact within_ok _

theorem within_add (h : a + b < 2 ^ bits) : Within E (add bits a b) := within_fit h

theorem onlyOverflow_add (bits a b : Nat) : OnlyOverflow (add bits a b) := onlyOverflow_fit _ _

theorem onlyOverflow_mul (bits a b : Nat) : OnlyOverflow (mul bits a b) := onlyOverflow_fit _ _

theorem within_sub (h : b ≤ a) : Within E (sub a b) := by
  simp only [sub, h, ↓reduceIte]
  exact within_ok _

/-- A subtraction whose underflow may be among the reasons. -/
theorem within_sub_or (h : E .underflow ∨ b ≤ a) : Within E (sub a b) := by
  rcases h with h | h
  · exact Within.ite (fun _ => within_ok _) (fun _ => within_error h)
  · exact within_sub h

theorem within_div (h : b ≠ 0) : Within E (div a b) := by
  simp only [div, h, ↓reduceIte]
  exact within_ok _

theorem within_unwrapSub (h : b ≤ a) : Within E (unwrapSub a b text) := by
  simp only [unwrapSub, h, ↓reduceIte]
  exact within_ok _

theorem within_unwrap (h : o.isSome) : Within E (unwrap o) := by
  obtain ⟨a, rfl⟩ := Option.isSome_iff_exists.mp h
  exact within_ok a

theorem onlyOverflow_unwrapFit (o : Option α) : OnlyOverflow (unwrapFit o) := by
  cases o with
  | none => exact within_error rfl
  | some a => exact within_ok a

theorem within_expect (h : o.isSome) : Within E (expect text o) := by
  obtain ⟨a, rfl⟩ := Option.isSome_iff_exists.mp h
  exact within_ok a

theorem within_expect_or (o : Option α) (h : E (.message text)) : Within E (expect text o) := by
  cases o with
  | none => exact within_error h
  | some a => exact within_ok a

theorem within_require {c : Prop} [Decidable c] (h : c) : Within E (require c text) := by
  simp only [require, h, ↓reduceIte]
  exact within_ok ()

end Templar.Checked
