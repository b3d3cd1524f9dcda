import Mathlib.Order.Basic
import Mathlib.Data.Nat.Basic

/-!
# Locks that delay their own changes

A system admits entries and executes them when they have matured. A lock, a number that is
part of the state, says how long the entries it guards have to wait; other entries change
the lock when they are executed. If an entry that would bring the lock below some bound
waits at least that bound, then from a state without pending entries nothing guarded by the
lock is executed before the lock has run out once (`Run.not_outrun`), whatever the order of
the changes in between.
-/

namespace Templar

/-- A lock of a system with states `σ` and entries `π`. `Keeps bound p` says that executing
`p` leaves a lock of at least `bound` at least there. -/
structure Timelock (σ π : Type) where
  lock : σ → Nat
  Pending : σ → π → Prop
  maturesAt : π → Nat
  Guarded : π → Prop
  Keeps : Nat → π → Prop

namespace Timelock

variable {σ π : Type} (T : Timelock σ π)

/-- One step at time `now`, with the entry it executed. -/
inductive Step (now : Nat) (x : σ) : Option π → σ → Prop
  | enter {p y} (pending : ∀ q, T.Pending y q → T.Pending x q ∨ q = p) (lock : T.lock y = T.lock x)
      (guarded : T.Guarded p → now + T.lock x ≤ T.maturesAt p)
      (keeps : ∀ bound ≤ T.lock x, T.Keeps bound p ∨ now + bound ≤ T.maturesAt p) :
      Step now x none y
  | withdraw {y} (pending : ∀ q, T.Pending y q → T.Pending x q) (lock : T.lock y = T.lock x) :
      Step now x none y
  | execute {p y} (mem : T.Pending x p) (mature : T.maturesAt p ≤ now)
      (pending : ∀ q, T.Pending y q → T.Pending x q)
      (lock : ∀ bound ≤ T.lock x, T.Keeps bound p → bound ≤ T.lock y) : Step now x (some p) y

/-- Steps at nondecreasing times, with what was executed when. -/
inductive Run (x : σ) (start : Nat) : List (Nat × π) → Nat → σ → Prop
  | refl : Run x start [] start x
  | tail {log now later y z} {done : Option π} (run : Run x start log now y) (le : now ≤ later)
      (step : T.Step later y done z) : Run x start (log ++ done.toList.map (later, ·)) later z

theorem Run.start_le {T : Timelock σ π} {x y : σ} {start now : Nat} {log : List (Nat × π)}
    (h : T.Run x start log now y) : start ≤ now := by
  induction h with
  | refl => exact Nat.le_refl _
  | tail _ hle _ ih => exact ih.trans hle

/-- Until `bound` has passed since `start` the lock is at least `bound`, and what is pending
does not change that; nothing that the lock guards matures earlier. -/
structure Armed (start bound now : Nat) (x : σ) : Prop where
  held : start + bound ≤ now ∨ bound ≤ T.lock x ∧
    ∀ p, T.Pending x p → T.Keeps bound p ∨ start + bound ≤ T.maturesAt p
  guarded : ∀ p, T.Pending x p → T.Guarded p → start + bound ≤ T.maturesAt p

variable {T} {x y : σ} {start bound now later : Nat} {done : Option π} {log : List (Nat × π)}

theorem Armed.mono (h : T.Armed start bound now x) (hle : now ≤ later) :
    T.Armed start bound later x := by
  refine ⟨?_, h.guarded⟩
  rcases h.held with hpassed | hheld
  · exact .inl (hpassed.trans hle)
  · exact .inr hheld

theorem Armed.step (h : T.Armed start bound now x) (hstart : start ≤ now)
    (hstep : T.Step now x done y) : T.Armed start bound now y := by
  cases hstep with
  | enter hpending hlock hguarded hkeeps =>
    constructor
    · rcases h.held with hpassed | ⟨hbound, hold⟩
      · exact .inl hpassed
      · refine .inr ⟨hlock ▸ hbound, ?_⟩
        intro q hq
        rcases hpending q hq with hq | rfl
        · exact hold q hq
        · rcases hkeeps bound hbound with hkeep | hlate
          · exact .inl hkeep
          · exact .inr (by omega)
    · intro q hq hqguarded
      rcases hpending q hq with hq | rfl
      · exact h.guarded q hq hqguarded
      · have hlate := hguarded hqguarded
        rcases h.held with hpassed | ⟨hbound, -⟩ <;> omega
  | withdraw hpending hlock =>
    refine ⟨?_, fun q hq => h.guarded q (hpending q hq)⟩
    rw [hlock]
    exact h.held.imp id fun ⟨hbound, hold⟩ => ⟨hbound, fun q hq => hold q (hpending q hq)⟩
  | execute hmem hmature hpending hlock =>
    refine ⟨?_, fun q hq => h.guarded q (hpending q hq)⟩
    rcases h.held with hpassed | ⟨hbound, hold⟩
    · exact .inl hpassed
    · rcases hold _ hmem with hkeep | hlate
      · exact .inr ⟨hlock bound hbound hkeep, fun q hq => hold q (hpending q hq)⟩
      · exact .inl (hlate.trans hmature)

/-- Nothing is pending, and the bound is what the lock is. -/
theorem Armed.of_empty (hnone : ∀ p, ¬ T.Pending x p) : T.Armed start (T.lock x) start x :=
  ⟨.inr ⟨Nat.le_refl _, fun p hp => absurd hp (hnone p)⟩, fun p hp => absurd hp (hnone p)⟩

theorem Armed.execute {p : π} (h : T.Armed start bound now x) (hstep : T.Step now x (some p) y)
    (hp : T.Guarded p) : start + bound ≤ now := by
  cases hstep with
  | execute hmem hmature _ _ => exact (h.guarded p hmem hp).trans hmature

/-- Over a run from a state without pending entries, what the lock guards is executed only
after the lock's value at the start has passed. -/
theorem Run.not_outrun (h : T.Run x start log now y) (hnone : ∀ p, ¬ T.Pending x p) :
    ∀ t p, (t, p) ∈ log → T.Guarded p → start + T.lock x ≤ t := by
  suffices T.Armed start (T.lock x) now y ∧
      ∀ t p, (t, p) ∈ log → T.Guarded p → start + T.lock x ≤ t from this.2
  induction h with
  | refl =>
    refine ⟨.of_empty hnone, ?_⟩
    simp
  | @tail log now later y z done hrun hle hstep ih =>
    obtain ⟨harmed, hlog⟩ := ih
    have harmed := harmed.mono hle
    refine ⟨harmed.step (hrun.start_le.trans hle) hstep, ?_⟩
    intro t p hmem hp
    rcases List.mem_append.mp hmem with hmem | hmem
    · exact hlog t p hmem hp
    · cases done with
      | none => cases hmem
      | some q =>
        cases List.mem_singleton.mp hmem
        exact harmed.execute hstep hp

end Timelock

end Templar
