import Mathlib.Tactic.Common

/-!
# Bounded histories

A ring buffer keeps the newest entries that fit its capacity, oldest first. A
buffer without capacity keeps nothing.
-/

namespace Templar

structure RingBuffer (α : Type) where
  capacity : Nat
  entries : List α
  fits : entries.length ≤ capacity
  deriving DecidableEq

namespace RingBuffer

variable {α : Type}

def new (capacity : Nat) : RingBuffer α := ⟨capacity, [], Nat.zero_le capacity⟩

/-- The entries after a push: a full buffer gives up its oldest one first. -/
def pushed (capacity : Nat) (entries : List α) (item : α) : List α :=
  if capacity = 0 then entries
  else if entries.length = capacity then entries.tail ++ [item]
  else entries ++ [item]

theorem length_pushed {capacity : Nat} {entries : List α} (item : α)
    (h : entries.length ≤ capacity) : (pushed capacity entries item).length ≤ capacity := by
  unfold pushed
  split
  · exact h
  · split
    · simp; omega
    · simp; omega

variable (b : RingBuffer α)

def push (item : α) : RingBuffer α where
  capacity := b.capacity
  entries := pushed b.capacity b.entries item
  fits := length_pushed item b.fits

/-- The loop that pops the excess entries from the front. -/
def setCapacity (capacity : Nat) : RingBuffer α where
  capacity := capacity
  entries := b.entries.drop (b.entries.length - capacity)
  fits := by
    simp only [List.length_drop]
    omega

def last : Option α := b.entries.getLast?

def get (index : Nat) : Option α := b.entries[index]?

def length : Nat := b.entries.length

@[simp] theorem capacity_push (b : RingBuffer α) (item : α) :
    (b.push item).capacity = b.capacity := rfl

@[ext] theorem ext {b c : RingBuffer α} (hc : b.capacity = c.capacity)
    (he : b.entries = c.entries) : b = c := by
  cases b
  cases c
  cases hc
  cases he
  rfl

/-- A push keeps the newest entries that fit. -/
theorem entries_push (b : RingBuffer α) (item : α) :
    (b.push item).entries = (b.entries ++ [item]).drop (b.entries.length + 1 - b.capacity) := by
  have hfits := b.fits
  change pushed b.capacity b.entries item = _
  unfold pushed
  split_ifs with hzero hfull
  · rw [List.length_eq_zero_iff.mp (by omega : b.entries.length = 0), hzero]
    rfl
  · rw [← List.drop_one, hfull, Nat.add_sub_cancel_left, List.drop_append_of_le_length (by omega)]
  · rw [Nat.sub_eq_zero_of_le (by omega), List.drop_zero]

theorem last_push {b : RingBuffer α} {item : α} (h : 0 < b.capacity) :
    (b.push item).last = some item := by
  rw [last, entries_push, List.drop_append_of_le_length (by omega), List.getLast?_concat]

theorem entries_push_last {b : RingBuffer α} {a : α} (item : α) (h : 2 ≤ b.capacity)
    (ha : b.last = some a) : ∃ l, (b.push item).entries = l ++ [a, item] := by
  obtain ⟨l, hl⟩ := List.getLast?_eq_some_iff.mp ha
  refine ⟨l.drop (l.length + 2 - b.capacity), ?_⟩
  rw [entries_push, hl, List.append_assoc, List.length_append, List.length_singleton,
    List.singleton_append, List.drop_append_of_le_length (by omega)]

/-- What a smaller capacity leaves is the newest part. -/
theorem setCapacity_suffix (b : RingBuffer α) (capacity : Nat) :
    (b.setCapacity capacity).entries <:+ b.entries := List.drop_suffix _ _

end RingBuffer

end Templar
