import Mathlib.Data.List.Range

/-!
# A line of waiting values with numbered tickets

Values wait in the order they came. Each has taken a ticket, and tickets are numbered without a
gap, so the first number and the values say everything.
-/

namespace Templar

structure Line (V : Type) where
  first : Nat
  waiting : List V

namespace Line

variable {V : Type}

def empty : Line V := ⟨0, []⟩

/-- The ticket that is given out next. -/
def next (l : Line V) : Nat := l.first + l.waiting.length

def numbered : Nat → List V → List (Nat × V)
  | _, [] => []
  | n, v :: rest => (n, v) :: numbered (n + 1) rest

def tickets (l : Line V) : List (Nat × V) := numbered l.first l.waiting

def join (l : Line V) (v : V) : Line V := { l with waiting := l.waiting ++ [v] }

def leave (l : Line V) : Line V :=
  match l.waiting with
  | [] => l
  | _ :: rest => ⟨l.first + 1, rest⟩

@[simp] theorem map_fst_numbered (n : Nat) (values : List V) :
    (numbered n values).map Prod.fst = List.range' n values.length := by
  induction values generalizing n with
  | nil => rfl
  | cons v rest ih => simp [numbered, ih, List.range'_succ]

@[simp] theorem map_snd_numbered (n : Nat) (values : List V) :
    (numbered n values).map Prod.snd = values := by
  induction values generalizing n with
  | nil => rfl
  | cons v rest ih => simp [numbered, ih]

theorem numbered_append (n : Nat) (values : List V) (v : V) :
    numbered n (values ++ [v]) = numbered n values ++ [(n + values.length, v)] := by
  induction values generalizing n with
  | nil => rfl
  | cons u rest ih =>
    simp only [List.cons_append, numbered, ih, List.length_cons]
    rw [Nat.add_right_comm, Nat.add_assoc]

theorem tickets_join (l : Line V) (v : V) : (l.join v).tickets = l.tickets ++ [(l.next, v)] :=
  numbered_append l.first l.waiting v

@[simp] theorem next_join (l : Line V) (v : V) : (l.join v).next = l.next + 1 := by
  simp [join, next, Nat.add_assoc]

/-- Nobody's ticket changes when the first leaves. -/
theorem tickets_leave (l : Line V) : l.leave.tickets = l.tickets.tail := by
  unfold leave
  cases h : l.waiting with
  | nil | cons v rest => simp [tickets, h, numbered]

@[simp] theorem next_leave (l : Line V) : l.leave.next = l.next := by
  unfold leave
  cases h : l.waiting with
  | nil => rfl
  | cons v rest =>
    simp only [next, h, List.length_cons]
    rw [Nat.add_right_comm, Nat.add_assoc]

theorem length_leave_le (l : Line V) : l.leave.waiting.length ≤ l.waiting.length := by
  unfold leave
  cases h : l.waiting with
  | nil => simp [h]
  | cons v rest => simp

theorem lt_next_of_mem {l : Line V} {e : Nat × V} (h : e ∈ l.tickets) : e.1 < l.next := by
  have hmem : e.1 ∈ (l.tickets).map Prod.fst := List.mem_map_of_mem h
  rw [tickets, map_fst_numbered, List.mem_range'_1] at hmem
  exact hmem.2

end Line

end Templar
