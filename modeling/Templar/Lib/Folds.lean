import Templar.Lib.Checked

/-!
# Loops that can fail

Rules for `foldlM` and `forM` over `Except`. A loop that succeeds has taken every step, so what
each step does relates its start to its end, and what each check asks holds of every member.
-/

namespace Templar.Checked

open List

variable {ε α β : Type} {f : β → α → Except ε β} {l : List α} {b c : β} {bits n : Nat} {w : α → Nat}

theorem foldlM_cons_eq_ok {a : α} :
    (a :: l).foldlM f b = .ok c ↔ ∃ b', f b a = .ok b' ∧ l.foldlM f b' = .ok c := by
  rw [foldlM_cons, bind_eq_ok]

/-- What relates start and end of each step relates start and end of the loop. -/
theorem foldlM_rel {R : β → β → Prop} (hrefl : ∀ b, R b b) (htrans : ∀ b c d, R b c → R c d → R b d)
    (hstep : ∀ b, ∀ a ∈ l, ∀ c, f b a = .ok c → R b c) (h : l.foldlM f b = .ok c) : R b c := by
  induction l generalizing b with
  | nil =>
    obtain rfl := pure_eq_ok.mp h
    exact hrefl c
  | cons a l ih =>
    obtain ⟨b', hb', h⟩ := foldlM_cons_eq_ok.mp h
    exact htrans b b' c (hstep b a mem_cons_self b' hb')
      (ih (fun b a ha => hstep b a (mem_cons_of_mem _ ha)) h)

/-- A sum built up with checked additions is the sum, and it fits. -/
theorem foldlM_checkedAdd_eq_ok {m : Nat} {e : α → ε} (hn : n < 2 ^ bits) :
    l.foldlM (fun acc a => okOr (checkedAdd bits acc (w a)) (e a)) n = .ok m ↔
      m = n + (l.map w).sum ∧ m < 2 ^ bits := by
  induction l generalizing n with
  | nil =>
    constructor
    · intro h
      obtain rfl := pure_eq_ok.mp h
      exact ⟨rfl, hn⟩
    · rintro ⟨rfl, -⟩
      rfl
  | cons a l ih =>
    rw [foldlM_cons_eq_ok]
    simp only [do_ok, map_cons, sum_cons]
    constructor
    · rintro ⟨_, ⟨hlt, rfl⟩, h⟩
      obtain ⟨rfl, hm⟩ := (ih hlt).mp h
      exact ⟨by omega, hm⟩
    · rintro ⟨rfl, hm⟩
      exact ⟨_, ⟨by omega, rfl⟩, (ih (by omega)).mpr ⟨by omega, hm⟩⟩

/-- A saturating sum that fits is the sum. -/
theorem foldl_saturatingAdd (h : n + (l.map w).sum < 2 ^ bits) :
    l.foldl (fun acc a => saturatingAdd bits acc (w a)) n = n + (l.map w).sum := by
  induction l generalizing n with
  | nil => rfl
  | cons a l ih =>
    simp only [map_cons, sum_cons] at h ⊢
    rw [foldl_cons, saturatingAdd_of_lt (by omega), ih (by omega), Nat.add_assoc]

theorem forM_eq_ok {f : α → Except ε Unit} {u : Unit} :
    l.forM f = .ok u ↔ ∀ a ∈ l, f a = .ok u := by
  induction l with
  | nil => simp [pure, Except.pure]
  | cons a l ih =>
    change (f a >>= fun _ => l.forM f) = .ok u ↔ _
    rw [bind_eq_ok]
    constructor
    · rintro ⟨_, ha, hl⟩ b hb
      rcases mem_cons.mp hb with rfl | hb
      · exact ha
      · exact ih.mp hl b hb
    · intro h
      exact ⟨u, h a mem_cons_self, ih.mpr fun b hb => h b (mem_cons_of_mem _ hb)⟩

end Templar.Checked
