import Brainfuck.Proofs.Execution

/-!
# Brainfuck.Proofs.Reach

Which cells of a tape have ever been used.

Whatever is done to a tape, it is one of three things (`Tape.Touches`): nothing,
a new value for the current cell, or a new current cell.  So the cells that are
not zero and the high-water mark are accounted for by the places where the
pointer has stood, one after the other (`Tape.Visited`):

* `Performs.touches`, `touches_of_step` — what an instruction does to its tape;
* `Touches.mark_le`, `Touches.policy_capacity` — what it leaves as it is;
* `visited_blank`, `Touches.visited` — the account at the beginning, and one entry
  later.

Cells are looked up by `Tape.cell`, which does not need to know whether there is
one: a tape that ends reads like one that goes on with zeros.
-/

namespace Brainfuck

namespace Tape

/-- The value of a cell, and zero where there is none. -/
def cell (t : Tape) (i : Nat) : UInt8 := t.cells.getD i 0

/-- `t.Touches t'`: with one operation at most, `t` becomes `t'`. -/
inductive Touches (t : Tape) : Tape → Prop where
  | same : Touches t t
  | store (v : UInt8) : Touches t (t.store v)
  | seek (i : Fin t.cells.size) : Touches t (t.seek i)

/-- The pointer of `t` has stood on the cells `ps`, and on no others. -/
structure Visited (t : Tape) (ps : List Nat) : Prop where
  pointer : t.pointer ∈ ps
  mark : t.mark ∈ ps
  le_mark : ∀ p ∈ ps, p ≤ t.mark
  zero : ∀ i, i ∉ ps → t.cell i = 0

variable {t t' : Tape} {ps : List Nat}

/-! ## single cells -/

theorem value_eq_cell (t : Tape) : t.value = t.cell t.pointer := by
  have h := t.pointer_lt
  simp [value, cell, h]

theorem cell_store (t : Tape) (v : UInt8) (i : Nat) :
    (t.store v).cell i = if i = t.pointer then v else t.cell i := by
  have h := t.pointer_lt
  simp only [cell, store, Array.getD_eq_getD_getElem?, Array.getElem?_set]
  by_cases hi : i = t.pointer
  · simp [hi]
  · simp [hi, Ne.symm hi]

@[simp] theorem cell_seek (t : Tape) (i : Fin t.cells.size) (j : Nat) :
    (t.seek i).cell j = t.cell j := rfl

theorem cell_blank (capacity : Nat) (policy : PointerPolicy) (i : Nat) :
    (blank capacity policy).cell i = 0 := by
  rw [cell, blank, Array.getD_eq_getD_getElem?, Array.getElem?_replicate]
  split <;> rfl

theorem value?_eq_cell {i : Nat} (h : i < t.capacity) : t.value? i = some (t.cell i) := by
  have h : i < t.cells.size := h
  simp [value?, cell, h]

/-! ## operations -/

theorem touches_of_move? {dir : Direction} (h : t.move? dir = some t') : t.Touches t' := by
  obtain ⟨i, -, rfl⟩ := Option.map_eq_some_iff.mp h
  exact .seek i

theorem Touches.policy_capacity (h : t.Touches t') :
    t'.policy = t.policy ∧ t'.capacity = t.capacity := by
  cases h with
  | same => exact ⟨rfl, rfl⟩
  | store v => exact ⟨rfl, capacity_store t v⟩
  | seek i => exact ⟨rfl, rfl⟩

theorem Touches.mark_le (h : t.Touches t') : t.mark ≤ t'.mark := by
  cases h with
  | same => exact Nat.le_refl _
  | store v => exact Nat.le_refl _
  | seek i => exact Nat.le_max_left _ _

/-! ## where the pointer has been -/

theorem visited_blank (capacity : Nat) (policy : PointerPolicy) :
    (blank capacity policy).Visited [0] where
  pointer := List.mem_singleton_self _
  mark := List.mem_singleton_self _
  le_mark _ hp := Nat.le_of_eq (List.mem_singleton.mp hp)
  zero i _ := cell_blank capacity policy i

/-- Where the pointer stands after an operation is the one place to add. -/
theorem Touches.visited (h : t.Touches t') (hps : t.Visited ps) :
    t'.Visited (ps ++ [t'.pointer]) := by
  -- To stay where the pointer stands adds nothing new.
  have hsame : ∀ p, p ∈ ps ++ [t.pointer] ↔ p ∈ ps := by
    intro p
    rw [List.mem_append, List.mem_singleton]
    exact ⟨fun h => h.elim id fun h => h ▸ hps.pointer, .inl⟩
  cases h with
  | same =>
    exact ⟨by simp, (hsame _).mpr hps.mark, fun p hp => hps.le_mark p ((hsame p).mp hp),
      fun i hi => hps.zero i fun h => hi ((hsame i).mpr h)⟩
  | store v =>
    refine ⟨by simp, (hsame _).mpr hps.mark, fun p hp => hps.le_mark p ((hsame p).mp hp),
      fun i hi => ?_⟩
    have hi : i ∉ ps := fun h => hi ((hsame i).mpr h)
    have hne : i ≠ t.pointer := fun h => hi (h ▸ hps.pointer)
    rw [cell_store, if_neg hne]
    exact hps.zero i hi
  | seek i =>
    refine ⟨by simp, ?_, fun p hp => ?_, fun j hj => ?_⟩
    · show max t.mark i ∈ ps ++ [i.val]
      obtain hle | hle := Nat.le_total t.mark i
      · simp [Nat.max_eq_right hle]
      · simp [Nat.max_eq_left hle, hps.mark]
    · show p ≤ max t.mark i
      obtain hp | hp := List.mem_append.mp hp
      · exact Nat.le_trans (hps.le_mark p hp) (Nat.le_max_left _ _)
      · rw [List.mem_singleton.mp hp]
        exact Nat.le_max_right _ _
    · rw [cell_seek]
      exact hps.zero j fun h => hj (List.mem_append_left _ h)

theorem Visited.zero_of_mark_lt (h : t.Visited ps) {i : Nat} (hi : t.mark < i) : t.cell i = 0 :=
  h.zero i fun hmem => Nat.not_le_of_lt hi (h.le_mark i hmem)

end Tape

namespace Machine

variable {m m' : Machine} {s : Step} {ss : List Step}

/-! ## instructions -/

theorem Performs.touches {i : Instruction} {a : Action} {j : Nat} {d : Device}
    (h : m.Performs i a j d) : m.device.tape.Touches d.tape := by
  cases h with
  | move h => exact Tape.touches_of_move? h
  | increment | decrement | readByte | readEnd => exact .store _
  | write | enterLoop | jumpForward | passStart | exitLoop | jumpBack | passEnd | comment =>
    exact .same

theorem touches_of_step (h : m.step = (.stepped s, m')) :
    m.device.tape.Touches m'.device.tape := by
  obtain ⟨c, a, j, d, -, hp, -, rfl⟩ := step_eq_stepped_iff.mp h
  exact hp.touches

theorem Executes.mark_le (h : m.Executes ss m') : m.device.tape.mark ≤ m'.device.tape.mark := by
  induction h with
  | nil => exact Nat.le_refl _
  | cons head _ ih => exact Nat.le_trans (touches_of_step head).mark_le ih

/-- An execution adds to the places where the pointer has been. -/
theorem Executes.visited {ps : List Nat} (h : m.Executes ss m')
    (hps : m.device.tape.Visited ps) : ∃ ps', m'.device.tape.Visited ps' := by
  induction h generalizing ps with
  | nil => exact ⟨ps, hps⟩
  | cons head _ ih => exact ih ((touches_of_step head).visited hps)

end Machine

end Brainfuck
