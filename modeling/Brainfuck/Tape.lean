/-!
# Brainfuck.Tape

The memory of a program: a fixed number of byte cells in a row, a pointer to
the current one, and the high-water mark, which is the furthest cell the
pointer has ever stood on.  Cells count modulo 256.  What a move off either end
does is fixed by the tape's policy: a strict tape refuses it, a wrapping tape
goes to the opposite end.

The bounds are part of the type (`pointer ≤ mark < capacity`), so the current
cell always exists.
-/

namespace Brainfuck

/-- The two ways a pointer can move. -/
inductive Direction where
  | left
  | right
deriving DecidableEq, Repr

/-- The word for a direction. -/
def Direction.word : Direction → String
  | .left => "left"
  | .right => "right"

/-- What happens when the pointer would leave the tape. -/
inductive PointerPolicy where
  /-- The move is refused. -/
  | strict
  /-- The move goes to the opposite end. -/
  | wrap
deriving DecidableEq, Repr

/-- The word for a policy, as settings spell it. -/
def PointerPolicy.word : PointerPolicy → String
  | .strict => "strict"
  | .wrap => "wrap"

/-- A row of byte cells with a pointer and a high-water mark. -/
structure Tape where
  cells : Array UInt8
  pointer : Nat
  /-- The largest index the pointer has ever had. -/
  mark : Nat
  policy : PointerPolicy
  pointer_le : pointer ≤ mark
  mark_lt : mark < cells.size

namespace Tape

/-- The number of cells of a tape for which nothing else is asked. -/
def defaultCapacity : Nat := 30000

/-- No tape has this many cells (`2 ^ 63`) or more: they could not be addressed. -/
def capacityBound : Nat := 9223372036854775808

/-- A tape of zeros.  Every tape has at least one cell. -/
def blank (capacity : Nat) (policy : PointerPolicy) : Tape where
  cells := Array.replicate (max capacity 1) 0
  pointer := 0
  mark := 0
  policy := policy
  pointer_le := Nat.le_refl 0
  mark_lt := by
    rw [Array.size_replicate]
    exact Nat.lt_of_lt_of_le Nat.zero_lt_one (Nat.le_max_right capacity 1)

/-- A tape of zeros, if so many cells can be addressed. -/
def blank? (capacity : Nat) (policy : PointerPolicy) : Option Tape :=
  if capacity < capacityBound then some (blank capacity policy) else none

/-- The number of cells. -/
def capacity (t : Tape) : Nat := t.cells.size

theorem pointer_lt (t : Tape) : t.pointer < t.cells.size :=
  Nat.lt_of_le_of_lt t.pointer_le t.mark_lt

/-- The value of the current cell. -/
def value (t : Tape) : UInt8 :=
  have := t.pointer_lt
  t.cells[t.pointer]

/-- The value of any cell, if there is a cell of that index. -/
def value? (t : Tape) (index : Nat) : Option UInt8 := t.cells[index]?

/-- The cells that are not zero, with their indices, in order. -/
def nonzero (t : Tape) : List (Nat × UInt8) :=
  (t.cells.toList.zipIdx.map fun (v, i) => (i, v)).filter fun (_, v) => v != 0

/-- The index a move leads to, unless the tape refuses the move. -/
def target? (t : Tape) : Direction → Option (Fin t.cells.size)
  | .left =>
    if 0 < t.pointer then some ⟨t.pointer - 1, Nat.lt_of_le_of_lt (Nat.sub_le ..) t.pointer_lt⟩
    else
      match t.policy with
      | .strict => none
      | .wrap => some ⟨t.cells.size - 1, Nat.sub_one_lt_of_lt t.mark_lt⟩
  | .right =>
    if h : t.pointer + 1 < t.cells.size then some ⟨t.pointer + 1, h⟩
    else
      match t.policy with
      | .strict => none
      | .wrap => some ⟨0, Nat.zero_lt_of_lt t.mark_lt⟩

/-- Puts the pointer on a cell and raises the mark if it has never been so far. -/
def seek (t : Tape) (index : Fin t.cells.size) : Tape :=
  { t with
    pointer := index
    mark := max t.mark index
    pointer_le := Nat.le_max_right ..
    mark_lt := Nat.max_lt.2 ⟨t.mark_lt, index.isLt⟩ }

/-- Moves the pointer by one cell, unless the tape refuses the move. -/
def move? (t : Tape) (d : Direction) : Option Tape := (t.target? d).map t.seek

/-- Replaces the value of the current cell. -/
def store (t : Tape) (v : UInt8) : Tape :=
  have := t.pointer_lt
  { t with
    cells := t.cells.set t.pointer v
    mark_lt := by rw [Array.size_set]; exact t.mark_lt }

/-- Adds one to the current cell, modulo 256. -/
def increment (t : Tape) : Tape := t.store (t.value + 1)

/-- Takes one from the current cell, modulo 256. -/
def decrement (t : Tape) : Tape := t.store (t.value - 1)

/-! ## what the operations do to the parts of a tape -/

@[simp] theorem capacity_blank (n : Nat) (p : PointerPolicy) : (blank n p).capacity = max n 1 := by
  simp [capacity, blank]

@[simp] theorem capacity_seek (t : Tape) (i : Fin t.cells.size) :
    (t.seek i).capacity = t.capacity := rfl

@[simp] theorem capacity_store (t : Tape) (v : UInt8) : (t.store v).capacity = t.capacity := by
  simp [capacity, store]

@[simp] theorem value_store (t : Tape) (v : UInt8) : (t.store v).value = v := by
  simp [value, store]

end Tape

end Brainfuck
