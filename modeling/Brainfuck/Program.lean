import Brainfuck.Tape

/-!
# Brainfuck.Program

A program is its text: every character is a position, eight of them are
instructions and all others are comments.

A bracket finds its partner by looking for the nearest bracket of the other
kind, and does not count the brackets in between: an opening bracket takes the
first closing one from its own position on, a closing bracket the last opening
one before it.

* `firstClose?_eq_some_iff`, `lastOpen?_eq_some_iff` — what the two searches find;
* `firstClose?_eq_none_iff`, `lastOpen?_eq_none_iff` — when they find nothing.
-/

namespace Brainfuck

/-- The meanings of the characters. -/
inductive Instruction where
  | move (direction : Direction)
  | increment
  | decrement
  | write
  | read
  | loopStart
  | loopEnd
  | comment
deriving DecidableEq, Repr

/-- The meaning of a character. -/
def Instruction.ofChar : Char → Instruction
  | '<' => .move .left
  | '>' => .move .right
  | '+' => .increment
  | '-' => .decrement
  | '.' => .write
  | ',' => .read
  | '[' => .loopStart
  | ']' => .loopEnd
  | _ => .comment

/-- A program text, with constant-time access to its characters. -/
structure Program where
  chars : Array Char
deriving DecidableEq, Repr

namespace Program

/-- The program with the given text. -/
def ofText (s : String) : Program := ⟨s.toList.toArray⟩

/-- The text of a program. -/
def text (p : Program) : String := String.ofList p.chars.toList

/-- The number of characters. -/
def size (p : Program) : Nat := p.chars.size

/-- The character at a position. -/
def at? (p : Program) (i : Nat) : Option Char := p.chars[i]?

/-- The first position of a character in a list that starts at position `i`. -/
def firstFrom? (c : Char) (i : Nat) : List Char → Option Nat
  | [] => none
  | x :: rest => if x = c then some i else firstFrom? c (i + 1) rest

/-- The position of the first closing bracket at or after `i`. -/
def firstClose? (p : Program) (i : Nat) : Option Nat := firstFrom? ']' i (p.chars.toList.drop i)

/-- The position of the last opening bracket before `i`. -/
def lastOpen? (p : Program) : Nat → Option Nat
  | 0 => none
  | i + 1 => if p.at? i = some '[' then some i else p.lastOpen? i

/-! ## what the searches find -/

theorem at?_eq_none_iff (p : Program) (i : Nat) : p.at? i = none ↔ p.size ≤ i :=
  Array.getElem?_eq_none_iff

theorem lt_size_of_at? {p : Program} {i : Nat} {c : Char} (h : p.at? i = some c) : i < p.size :=
  (Array.getElem?_eq_some_iff.mp h).1

theorem firstFrom?_eq_some_iff (c : Char) (i j : Nat) (cs : List Char) :
    firstFrom? c i cs = some j ↔
      i ≤ j ∧ cs[j - i]? = some c ∧ ∀ k, i ≤ k → k < j → cs[k - i]? ≠ some c := by
  induction cs generalizing i with
  | nil => simp [firstFrom?]
  | cons x rest ih =>
    rw [firstFrom?]
    split
    · next hx =>
      subst hx
      constructor
      · intro h
        obtain rfl := Option.some.inj h
        exact ⟨Nat.le_refl _, by simp, fun k h1 h2 => by omega⟩
      · intro h
        obtain ⟨hij, _, hmin⟩ := h
        obtain hlt | hge := Nat.lt_or_ge i j
        · exact absurd (by simp) (hmin i (Nat.le_refl i) hlt)
        · rw [Nat.le_antisymm hij hge]
    · next hx =>
      rw [ih]
      constructor
      · intro h
        obtain ⟨hij, hj, hmin⟩ := h
        refine ⟨by omega, ?_, fun k hik hkj => ?_⟩
        · rw [show j - i = (j - (i + 1)) + 1 by omega]; simpa using hj
        · obtain rfl | hlt := Nat.eq_or_lt_of_le hik
          · simpa using hx
          · rw [show k - i = (k - (i + 1)) + 1 by omega]
            simpa using hmin k hlt hkj
      · intro h
        obtain ⟨hij, hj, hmin⟩ := h
        have hne : i ≠ j := by rintro rfl; simp at hj; exact hx hj
        have hlt : i < j := by omega
        refine ⟨hlt, ?_, fun k hik hkj => ?_⟩
        · rw [show j - i = (j - (i + 1)) + 1 by omega] at hj; simpa using hj
        · have := hmin k (by omega) hkj
          rw [show k - i = (k - (i + 1)) + 1 by omega] at this
          simpa using this

/-- The forward search finds a closing bracket with none in between. -/
theorem firstClose?_eq_some_iff (p : Program) (i j : Nat) :
    p.firstClose? i = some j ↔
      i ≤ j ∧ p.at? j = some ']' ∧ ∀ k, i ≤ k → k < j → p.at? k ≠ some ']' := by
  rw [firstClose?, firstFrom?_eq_some_iff]
  have key : ∀ k, i ≤ k → (p.chars.toList.drop i)[k - i]? = p.at? k := fun k hk => by
    rw [List.getElem?_drop, at?, Array.getElem?_toList, Nat.add_sub_cancel' hk]
  constructor
  · intro h
    obtain ⟨hij, hj, hmin⟩ := h
    exact ⟨hij, by rw [← key j hij]; exact hj, fun k h1 h2 => by rw [← key k h1]; exact hmin k h1 h2⟩
  · intro h
    obtain ⟨hij, hj, hmin⟩ := h
    exact ⟨hij, by rw [key j hij]; exact hj, fun k h1 h2 => by rw [key k h1]; exact hmin k h1 h2⟩

/-- The backward search finds an opening bracket with none in between. -/
theorem lastOpen?_eq_some_iff (p : Program) (i j : Nat) :
    p.lastOpen? i = some j ↔
      j < i ∧ p.at? j = some '[' ∧ ∀ k, j < k → k < i → p.at? k ≠ some '[' := by
  induction i with
  | zero => simp [lastOpen?]
  | succ i ih =>
    rw [lastOpen?]
    split
    · next hi =>
      constructor
      · intro h
        obtain rfl := Option.some.inj h
        exact ⟨Nat.lt_succ_self _, hi, fun k h1 h2 => by omega⟩
      · intro h
        obtain ⟨hj, _, hmin⟩ := h
        obtain hlt | hge := Nat.lt_or_ge j i
        · exact absurd hi (hmin i hlt (Nat.lt_succ_self i))
        · rw [show i = j by omega]
    · next hi =>
      rw [ih]
      constructor
      · intro h
        obtain ⟨hj, hc, hmin⟩ := h
        refine ⟨by omega, hc, fun k h1 h2 => ?_⟩
        obtain rfl | hlt := Nat.eq_or_lt_of_le (Nat.le_of_lt_succ h2)
        · exact hi
        · exact hmin k h1 hlt
      · intro h
        obtain ⟨hj, hc, hmin⟩ := h
        have : j ≠ i := by rintro rfl; exact hi hc
        exact ⟨by omega, hc, fun k h1 h2 => hmin k h1 (by omega)⟩

/-! ## where the searches find nothing -/

theorem firstFrom?_eq_none_iff (c : Char) (i : Nat) (cs : List Char) :
    firstFrom? c i cs = none ↔ c ∉ cs := by
  induction cs generalizing i with
  | nil => simp [firstFrom?]
  | cons x rest ih =>
    rw [firstFrom?, List.mem_cons, not_or, eq_comm (a := c)]
    split
    · next hx => simp [hx]
    · next hx => simp [hx, ih]

/-- The forward search fails when no closing bracket follows. -/
theorem firstClose?_eq_none_iff (p : Program) (i : Nat) :
    p.firstClose? i = none ↔ ∀ j, i ≤ j → p.at? j ≠ some ']' := by
  rw [firstClose?, firstFrom?_eq_none_iff]
  constructor
  · intro h j hj hclose
    refine h (List.mem_iff_getElem?.mpr ⟨j - i, ?_⟩)
    rw [List.getElem?_drop, Nat.add_sub_cancel' hj, Array.getElem?_toList]
    exact hclose
  · intro h hmem
    obtain ⟨k, hk⟩ := List.mem_iff_getElem?.mp hmem
    rw [List.getElem?_drop, Array.getElem?_toList] at hk
    exact h (i + k) (Nat.le_add_right i k) hk

/-- The forward search looks at one character after the other. -/
theorem firstClose?_of_at? {p : Program} {i : Nat} {c : Char} (h : p.at? i = some c) :
    p.firstClose? i = if c = ']' then some i else p.firstClose? (i + 1) := by
  have hdrop : p.chars.toList.drop i = c :: p.chars.toList.drop (i + 1) := by
    rw [at?, ← Array.getElem?_toList] at h
    obtain ⟨hlt, rfl⟩ := List.getElem?_eq_some_iff.mp h
    exact List.drop_eq_getElem_cons hlt
  rw [firstClose?, hdrop, firstFrom?, firstClose?]

/-- The backward search fails when no opening bracket comes before. -/
theorem lastOpen?_eq_none_iff (p : Program) (i : Nat) :
    p.lastOpen? i = none ↔ ∀ j, j < i → p.at? j ≠ some '[' := by
  induction i with
  | zero => simp [lastOpen?]
  | succ i ih =>
    rw [lastOpen?]
    split
    · next hi => exact ⟨nofun, fun h => absurd hi (h i (Nat.lt_succ_self i))⟩
    · next hi =>
      rw [ih]
      constructor
      · intro h j hj
        obtain rfl | hlt := Nat.eq_or_lt_of_le (Nat.le_of_lt_succ hj)
        · exact hi
        · exact h j hlt
      · intro h j hj
        exact h j (Nat.lt_succ_of_lt hj)

end Program

end Brainfuck
