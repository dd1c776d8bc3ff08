/-!
# Brainfuck.Text.Blank

White space in the sense of the Unicode property `White_Space`, and texts
without the white space around them.

* `isBlank_of_isWhitespace` — every ASCII white-space character is blank.
-/

namespace Brainfuck.Text

/-- The code points with the property `White_Space`, as closed ranges in
ascending order. -/
def blankRanges : List (Nat × Nat) :=
  [(0x09, 0x0D), (0x20, 0x20), (0x85, 0x85), (0xA0, 0xA0), (0x1680, 0x1680),
   (0x2000, 0x200A), (0x2028, 0x2029), (0x202F, 0x202F), (0x205F, 0x205F), (0x3000, 0x3000)]

/-- Whether a code point lies in one of the ranges.  The ranges ascend, so the
search stops at the first one that starts too late. -/
def inRanges (code : Nat) : List (Nat × Nat) → Bool
  | [] => false
  | (low, high) :: rest =>
    if code < low then false
    else if code ≤ high then true
    else inRanges code rest

/-- Whether a character is white space. -/
def isBlank (c : Char) : Bool := inRanges c.toNat blankRanges

/-- The text without the white space at its two ends. -/
def trim (s : String) : String :=
  String.ofList (((s.toList.dropWhile isBlank).reverse.dropWhile isBlank).reverse)

theorem isBlank_of_isWhitespace {c : Char} (h : c.isWhitespace) : isBlank c := by
  simp only [Char.isWhitespace, Bool.or_eq_true, decide_eq_true_eq] at h
  rcases h with ((rfl | rfl) | rfl) | rfl <;> rfl

end Brainfuck.Text
