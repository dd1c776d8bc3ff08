import Brainfuck.Fault
import Brainfuck.Text.Utf8

/-!
# Brainfuck.Report

Reports of a fault for a reader of the program: the wording, then an excerpt of
the program text around the place, and a caret under it.

The excerpt reaches 32 characters to either side.  Line breaks and tabs in it
become spaces, one for one, so that the caret stays under the right character.
-/

namespace Brainfuck

open Text

/-- A piece of program text and the line that points into it. -/
structure Excerpt where
  snippet : String
  caret : String
deriving DecidableEq, Repr

namespace Excerpt

/-- How many characters an excerpt shows to either side of its place. -/
def reach : Nat := 32

/-- How an excerpt shows a character. -/
def flat (c : Char) : Char := if c = '\n' ∨ c = '\r' ∨ c = '\t' then ' ' else c

/-- The excerpt around a position, which may lie behind the end of the text; there is
none if the position behind it does not fit in 64 bits. -/
def around? (code : String) (pos : Nat) : Option Excerpt :=
  if pos + reach + 1 < wordBound then
    let start := pos - reach
    let stop := min (pos + reach + 1) code.length
    (slice? code (byteIndex code start) (byteIndex code stop)).map fun piece =>
      { snippet := String.ofList (piece.toList.map flat)
        caret := String.ofList (List.replicate (pos - start) ' ' ++ ['^']) }
  else none

end Excerpt

namespace Report

/-- A headline about a position, with the excerpt around it. -/
def located (headline code : String) (pos : Nat) : Option String :=
  (Excerpt.around? code pos).map fun e =>
    headline ++ " at instruction " ++ decimal pos ++ "\n  " ++ e.snippet ++ "\n  " ++ e.caret ++ "\n"

/-- A text with the name of the program in front, if there is one. -/
def named (program : Option String) (text : String) : String :=
  match program with
  | none => text
  | some name => name ++ ": " ++ text

/-- The report of a fault in the given program text. -/
def ofFault (program : Option String) (code : String) : Fault → Option String
  | .pointerOutOfBounds ip pointer instruction =>
    located
      (named program ("Runtime error: pointer out of bounds (ptr=" ++ decimal pointer ++ ", op=" ++
        instruction.toString ++ ")"))
      code ip
  | .unmatchedBracket ip bracket =>
    located (named program ("Runtime error: unmatched bracket " ++ bracket.quoted)) code ip
  | fault => some (fault.message ++ "\n")

end Report

end Brainfuck
