import Brainfuck.Action
import Brainfuck.Text.Blank

/-!
# Brainfuck.Trace

The table of executed steps.  Each step is one row: its number, then the
position, pointer and cell it found, the instruction, and what it did.  Numbers
stand at the left of columns that grow when they have to, and an instruction
that is white space is shown as a space, so a row is always one line.
-/

namespace Brainfuck

open Text

namespace Trace

/-- The names of the columns. -/
def header : String := "STEP | IP  | PTR | CELL | INSTR | ACTION"

/-- The line under the names. -/
def rule : String :=
  "-----+-----+-----+------+-------+------------------------------------------------"

/-- A number at the left of a column of the given width. -/
def column (width n : Nat) : String :=
  let digits := decimal n
  digits ++ String.ofList (List.replicate (width - digits.length) ' ')

/-- How the table shows an instruction. -/
def shown (c : Char) : Char := if isBlank c then ' ' else c

/-- The row of a step with the given number. -/
def row (index : Nat) (s : Step) : String :=
  column 4 index ++ " | " ++ column 3 s.ip ++ " | " ++ column 3 s.pointer ++ " | " ++
    column 4 s.cell.toNat ++ " |  " ++ (shown s.instruction).toString ++ "    | " ++ s.action.text

end Trace

end Brainfuck
