import Brainfuck.Text.Decimal
import Brainfuck.Text.Quoted
import Brainfuck.Text.Record

/-!
# Brainfuck.Fault

Why a machine stopped before the end of its program.
-/

namespace Brainfuck

open Text

/-- The two kinds of bracket. -/
inductive Bracket where
  | opening
  | closing
deriving DecidableEq, Repr

namespace Bracket

/-- The bracket between single quotes. -/
def quoted : Bracket → String
  | .opening => "'['"
  | .closing => "']'"

/-- The word for a kind of bracket. -/
def word : Bracket → String
  | .opening => "Open"
  | .closing => "Close"

end Bracket

/-- Why a machine stopped. -/
inductive Fault where
  | pointerOutOfBounds (ip pointer : Nat) (instruction : Char)
  | unmatchedBracket (ip : Nat) (bracket : Bracket)
  | stepLimit (limit : Nat)
  | cancelled (ip : Nat)
deriving DecidableEq, Repr

namespace Fault

/-- The position at which the machine stopped, if the fault has one. -/
def ip? : Fault → Option Nat
  | .pointerOutOfBounds ip _ _ => some ip
  | .unmatchedBracket ip _ => some ip
  | .stepLimit _ => none
  | .cancelled ip => some ip

/-- The wording of a fault. -/
def message : Fault → String
  | .pointerOutOfBounds ip pointer instruction =>
    "Pointer out of bounds at instruction " ++ decimal ip ++ " (ptr=" ++ decimal pointer ++
      ", op='" ++ instruction.toString ++ "')"
  | .unmatchedBracket ip bracket =>
    "Unmatched bracket " ++ bracket.quoted ++ " at instruction " ++ decimal ip
  | .stepLimit limit => "Execution aborted: step limit exceeded (" ++ decimal limit ++ ")"
  | .cancelled ip => "Execution aborted: cancelled at instruction " ++ decimal ip

/-- The inspection form of a fault. -/
def inspect : Fault → String
  | .pointerOutOfBounds ip pointer instruction =>
    record "PointerOutOfBounds"
      [("ip", decimal ip), ("ptr", decimal pointer), ("op", quotedChar instruction)]
  | .unmatchedBracket ip bracket =>
    record "UnmatchedBracket" [("ip", decimal ip), ("kind", bracket.word)]
  | .stepLimit limit => record "StepLimitExceeded" [("limit", decimal limit)]
  | .cancelled ip => record "Cancelled" [("ip", decimal ip)]

end Fault

end Brainfuck
