import Brainfuck.Text.Decimal
import Brainfuck.Text.Quoted

/-!
# Brainfuck.Action

What one executed instruction did, and the record that a machine keeps of it.
-/

namespace Brainfuck

open Text

/-- The effect of one executed instruction.  A jump names the bracket behind which
execution goes on. -/
inductive Action where
  | moved (target : Nat)
  | incremented (before after : UInt8)
  | decremented (before after : UInt8)
  | wrote (byte : UInt8)
  | read (byte : UInt8)
  | jumpedForward (target : Nat)
  | enteredLoop
  | jumpedBack (target : Nat)
  | exitedLoop
  /-- There was no partner to jump to. -/
  | fellThrough
  | ignored
deriving DecidableEq, Repr

/-- The description of an action. -/
def Action.text : Action → String
  | .moved target => "Moved pointer head to index " ++ decimal target
  | .incremented before after =>
    "Increment cell from " ++ decimal before.toNat ++ " to " ++ decimal after.toNat
  | .decremented before after =>
    "Decrement cell from " ++ decimal before.toNat ++ " to " ++ decimal after.toNat
  | .wrote byte =>
    "Output byte " ++ decimal byte.toNat ++ " (" ++ quotedChar (Char.ofNat byte.toNat) ++ ")"
  | .read byte => "Read byte from input -> " ++ decimal byte.toNat
  | .jumpedForward target => "Cell is 0; jump forward to ']' at IP " ++ decimal target
  | .enteredLoop => "Enter loop (cell != 0)"
  | .jumpedBack target => "Cell != 0; jump back to '[' at IP " ++ decimal target
  | .exitedLoop => "Exit loop (cell is 0)"
  | .fellThrough => "No matching bracket; fall through"
  | .ignored => "Ignored"

/-- The record of one executed instruction, with the pointer and the current cell as they
were before it. -/
structure Step where
  ip : Nat
  instruction : Char
  pointer : Nat
  cell : UInt8
  action : Action
deriving DecidableEq, Repr

end Brainfuck
