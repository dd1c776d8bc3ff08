import Brainfuck.Machine

/-!
# Brainfuck.Settings

Everything about a machine that a user can set, and the words for it.
-/

namespace Brainfuck

/-- The settings of a machine and of the command that runs it. -/
structure Settings where
  tapeSize : Nat
  /-- The pause after each step, in milliseconds. -/
  stepDelay : Nat
  maxSteps : Option Nat
  /-- The time a run may take, in milliseconds; zero stands for any. -/
  timeout : Nat
  pointerPolicy : PointerPolicy
  bracketMode : BracketMode
deriving DecidableEq, Repr

/-- A word that is none of those expected. -/
structure UnknownWord where
  /-- What the word should have named. -/
  subject : String
  /-- The word, in lower case. -/
  word : String
  expected : String × String
deriving DecidableEq, Repr

/-- The wording for an unknown word. -/
def UnknownWord.message (e : UnknownWord) : String :=
  "unknown " ++ e.subject ++ " '" ++ e.word ++ "', expected '" ++ e.expected.1 ++ "' or '" ++
    e.expected.2 ++ "'"

/-- Reads the word for a policy, in any mixture of upper and lower case. -/
def PointerPolicy.ofWord (s : String) : Except UnknownWord PointerPolicy :=
  match s.toLower with
  | "strict" => .ok .strict
  | "wrap" => .ok .wrap
  | other => .error ⟨"pointer policy", other, ("strict", "wrap")⟩

/-- Reads the word for a bracket mode, in any mixture of upper and lower case. -/
def BracketMode.ofWord (s : String) : Except UnknownWord BracketMode :=
  match s.toLower with
  | "permissive" => .ok .permissive
  | "strict" => .ok .strict
  | other => .error ⟨"bracket mode", other, ("permissive", "strict")⟩

namespace Settings

/-- The settings of someone who has set nothing. -/
def default : Settings where
  tapeSize := Tape.defaultCapacity
  stepDelay := 0
  maxSteps := none
  timeout := 2000
  pointerPolicy := .strict
  bracketMode := .permissive

/-- The machine for a program, if so many cells can be addressed. -/
def machine? (s : Settings) (program : Program) : Option Machine :=
  (Device.blank? s.tapeSize s.pointerPolicy).map fun d =>
    { Machine.load program d with
      delay := s.stepDelay, limit := s.maxSteps, mode := s.bracketMode }

end Settings

end Brainfuck
