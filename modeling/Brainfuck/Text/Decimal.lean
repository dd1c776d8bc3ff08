/-!
# Brainfuck.Text.Decimal

Whole numbers of 64 bits in decimal: an optional plus sign, then at least one
digit.  Reading goes from left to right and stops at the first thing wrong, so
a text that is both too large and malformed is reported by whichever comes
first.
-/

namespace Brainfuck.Text

/-- Numbers are below this bound, which is `2 ^ 64`. -/
def wordBound : Nat := 18446744073709551616

/-- Why a text is not a number of 64 bits. -/
inductive NumberError where
  | empty
  /-- A character that is not a digit, or a sign without digits. -/
  | invalidDigit
  /-- The digits read so far already exceed 64 bits. -/
  | tooLarge
deriving DecidableEq, Repr

/-- The wording of a number error. -/
def NumberError.message : NumberError → String
  | .empty => "cannot parse integer from empty string"
  | .invalidDigit => "invalid digit found in string"
  | .tooLarge => "number too large to fit in target type"

/-- The value of a decimal digit. -/
def digit? (c : Char) : Option Nat :=
  if '0' ≤ c ∧ c ≤ '9' then some (c.toNat - '0'.toNat) else none

/-- Reads the remaining digits behind those that make up `value`. -/
def readDigits (value : Nat) : List Char → Except NumberError Nat
  | [] => .ok value
  | c :: rest =>
    match digit? c with
    | none => .error .invalidDigit
    | some d =>
      if value * 10 + d < wordBound then readDigits (value * 10 + d) rest else .error .tooLarge

/-- Reads a number of 64 bits. -/
def readWord (s : String) : Except NumberError Nat :=
  match s.toList with
  | [] => .error .empty
  | ['+'] => .error .invalidDigit
  | '+' :: digits => readDigits 0 digits
  | digits => readDigits 0 digits

/-- The decimal text of a number. -/
def decimal (n : Nat) : String := String.ofList (Nat.toDigits 10 n)

end Brainfuck.Text
