import Brainfuck.Toml.Line
import Brainfuck.Toml.Value

/-!
# Brainfuck.Toml.Scalar

Numbers, truth values, dates and times.  Digits may be separated by single
underscores; a decimal number does not start with a zero unless it is one.
-/

namespace Brainfuck.Toml

open Text

/-- Reads digits of some kind, single underscores between them left out. -/
def digits (isDigit : Char → Bool) : List Char → List Char × List Char
  | '_' :: c :: rest =>
    if isDigit c then
      let (ds, rest) := digits isDigit rest
      (c :: ds, rest)
    else ([], '_' :: c :: rest)
  | c :: rest =>
    if isDigit c then
      let (ds, rest) := digits isDigit rest
      (c :: ds, rest)
    else ([], c :: rest)
  | [] => ([], [])

/-- Reads at least one digit of some kind. -/
def digits1? (isDigit : Char → Bool) : Reader (List Char)
  | c :: rest =>
    if isDigit c then
      let (ds, rest) := digits isDigit rest
      some (c :: ds, rest)
    else none
  | [] => none

/-- The number that digits spell in a base. -/
def valueOf (base : Nat) (ds : List Char) : Nat :=
  ds.foldl (fun n c => base * n + (charDigit c)) 0
where
  /-- The value of a digit in any base up to sixteen. -/
  charDigit (c : Char) : Nat :=
    if c ≤ '9' then c.toNat - '0'.toNat
    else if c ≤ 'F' then c.toNat - 'A'.toNat + 10
    else c.toNat - 'a'.toNat + 10

/-- A digit in base sixteen. -/
def isHexDigit (c : Char) : Bool :=
  c.isDigit || ('a' ≤ c && c ≤ 'f') || ('A' ≤ c && c ≤ 'F')

/-- A digit in base eight. -/
def isOctalDigit (c : Char) : Bool := '0' ≤ c && c ≤ '7'

/-- A digit in base two. -/
def isBinaryDigit (c : Char) : Bool := c == '0' || c == '1'

/-- Reads a sign and tells whether it is a minus. -/
def sign : List Char → Bool × List Char
  | '+' :: rest => (false, rest)
  | '-' :: rest => (true, rest)
  | cs => (false, cs)

/-- Reads decimal digits without a leading zero. -/
def wholeDigits? : Reader (List Char)
  | '0' :: rest => some (['0'], rest)
  | cs => digits1? Char.isDigit cs

/-- Whole numbers are below this bound, which is `2 ^ 63`, and not below its negative. -/
def integerBound : Int := 9223372036854775808

/-- A whole number, if it is in bounds. -/
def integerOf? (negative : Bool) (n : Nat) : Option Value :=
  let z : Int := if negative then -(n : Int) else n
  if -integerBound ≤ z ∧ z < integerBound then some (.integer z) else none

/-- Reads a whole number. -/
def integer? : Reader Value
  | '0' :: 'x' :: cs => based 16 isHexDigit cs
  | '0' :: 'o' :: cs => based 8 isOctalDigit cs
  | '0' :: 'b' :: cs => based 2 isBinaryDigit cs
  | cs =>
    let (negative, cs) := sign cs
    (wholeDigits? cs).bind fun (ds, rest) =>
      (integerOf? negative (valueOf 10 ds)).map fun v => (v, rest)
where
  /-- Reads the digits of a number in another base. -/
  based (base : Nat) (isDigit : Char → Bool) (cs : List Char) : Option (Value × List Char) :=
    (digits1? isDigit cs).bind fun (ds, rest) =>
      (integerOf? false (valueOf base ds)).map fun v => (v, rest)

/-- Reads the digits behind a decimal point, if there is one. -/
def fraction? : Reader (List Char)
  | '.' :: cs => digits1? Char.isDigit cs
  | cs => some ([], cs)

/-- Reads an exponent, if there is one. -/
def exponent? : Reader (Option Int)
  | c :: cs =>
    if c = 'e' ∨ c = 'E' then
      let (negative, cs) := sign cs
      (digits1? Char.isDigit cs).map fun (ds, rest) =>
        (some (if negative then -(valueOf 10 ds : Int) else valueOf 10 ds), rest)
    else some (none, c :: cs)
  | [] => some (none, [])

/-- Reads a floating-point number in digits: it has a decimal point, an exponent
or both.  One too large for any finite number is no number, but one as far on
the negative side is negative infinity. -/
def decimalFloat? (cs : List Char) : Option (Value × List Char) :=
  let (negative, cs) := sign cs
  (wholeDigits? cs).bind fun (whole, afterWhole) =>
    (fraction? afterWhole).bind fun (places, afterPlaces) =>
      (exponent? afterPlaces).bind fun (power, rest) =>
        if places.isEmpty ∧ power.isNone then none
        else
          let x := Binary64.ofDecimal negative (valueOf 10 (whole ++ places))
            (power.getD 0 - (places.length : Int))
          if x = .infinite false then none else some (.float x, rest)

/-- Reads infinity or what is no number. -/
def specialFloat? (cs : List Char) : Option (Value × List Char) :=
  let (negative, cs) := sign cs
  match cs with
  | 'i' :: 'n' :: 'f' :: rest => some (.float (.infinite negative), rest)
  | 'n' :: 'a' :: 'n' :: rest => some (.float .nan, rest)
  | _ => none

/-! ## dates and times -/

/-- Reads a number of exactly `count` digits. -/
def fixed? (count : Nat) (cs : List Char) : Option (Nat × List Char) :=
  let ds := cs.take count
  if ds.length = count ∧ ds.all Char.isDigit then some (valueOf 10 ds, cs.drop count) else none

/-- Reads a number of two digits in a range. -/
def two? (low high : Nat) (cs : List Char) : Option (Nat × List Char) :=
  (fixed? 2 cs).bind fun (n, rest) => if low ≤ n ∧ n ≤ high then some (n, rest) else none

/-- The number of days of a month. -/
def daysIn (year month : Nat) : Nat :=
  if month = 2 then
    if year % 4 = 0 ∧ (year % 100 ≠ 0 ∨ year % 400 = 0) then 29 else 28
  else if month = 4 ∨ month = 6 ∨ month = 9 ∨ month = 11 then 30
  else 31

/-- The text behind a date. -/
def date? (cs : List Char) : Option (List Char) := do
  let (year, cs) ← fixed? 4 cs
  let cs ← after? ['-'] cs
  let (month, cs) ← two? 1 12 cs
  let cs ← after? ['-'] cs
  let (_, cs) ← two? 1 (daysIn year month) cs
  return cs

/-- The text behind decimal places of a second, if there are any. -/
def skipPlaces : List Char → List Char
  | '.' :: c :: rest => if c.isDigit then rest.dropWhile Char.isDigit else '.' :: c :: rest
  | cs => cs

/-- The text behind a time of day. -/
def time? (cs : List Char) : Option (List Char) := do
  let (_, cs) ← two? 0 23 cs
  let cs ← after? [':'] cs
  let (_, cs) ← two? 0 59 cs
  let cs ← after? [':'] cs
  let (_, cs) ← two? 0 60 cs
  return skipPlaces cs

/-- The text behind the difference to universal time, if there is one. -/
def offset? : List Char → Option (List Char)
  | c :: cs =>
    if c = 'Z' ∨ c = 'z' then some cs
    else if c = '+' ∨ c = '-' then do
      let (_, cs) ← two? 0 23 cs
      let cs ← after? [':'] cs
      let (_, cs) ← two? 0 59 cs
      return cs
    else some (c :: cs)
  | [] => some []

/-- The text behind a time of day that follows a date, if there is one. -/
def timeOfDate? : List Char → Option (List Char)
  | c :: cs =>
    if c = 'T' ∨ c = 't' ∨ c = ' ' then
      match time? cs with
      | some rest => offset? rest
      | none => some (c :: cs)
    else some (c :: cs)
  | [] => some []

/-- Reads a date, a time of day, or both. -/
def datetime? (cs : List Char) : Option (Value × List Char) :=
  match date? cs with
  | some rest => (timeOfDate? rest).map fun rest => (.datetime, rest)
  | none => (time? cs).map fun rest => (.datetime, rest)

/-- Reads a value that is neither a string nor made of other values. -/
def scalar? (cs : List Char) : Option (Value × List Char) :=
  match after? ['t', 'r', 'u', 'e'] cs, after? ['f', 'a', 'l', 's', 'e'] cs with
  | some rest, _ => some (.boolean true, rest)
  | _, some rest => some (.boolean false, rest)
  | _, _ => (datetime? cs).or ((decimalFloat? cs).or ((specialFloat? cs).or (integer? cs)))

end Brainfuck.Toml
