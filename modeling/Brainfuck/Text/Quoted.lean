import Brainfuck.Text.Hidden

/-!
# Brainfuck.Text.Quoted

Characters and texts between quotes.  A backslash stands before the quote in
use and before a backslash; NUL, tab, line feed and carriage return have a
letter of their own; every other hidden character is spelled by its code point
in hexadecimal.
-/

namespace Brainfuck.Text

/-- The code point of a character, spelled out in lower-case hexadecimal. -/
def codePoint (c : Char) : String :=
  "\\u\x7b" ++ String.ofList (Nat.toDigits 16 c.toNat) ++ "\x7d"

/-- One character between quotes of the given kind. -/
def escaped (quote c : Char) : String :=
  if c.toNat = 0 then "\\0"
  else if c = '\t' then "\\t"
  else if c = '\r' then "\\r"
  else if c = '\n' then "\\n"
  else if c = quote ∨ c = '\\' then String.ofList ['\\', c]
  else if isHidden c then codePoint c
  else c.toString

/-- A character between single quotes. -/
def quotedChar (c : Char) : String := "'" ++ escaped '\'' c ++ "'"

/-- A text between double quotes. -/
def quoted (s : String) : String := "\"" ++ String.join (s.toList.map (escaped '"')) ++ "\""

end Brainfuck.Text
