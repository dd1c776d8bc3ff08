import Brainfuck.Toml.Line

/-!
# Brainfuck.Toml.Strings

The four kinds of strings: basic ones with escapes and literal ones without, on
one line or on many.
-/

namespace Brainfuck.Toml

/-- The value of a hexadecimal digit. -/
def hexDigit? (c : Char) : Option Nat :=
  if '0' ≤ c ∧ c ≤ '9' then some (c.toNat - '0'.toNat)
  else if 'a' ≤ c ∧ c ≤ 'f' then some (c.toNat - 'a'.toNat + 10)
  else if 'A' ≤ c ∧ c ≤ 'F' then some (c.toNat - 'A'.toNat + 10)
  else none

/-- The character with the code point that the digits spell. -/
def charOfHex? (digits : List Char) : Option Char :=
  match digits.mapM hexDigit? with
  | none => none
  | some ds =>
    let code := ds.foldl (fun n d => 16 * n + d) 0
    if h : code.isValidChar then some (Char.ofNatAux code h) else none

/-- What a letter behind a backslash stands for. -/
def escape? : Char → Option Char
  | 'b' => some '\x08'
  | 't' => some '\t'
  | 'n' => some '\n'
  | 'f' => some '\x0c'
  | 'r' => some '\r'
  | '"' => some '"'
  | '\\' => some '\\'
  | _ => none

/-- Puts a character in front of what was read behind it. -/
def before (c : Char) (r : Option (List Char × List Char)) : Option (List Char × List Char) :=
  r.map fun (cs, rest) => (c :: cs, rest)

/-- Reads a basic string on one line, behind its opening quote. -/
def basic : Reader (List Char)
  | '"' :: rest => some ([], rest)
  | '\\' :: 'u' :: a :: b :: c :: d :: rest =>
    (charOfHex? [a, b, c, d]).bind fun x => before x (basic rest)
  | '\\' :: 'U' :: a :: b :: c :: d :: e :: f :: g :: h :: rest =>
    (charOfHex? [a, b, c, d, e, f, g, h]).bind fun x => before x (basic rest)
  | '\\' :: c :: rest => (escape? c).bind fun x => before x (basic rest)
  | c :: rest => if isPlain c ∧ c ≠ '\\' then before c (basic rest) else none
  | [] => none

/-- Reads a literal string on one line, behind its opening quote. -/
def literal : Reader (List Char)
  | '\x27' :: rest => some ([], rest)
  | c :: rest => if isPlain c then before c (literal rest) else none
  | [] => none

/-- Whether only blanks separate the text from the end of the line. -/
def endsLine (cs : List Char) : Bool := (newline? (skipSpaces cs)).isSome

/-- Reads a basic string on many lines, behind its opening quotes.  A backslash
at the end of a line skips all blanks and line ends that follow; `skipping` says
that this is going on. -/
def basicLines (skipping : Bool) : Reader (List Char)
  | '"' :: '"' :: '"' :: '"' :: '"' :: rest => some (['"', '"'], rest)
  | '"' :: '"' :: '"' :: '"' :: rest => some (['"'], rest)
  | '"' :: '"' :: '"' :: rest => some ([], rest)
  | '\r' :: '\n' :: rest =>
    if skipping then basicLines true rest else before '\n' (basicLines false rest)
  | '\n' :: rest =>
    if skipping then basicLines true rest else before '\n' (basicLines false rest)
  | '\\' :: 'u' :: a :: b :: c :: d :: rest =>
    (charOfHex? [a, b, c, d]).bind fun x => before x (basicLines false rest)
  | '\\' :: 'U' :: a :: b :: c :: d :: e :: f :: g :: h :: rest =>
    (charOfHex? [a, b, c, d, e, f, g, h]).bind fun x => before x (basicLines false rest)
  | '\\' :: c :: rest =>
    if endsLine (c :: rest) then basicLines true (c :: rest)
    else (escape? c).bind fun x => before x (basicLines false rest)
  | c :: rest =>
    if skipping ∧ isSpace c then basicLines true rest
    else if isPlain c ∧ c ≠ '\\' then before c (basicLines false rest)
    else none
  | [] => none

/-- Reads a literal string on many lines, behind its opening quotes. -/
def literalLines : Reader (List Char)
  | '\x27' :: '\x27' :: '\x27' :: '\x27' :: '\x27' :: rest => some (['\x27', '\x27'], rest)
  | '\x27' :: '\x27' :: '\x27' :: '\x27' :: rest => some (['\x27'], rest)
  | '\x27' :: '\x27' :: '\x27' :: rest => some ([], rest)
  | '\r' :: '\n' :: rest => before '\n' (literalLines rest)
  | '\n' :: rest => before '\n' (literalLines rest)
  | c :: rest => if isPlain c then before c (literalLines rest) else none
  | [] => none

/-- The text without the line end that directly follows opening quotes. -/
def dropNewline (cs : List Char) : List Char := (newline? cs).getD cs

/-- Reads a string of any kind. -/
def string? (cs : List Char) : Option (String × List Char) :=
  let body :=
    match cs with
    | '"' :: '"' :: '"' :: rest => basicLines false (dropNewline rest)
    | '\x27' :: '\x27' :: '\x27' :: rest => literalLines (dropNewline rest)
    | '"' :: rest => basic rest
    | '\x27' :: rest => literal rest
    | _ => none
  body.map fun (cs, rest) => (String.ofList cs, rest)

end Brainfuck.Toml
