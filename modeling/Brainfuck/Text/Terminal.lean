/-!
# Brainfuck.Text.Terminal

Text for a reader that is no terminal: control characters are left out, and with
them the sequences that instruct a terminal.  Line breaks and tabs are kept.

An instruction begins with the escape character.  How far it reaches depends on
what follows:

* `[` — up to a letter or one of the signs next to the letters;
* `]` — up to the bell;
* `P`, behind its parameters, and `X`, `^` or `_` — up to the byte `9C`, also
  where it is part of a character;
* anything else — up to the first character that is no sign between space and `/`.

Cancelling (`18` and `1A`) ends an instruction, and the escape character begins a
new one.  A line break or a tab inside an instruction is shown, and so is what
follows it, up to the next control character; there the instruction goes on,
unless a character beyond ASCII has been shown.

* `plain_eq_self` — a text of visible characters stays as it is.
-/

namespace Brainfuck.Text

namespace Terminal

/-- Where in an instruction a reader stands. -/
inductive State where
  | text
  | escape
  /-- Behind signs that follow the escape character. -/
  | signs
  | control
  /-- At the start of a device control string. -/
  | device
  | parameters
  | deviceSigns
  /-- In a string that ends with the byte `9C`. -/
  | string
  | command
deriving DecidableEq, Repr

/-- White space that even an instruction lets through. -/
def isSpacing (c : Char) : Bool := c == '\t' || c == '\n' || c == '\x0c' || c == '\r'

/-- Whether a character is visible, or spacing. -/
def isVisible (c : Char) : Bool := isSpacing c || (' ' ≤ c && c ≠ '\x7f')

/-- Whether a character is shown in some state. -/
def isShown (s : State) (c : Char) : Bool :=
  match s with
  | .text => isVisible c
  | .escape | .signs | .control => isSpacing c
  | _ => false

/-- Whether the UTF-8 form of a character has the byte that ends strings. -/
def endsString (c : Char) : Bool := c.toString.toUTF8.data.contains 0x9C

/-- The state behind a character that is not shown. -/
def next (s : State) (c : Char) : State :=
  if c = '\x1b' then .escape
  else if c = '\x18' ∨ c = '\x1a' then .text
  else
    match s with
    | .text => .text
    | .escape =>
      if ' ' ≤ c ∧ c ≤ '/' then .signs
      else if c = '[' then .control
      else if c = ']' then .command
      else if c = 'P' then .device
      else if c = 'X' ∨ c = '^' ∨ c = '_' then .string
      else if '0' ≤ c ∧ c ≤ '~' then .text
      else .escape
    | .signs => if '0' ≤ c ∧ c ≤ '~' then .text else .signs
    | .control => if '@' ≤ c ∧ c ≤ '~' then .text else .control
    | .device =>
      if ' ' ≤ c ∧ c ≤ '/' then .deviceSigns
      else if '0' ≤ c ∧ c ≤ '?' then .parameters
      else if '@' ≤ c ∧ c ≤ '~' then .string
      else .device
    | .parameters =>
      if ' ' ≤ c ∧ c ≤ '/' then .deviceSigns
      else if '<' ≤ c ∧ c ≤ '~' then .string
      else .parameters
    | .deviceSigns => if '0' ≤ c ∧ c ≤ '~' then .string else .deviceSigns
    | .string => if endsString c then .text else .string
    | .command => if c = '\x07' then .text else .command

/-- What is shown of the characters behind some state.  `showing` says that the
last character was shown, so that the next one is looked at as text. -/
def plainFrom (s : State) (showing : Bool) : List Char → List Char
  | [] => []
  | c :: rest =>
    if isShown (if showing then .text else s) c then
      c :: plainFrom (if c.toNat < 0x80 then s else .text) true rest
    else plainFrom (next s c) false rest

/-- A text of visible characters is shown as it is. -/
theorem plainFrom_eq_self {cs : List Char} (h : ∀ c ∈ cs, isVisible c) (showing : Bool) :
    plainFrom .text showing cs = cs := by
  induction cs generalizing showing with
  | nil => rfl
  | cons c rest ih =>
    have hc : isShown .text c = true := h c List.mem_cons_self
    have hrest := ih (fun d hd => h d (List.mem_cons_of_mem c hd)) true
    simp [plainFrom, hc, hrest]

end Terminal

/-- The text without what only a terminal could make use of. -/
def plain (s : String) : String := String.ofList (Terminal.plainFrom .text false s.toList)

theorem plain_eq_self {s : String} (h : ∀ c ∈ s.toList, Terminal.isVisible c) : plain s = s := by
  rw [plain, Terminal.plainFrom_eq_self h, String.ofList_toList]

end Brainfuck.Text
