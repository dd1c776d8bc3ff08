import Brainfuck.Settings
import Brainfuck.Text.Terminal

/-!
# Brainfuck.Command.Arguments

The command line.  Before the word `run` only a request for help may stand;
behind it come options, and then the program in one or more pieces.

* The first argument that is not an option starts the program, and everything
  behind it belongs to the program too.  So does everything behind `--`, which is
  itself left out.
* What looks like an option but is none is not an option: an unknown name behind
  two dashes, or letters behind one dash of which not all are known.
* The value of an option is attached with `=`, or is the next argument, unless
  that is itself an option or `--`.
* A value is looked at when the next option or the program begins, so what is
  wrong with an option that cannot have a value is reported before it.
-/

namespace Brainfuck

open Text

/-- Options without a value. -/
inductive Switch where
  | debug
  | watch
  | wrapPointer
  | strictBrackets
  | help
deriving DecidableEq, Repr

/-- Options with a value. -/
inductive Valued where
  | file
  | delay
  | timeout
  | maxSteps
  | tapeSize
deriving DecidableEq, Repr

/-- How messages name an option without a value. -/
def Switch.name : Switch → String
  | .debug => "--debug"
  | .watch => "--watch"
  | .wrapPointer => "--wrap-pointer"
  | .strictBrackets => "--strict-brackets"
  | .help => "--help"

/-- How messages name an option with a value. -/
def Valued.name : Valued → String
  | .file => "--file <FILE>"
  | .delay => "--delay <MS>"
  | .timeout => "--timeout <MS>"
  | .maxSteps => "--max-steps <N>"
  | .tapeSize => "--tape-size <N>"

/-- What is wrong with a command line. -/
inductive UsageError where
  | unrecognizedSubcommand (word : String)
  | unexpectedArgument (argument : String)
  | repeated (option : String)
  | valueMissing (option : String)
  | invalidValue (value option : String) (reason : NumberError)
  | unexpectedValue (value option : String)
deriving DecidableEq, Repr

/-- The wording for a wrong command line.  What the command line says is repeated
without instructions for a terminal. -/
def UsageError.message : UsageError → String
  | .unrecognizedSubcommand word => "error: unrecognized subcommand '" ++ plain word ++ "'"
  | .unexpectedArgument argument => "error: unexpected argument '" ++ plain argument ++ "' found"
  | .repeated option => "error: the argument '" ++ option ++ "' cannot be used multiple times"
  | .valueMissing option =>
    "error: a value is required for '" ++ option ++ "' but none was supplied"
  | .invalidValue value option reason =>
    "error: invalid value '" ++ plain value ++ "' for '" ++ option ++ "': " ++ reason.message
  | .unexpectedValue value option =>
    "error: unexpected value '" ++ plain value ++ "' for '" ++ option ++
      "' found; no more were expected"

/-- What stands behind `run`. -/
structure Arguments where
  debug : Bool
  watch : Bool
  wrapPointer : Bool
  strictBrackets : Bool
  help : Bool
  file : Option String
  delay : Option Nat
  timeout : Option Nat
  maxSteps : Option Nat
  tapeSize : Option Nat
  code : List String
deriving DecidableEq, Repr

namespace Arguments

/-- Nothing stands behind `run`. -/
def empty : Arguments :=
  ⟨false, false, false, false, false, none, none, none, none, none, []⟩

/-- Notes an option without a value, which must not be there twice. -/
def set (a : Arguments) (s : Switch) : Except UsageError Arguments :=
  match s with
  | .debug => if a.debug then .error (.repeated s.name) else .ok { a with debug := true }
  | .watch => if a.watch then .error (.repeated s.name) else .ok { a with watch := true }
  | .wrapPointer =>
    if a.wrapPointer then .error (.repeated s.name) else .ok { a with wrapPointer := true }
  | .strictBrackets =>
    if a.strictBrackets then .error (.repeated s.name) else .ok { a with strictBrackets := true }
  | .help => if a.help then .error (.repeated s.name) else .ok { a with help := true }

/-- The number that is the value of an option which must not be there twice. -/
def number (old : Option Nat) (v : Valued) (raw : String) : Except UsageError Nat :=
  if old.isSome then .error (.repeated v.name)
  else
    match readWord raw with
    | .ok n => .ok n
    | .error reason => .error (.invalidValue raw v.name reason)

/-- Notes an option with its value. -/
def assign (a : Arguments) (v : Valued) (raw : String) : Except UsageError Arguments :=
  match v with
  | .file => if a.file.isSome then .error (.repeated v.name) else .ok { a with file := some raw }
  | .delay => (number a.delay v raw).map fun n => { a with delay := some n }
  | .timeout => (number a.timeout v raw).map fun n => { a with timeout := some n }
  | .maxSteps => (number a.maxSteps v raw).map fun n => { a with maxSteps := some n }
  | .tapeSize => (number a.tapeSize v raw).map fun n => { a with tapeSize := some n }

/-- The settings with those that the command line gives. -/
def override (a : Arguments) (s : Settings) : Settings where
  tapeSize := a.tapeSize.getD s.tapeSize
  stepDelay := a.delay.getD s.stepDelay
  maxSteps := a.maxSteps.or s.maxSteps
  timeout := a.timeout.getD s.timeout
  pointerPolicy := if a.wrapPointer then .wrap else s.pointerPolicy
  bracketMode := if a.strictBrackets then .strict else s.bracketMode

end Arguments

/-! ## reading -/

/-- An option of either kind. -/
inductive Named where
  | switch (s : Switch)
  | valued (v : Valued)
deriving DecidableEq, Repr

/-- The option with a long name. -/
def Named.ofLong? : String → Option Named
  | "debug" => some (.switch .debug)
  | "watch" => some (.switch .watch)
  | "wrap-pointer" => some (.switch .wrapPointer)
  | "strict-brackets" => some (.switch .strictBrackets)
  | "help" => some (.switch .help)
  | "file" => some (.valued .file)
  | "delay" => some (.valued .delay)
  | "timeout" => some (.valued .timeout)
  | "max-steps" => some (.valued .maxSteps)
  | "tape-size" => some (.valued .tapeSize)
  | _ => none

/-- The option with a letter. -/
def Named.ofLetter? : Char → Option Named
  | 'd' => some (.switch .debug)
  | 'w' => some (.switch .watch)
  | 'h' => some (.switch .help)
  | 'f' => some (.valued .file)
  | _ => none

/-- What an argument looks like. -/
inductive Look where
  /-- Two dashes and nothing else. -/
  | separator
  /-- A name behind two dashes, and the value attached to it. -/
  | long (name : String) (value : Option String)
  /-- Letters behind one dash. -/
  | letters (cs : List Char)
  | plain
deriving DecidableEq, Repr

/-- What an argument looks like. -/
def Look.of (argument : String) : Look :=
  match argument.toList with
  | ['-', '-'] => .separator
  | '-' :: '-' :: rest =>
    let name := String.ofList (rest.takeWhile (· ≠ '='))
    match rest.dropWhile (· ≠ '=') with
    | _ :: value => .long name (some (String.ofList value))
    | [] => .long name none
  | '-' :: c :: rest => .letters (c :: rest)
  | _ => .plain

/-- Whether an argument is an option: its name is known, or all of its letters are. -/
def Look.isOption : Look → Bool
  | .long name _ => (Named.ofLong? name).isSome
  | .letters cs => cs.all fun c => (Named.ofLetter? c).isSome
  | _ => false

/-- An option whose value has not been looked at yet. -/
inductive Pending where
  | nothing
  | awaiting (v : Valued)
  | holding (v : Valued) (raw : String)
deriving DecidableEq, Repr

namespace Arguments

/-- Looks at the value of the pending option. -/
def resolve (a : Arguments) : Pending → Except UsageError Arguments
  | .nothing => .ok a
  | .awaiting v => .error (.valueMissing v.name)
  | .holding v raw => a.assign v raw

/-- Notes the options of a group of letters.  The first one with a value takes
the letters behind it as the value. -/
def letters (a : Arguments) (p : Pending) : List Char → Except UsageError (Arguments × Pending)
  | [] => .ok (a, p)
  | c :: rest =>
    match Named.ofLetter? c with
    | none => .ok (a, p)
    | some (.switch s) => do
      let a ← a.resolve p
      let a ← a.set s
      a.letters .nothing rest
    | some (.valued v) => do
      let a ← a.resolve p
      if rest.isEmpty then return (a, .awaiting v)
      let a ← a.assign v (String.ofList rest)
      return (a, .nothing)

/-- Notes an option.  What may be left is a value that is still to come. -/
def note (a : Arguments) (p : Pending) : Look → Except UsageError (Arguments × Pending)
  | .long name value =>
    match Named.ofLong? name, value with
    | some (.switch s), some raw => .error (.unexpectedValue raw s.name)
    | some (.switch s), none => do
      let a ← a.resolve p
      let a ← a.set s
      return (a, .nothing)
    | some (.valued v), some raw => do
      let a ← a.resolve p
      let a ← a.assign v raw
      return (a, .nothing)
    | some (.valued v), none => do
      let a ← a.resolve p
      return (a, .awaiting v)
    | none, _ => .ok (a, p)
  | .letters cs => a.letters p cs
  | _ => .ok (a, p)

/-- Reads what stands behind `run`. -/
def read (a : Arguments) (p : Pending) : List String → Except UsageError Arguments
  | [] => a.resolve p
  | argument :: rest =>
    match Look.of argument with
    | .separator => (a.resolve p).map fun a => { a with code := rest }
    | look =>
      if look.isOption then do
        let (a, p) ← a.note p look
        a.read p rest
      else
        match p with
        | .awaiting v => a.read (.holding v argument) rest
        | p => (a.resolve p).map fun a => { a with code := argument :: rest }

end Arguments

/-- What a command line asks for. -/
inductive Invocation where
  /-- The help for the command as a whole, wanted or for want of anything else. -/
  | usage (wanted : Bool)
  | run (arguments : Arguments)
deriving DecidableEq, Repr

namespace Invocation

/-- Notes requests for help in a group of letters. -/
def helpLetters (help : Bool) : List Char → Except UsageError Bool
  | [] => .ok help
  | c :: rest =>
    if c = 'h' then
      if help then .error (.repeated Switch.help.name) else helpLetters true rest
    else .error (.unexpectedArgument (String.ofList ['-', c]))

/-- Reads a command line.  `help` says whether help has been asked for. -/
def readFrom (help : Bool) : List String → Except UsageError Invocation
  | [] => .ok (.usage help)
  | argument :: rest =>
    if argument = "run" then
      (Arguments.empty.read .nothing rest).map fun a => if help then .usage true else .run a
    else
      match Look.of argument with
      | .separator =>
        match rest with
        | [] => .ok (.usage help)
        | word :: _ =>
          if word = "run" then .error (.unexpectedArgument word)
          else .error (.unrecognizedSubcommand word)
      | .long name value =>
        if name = "help" then
          match value with
          | some raw => .error (.unexpectedValue raw Switch.help.name)
          | none =>
            if help then .error (.repeated Switch.help.name) else readFrom true rest
        else .error (.unexpectedArgument ("--" ++ name))
      | .letters cs => (helpLetters help cs).bind fun help => readFrom help rest
      | .plain => .error (.unrecognizedSubcommand argument)

/-- Reads a command line. -/
def read (arguments : List String) : Except UsageError Invocation := readFrom false arguments

end Invocation

end Brainfuck
