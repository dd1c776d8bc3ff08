import Brainfuck.Command.Arguments
import Brainfuck.Command.Job
import Brainfuck.Command.Usage
import Brainfuck.Settings.Load

/-!
# Brainfuck.Command.Launch

From a command line to a job.  What can go wrong is looked at in this order: the
command line itself, a request for help, the source of the program, the settings,
and last the size of the tape.  Settings come from the command line first, then
from the environment, then from the settings file, then from the defaults.
-/

namespace Brainfuck

/-- What a command finds around it. -/
structure World where
  name : String
  arguments : List String
  contentsOf : String → Except FileError ByteArray
  settingsPath : String
  /-- What reading the settings file comes to, if there is one. -/
  settingsFile : Option (Except FileError ByteArray)
  environment : Environment

/-- What a command line comes to. -/
inductive Launch where
  | refused (e : UsageError)
  /-- Nothing is run: this is said, and the command exits. -/
  | answered (message : String) (code : Nat)
  /-- So many cells cannot be addressed. -/
  | unaddressable
  | job (order : Order) (machine : Machine) (watched : Bool)

namespace Launch

/-- The exit code for a wrong command line, or for wrong settings. -/
def usageCode : Nat := 2

/-- The exit code for a command that breaks down. -/
def breakdownCode : Nat := 101

/-- The text of the program, or what is said when there is none. -/
def source (w : World) (a : Arguments) : Except (String × Nat) String :=
  match a.file, a.code with
  | none, [] => .error (Usage.run w.name, usageCode)
  | some _, _ :: _ =>
    .error
      (w.name ++ ": cannot use positional code together with --file\n" ++ Usage.run w.name, usageCode)
  | none, code => .ok (String.join code)
  | some path, [] =>
    match (w.contentsOf path).bind textOf with
    | .ok text => .ok text
    | .error e => .error (w.name ++ ": failed to read code file as UTF-8: " ++ e.message ++ "\n", 1)

/-- The settings in force, or what is said when a variable is invalid. -/
def settings (w : World) (a : Arguments) : Except (String × Nat) Settings :=
  let loaded := Settings.load w.settingsPath w.settingsFile w.environment.text?
  match loaded.invalid with
  | some e => .error (w.name ++ ": " ++ e.message ++ "\n", usageCode)
  | none => .ok (a.override loaded.settings)

/-- A job for a program with its settings. -/
def ofSettings (w : World) (a : Arguments) (code : String) (s : Settings) : Launch :=
  match s.machine? (.ofText code) with
  | none => .unaddressable
  | some m => .job ⟨w.name, code, a.debug, s.timeout⟩ m a.watch

/-- What asking to run a program comes to. -/
def ofArguments (w : World) (a : Arguments) : Launch :=
  if a.help then .answered (Usage.run w.name) 0
  else
    match source w a with
    | .error (message, code) => .answered message code
    | .ok text =>
      match settings w a with
      | .error (message, code) => .answered message code
      | .ok s => ofSettings w a text s

/-- What a command line comes to. -/
def ofWorld (w : World) : Launch :=
  match Invocation.read w.arguments with
  | .error e => .refused e
  | .ok (.usage wanted) => .answered (Usage.top w.name) (if wanted then 0 else usageCode)
  | .ok (.run a) => ofArguments w a

end Launch

namespace Job

/-- A job in which a listener may hear of every change of the tape. -/
def launch (order : Order) (machine : Machine) (watched : Bool) (stdout : Sink) : Job :=
  let j := start order machine stdout
  if watched then j.mapWiring fun p => { p with audience := p.audience.subscribe.2 } else j

/-- The changes of the tape that listeners have heard of. -/
def watched (j : Job) : List Change :=
  match j.wiring.audience.listeners with
  | [] => []
  | l :: _ => l.feed.items.toList

/-- The next change of the tape that the listener has not been told of yet, and
the job without it. -/
def hear? (j : Job) : Option (Change × Job) :=
  match j.wiring.audience.listeners with
  | [] => none
  | l :: _ =>
    match j.wiring.audience.receive? l.id with
    | some (some c, rest) => some (c, j.mapWiring fun p => { p with audience := rest })
    | _ => none

/-- The line about a change of the tape. -/
def watchLine (c : Change) : String :=
  "[tape] " ++ c.kind.word ++ " ptr=" ++ Text.decimal c.pointer ++ " cell=" ++
    Text.decimal c.value.toNat ++ " hwm=" ++ Text.decimal c.mark

end Job

end Brainfuck
