import Brainfuck.Command.Launch
import Brainfuck.Command.Timeline

/-!
# Brainfuck.Main

The command.  It reads files, variables and the clock, lets `Timeline.next`
decide what happens, and carries bytes between the job and the standard streams.
Nothing is decided here.
-/

namespace Brainfuck.Main

/-- The name of the command in its messages. -/
def name : String := "bf"

/-- Reads a file. -/
def contents (path : String) : IO (Except FileError ByteArray) := do
  try
    return .ok (← IO.FS.readBinFile path)
  catch e =>
    match e with
    | .noFileOrDirectory .. => return .error .notFound
    | .inappropriateType .. => return .error .isDirectory
    | e => return .error (.other (toString e))

/-- The environment.  Where the system does not hand it out as a whole, a value that is no
text has been made into one. -/
def environment : IO Environment := do
  try
    return .ofBlock (← IO.FS.readBinFile "/proc/self/environ")
  catch _ =>
    let values ← Variable.all.mapM fun v => return (v.key, ← IO.getEnv v.key)
    return .ofTexts fun key => (values.lookup key).join

/-- Looks around for what a command with these arguments needs. -/
def look (arguments : List String) : IO World := do
  let home := (← IO.getEnv "HOME").getD ""
  let path := Settings.userPath home (← IO.getEnv "XDG_CONFIG_HOME")
  let settings ← contents path
  let program ←
    match Invocation.read arguments with
    | .ok (.run a) => contents (a.file.getD "")
    | _ => pure (.error .notFound)
  return {
    name := name
    arguments := arguments
    contentsOf := fun _ => program
    settingsPath := path
    settingsFile := if settings matches .error .notFound then none else some settings
    environment := ← environment }

/-- What has arrived on standard input and has not reached the job. -/
structure Arrivals where
  bytes : ByteArray
  ended : Bool

/-- Notes what arrives on standard input until it ends. -/
partial def listen (stdin : IO.FS.Stream) (arrivals : IO.Ref Arrivals) : IO Unit := do
  let chunk ← try stdin.read 256 catch _ => pure .empty
  if chunk.isEmpty then arrivals.modify fun a => { a with ended := true }
  else
    arrivals.modify fun a => { a with bytes := a.bytes ++ chunk }
    listen stdin arrivals

/-- The standard streams, and when the job began. -/
structure Console where
  arrivals : IO.Ref Arrivals
  stdout : IO.FS.Stream
  stderr : IO.FS.Stream
  began : Nat

/-- Writes to standard output, and tells whether that worked. -/
def Console.deliver (c : Console) (bytes : Array UInt8) : IO Bool := do
  if bytes.isEmpty then return true
  try
    c.stdout.write ⟨bytes⟩
    c.stdout.flush
    return true
  catch _ => return false

/-- Passes on what has arrived on standard input. -/
def Console.supply (c : Console) (t : Timeline) : IO Timeline := do
  if t.job.wiring.input.closed then return t
  let a ← c.arrivals.modifyGet fun a => (a, { a with bytes := .empty })
  let t := if a.bytes.isEmpty then t else t.act (.feed a.bytes.toList)
  return if a.ended then t.act .endInput else t

/-- Lets an event happen.  If it writes and the write fails, it is as if the sink
had been full before. -/
def Console.act (c : Console) (t : Timeline) (e : Event) : IO Timeline := do
  if e = .work ∧ ¬ t.job.order.debug then return t.act e
  let after := t.act e
  if ← c.deliver after.job.stdout.written then
    if !after.job.stderr.isEmpty then c.stderr.putStr after.job.stderr
    let stdout := { after.job.stdout with written := #[] }
    return { after with job := { after.job with stdout := stdout, stderr := "" } }
  else
    let job := { t.job with stdout := Sink.limited 0 }
    return { t with job := job }.act e

/-- Follows the clock until the job is over. -/
partial def Console.follow (c : Console) (t : Timeline) : IO UInt32 := do
  match t.job.hear? with
  | some (change, job) =>
    c.stderr.putStrLn (Job.watchLine change)
    c.follow { t with job := job }
  | none =>
    let t ← c.supply t
    let t := { t with now := (← IO.monoNanosNow) - c.began }
    match t.next with
    | .act e => c.follow (← c.act t e)
    | .wait _ =>
      IO.sleep 1
      c.follow t
    | .stop code => return code.toUInt32

/-- Runs a job on the standard streams. -/
def run (order : Order) (machine : Machine) (watched : Bool) : IO UInt32 := do
  let arrivals ← IO.mkRef (⟨.empty, false⟩ : Arrivals)
  let stdin ← IO.getStdin
  let _ ← IO.asTask (listen stdin arrivals) .dedicated
  let console : Console := {
    arrivals := arrivals
    stdout := ← IO.getStdout
    stderr := ← IO.getStderr
    began := ← IO.monoNanosNow }
  console.follow (.start (.launch order machine watched .unlimited) none)

end Brainfuck.Main

/-- The command. -/
def main (arguments : List String) : IO UInt32 := do
  let stderr ← IO.getStderr
  match Brainfuck.Launch.ofWorld (← Brainfuck.Main.look arguments) with
  | .refused e =>
    stderr.putStrLn e.message
    return Brainfuck.Launch.usageCode.toUInt32
  | .answered message code =>
    stderr.putStr message
    return code.toUInt32
  | .unaddressable =>
    stderr.putStrLn "capacity overflow"
    return Brainfuck.Launch.breakdownCode.toUInt32
  | .job order machine watched => Brainfuck.Main.run order machine watched
