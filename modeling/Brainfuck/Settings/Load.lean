import Brainfuck.Settings.Environment
import Brainfuck.Settings.File

/-!
# Brainfuck.Settings.Load

The settings in force: those of the user's settings file where there is a usable
one, the environment above them, and the defaults below.  A file that is missing
or unusable counts for nothing; a variable that cannot be read is an error.
-/

namespace Brainfuck

/-- Why a file cannot be read as a text. -/
inductive FileError where
  | notFound
  | isDirectory
  /-- One of the names on the way to it is a file. -/
  | notADirectory
  | notText
  | other (reason : String)
deriving DecidableEq, Repr

/-- The wording for a file that cannot be read. -/
def FileError.message : FileError → String
  | .notFound => "No such file or directory (os error 2)"
  | .isDirectory => "Is a directory (os error 21)"
  | .notADirectory => "Not a directory (os error 20)"
  | .notText => "stream did not contain valid UTF-8"
  | .other reason => reason

/-- The text of a file with these bytes. -/
def textOf (bytes : ByteArray) : Except FileError String :=
  match String.fromUTF8? bytes with
  | some s => .ok s
  | none => .error .notText

namespace Settings

/-- Why a settings file is unusable. -/
inductive FileFailure where
  | unreadable (e : FileError)
  | unusable (e : TextError)
deriving DecidableEq, Repr

/-- The wording for an unusable settings file. -/
def FileFailure.message (path : String) : FileFailure → String
  | .unreadable e => "failed to read " ++ path ++ ": " ++ e.message
  | .unusable e => "failed to parse " ++ path ++ ": " ++ e.message

/-- The settings of a file, given what reading it comes to. -/
def ofFile (contents : Except FileError ByteArray) : Except FileFailure Settings :=
  match contents.bind textOf with
  | .error e => .error (.unreadable e)
  | .ok text =>
    match ofText text with
    | .error e => .error (.unusable e)
    | .ok s => .ok s

/-- The settings below the environment, given what reading the settings file at
`path` comes to, or that there is none. -/
def ofUser (path : String) : Option (Except FileError ByteArray) → Settings × List Notice
  | none => (default, [])
  | some contents =>
    match ofFile contents with
    | .ok s => (s, [.settingsLoaded path])
    | .error e => (default, [.settingsSkipped (e.message path)])

/-- The settings in force. -/
def load (path : String) (file : Option (Except FileError ByteArray))
    (lookup : String → Option String) : Overridden :=
  let (s, log) := ofUser path file
  let o := s.ofEnvironment lookup
  { o with log := log ++ o.log }

/-- A file name behind a directory. -/
def join (directory name : String) : String :=
  if directory.isEmpty ∨ directory.endsWith "/" then directory ++ name
  else directory ++ "/" ++ name

/-- The path of the user's settings file: in the directory for settings if one is
set, and else in the usual place in the home directory. -/
def userPath (home : String) (directory : Option String) : String :=
  join (directory.getD (join home ".config")) "bf.toml"

end Settings

end Brainfuck
