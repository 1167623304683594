import LineMarkup.Command.Run
import Std.Time.Zoned.Database

/-!
The program on a disk: its files, the clock and the environment of the process, and what is printed where.
-/

namespace LineMarkup.Disk

set_option autoImplicit false

/-- The code of an error of the system may come with its sign turned round. -/
def errorOfCode (code : UInt32) (detail : String) : FileError :=
  match code.toInt32.toInt.natAbs with
  | 2 => .notFound
  | 17 => .alreadyExists
  | 20 => .notADirectory
  | 21 => .isADirectory
  | 36 => .nameTooLong
  | n => .other (detail.capitalize ++ " (os error " ++ toString n ++ ")")

def fileError : IO.Error → FileError
  | .noFileOrDirectory _ code detail => errorOfCode code detail
  | .alreadyExists _ code detail => errorOfCode code detail
  | .inappropriateType _ code detail => errorOfCode code detail
  | .invalidArgument _ code detail => errorOfCode code detail
  | .permissionDenied _ code detail => errorOfCode code detail
  | .resourceExhausted _ code detail => errorOfCode code detail
  | .otherError code detail => errorOfCode code detail
  | e => .other (toString e)

/-- An operation on a path, with its error as a value. No operation sees a path that holds a NUL. -/
def attempt {α : Type} (p : Path) (act : String → IO α) : IO (Except FileError α) := do
  if p.contains '\x00' then return .error .nulInPath
  match ← (act (String.ofList p)).toBaseIO with
  | .ok a => return .ok a
  | .error e => return .error (fileError e)

/-- A first byte can be asked of a file, but not of a folder. What may not be read counts as a file. -/
def kindAt? (p : Path) : IO (Option FileKind) := do
  let found ← attempt p fun name => do
    let handle ← IO.FS.Handle.mk ⟨name⟩ .read
    handle.read 1
  match found with
  | .ok _ => return some .file
  | .error .isADirectory => return some .folder
  | .error (.other _) => return some .file
  | .error _ => return none

instance : Files IO where
  read p := do return (← attempt p fun name => IO.FS.readBinFile ⟨name⟩).map Content.ofBytes
  write p text := attempt p fun name => IO.FS.writeFile ⟨name⟩ (String.ofList text)
  makeFolder p := attempt p fun name => IO.FS.createDir ⟨name⟩
  kind? := kindAt?

/-- The clock of the process, in the local zone, or in UTC where no zone is set. -/
def now : IO Time.Moment := do
  let time ← Std.Time.Timestamp.now
  let offset ← match ← Std.Time.Database.defaultGetLocalZoneRules.toBaseIO with
    | .ok rules => pure (rules.timezoneAt time).offset.second.val
    | .error _ => pure 0
  return ⟨time.val.second.val, time.val.nano.val, offset⟩

def environment : IO Environment := do
  let folder ← IO.currentDir
  let home ← IO.getEnv "XDG_CONFIG_HOME"
  return ⟨folder.toString.toList, home.map String.toList⟩

def synopsis : String := "usage: hbhd (convert SOURCE... | init | export) [OPTION]..."

/-- Prints what a run has to say, documents to the output and errors beside it. -/
def print (outcome : Outcome) : IO Unit := do
  let out ← IO.getStdout
  if outcome.status = 2 then
    IO.eprintln synopsis
  for error in outcome.errors do
    IO.eprintln ("ERROR " ++ error)
  unless outcome.report.isEmpty do
    IO.eprintln "Error:"
  for (message, i) in outcome.report.zipIdx do
    IO.eprintln s!"   {i}: {message}"
  out.putStr (String.ofList outcome.output)
  out.flush

end LineMarkup.Disk

def main (args : List String) : IO UInt32 := do
  let environment ← LineMarkup.Disk.environment
  let now ← LineMarkup.Disk.now
  let outcome : LineMarkup.Outcome ← LineMarkup.runArguments environment now (args.map String.toList)
  LineMarkup.Disk.print outcome
  return outcome.status.toUInt32
