import LineMarkup.Command
import LineMarkup.Job

/-!
Running a command line: what it changes in the file system, what it prints, and how it ends.
-/

namespace LineMarkup

set_option autoImplicit false

/-- How a run ends. -/
structure Outcome where
  status : Nat
  output : Text
  /-- The errors of single documents. -/
  errors : List String
  /-- The error that ended the run, from the outermost message to its cause. -/
  report : List String
deriving DecidableEq, Repr

namespace Outcome

def success : Outcome := ⟨0, [], [], []⟩

def failure (report : List String) : Outcome := ⟨1, [], [], report⟩

/-- A run that was broken off by a fault of the program. -/
def abort : Outcome := ⟨101, [], [], []⟩

def versionLine : Text := "hbhd 0.3.0\n".toList

/-- Asking for help or for the version is no error. -/
def usage : Arguments.UsageError → Outcome
  | .help => success
  | .version => { success with output := versionLine }
  | _ => { success with status := 2 }

end Outcome

namespace Command

/-- A printed document ends in a newline. -/
def closeLine (html : Text) : Text := if html.getLast? = some '\n' then html else html ++ ['\n']

section

variable {m : Type → Type} [Monad m] [Files m]

/-- Makes the folder of a file if there is nothing in its place; tells which one could not be made. -/
def makeParent (file : Path) : m (Except (Path × FileError) Unit) := do
  match file.parent? with
  | none | some [] => pure (.ok ())
  | some folder =>
    if ← Files.isThere folder then pure (.ok ())
    else match ← Files.makeFolders folder with
      | .ok _ => pure (.ok ())
      | .error e => pure (.error (folder, e))

def runInit (output : Path) (format : Text) (force : Bool) : m Outcome := do
  if (← Files.isThere output) && !force then
    pure (.failure ["Configuration file already exists: " ++ String.ofList output ++
      ". Use --force to overwrite."])
  else match ← makeParent output with
    | .error (folder, e) =>
      pure (.failure ["Failed to create directory: " ++ String.ofList folder, e.message])
    | .ok _ => match ← Starter.writeSettings format output with
      | .ok _ => pure .success
      | .error e =>
        pure (.failure ["Failed to generate configuration file: " ++ String.ofList output, e.message])

def runExport (dir : Path) (force : Bool) : m Outcome := do
  match ← Starter.exportTemplates dir force with
  | .ok _ => pure .success
  | .error e => pure (.failure ["Failed to export templates to " ++ String.ofList dir, e.message])

def runConvert (env : Environment) (now : Time.Moment) (i : Invocation) (sources : List Path)
    (output : Option Path) (toOutput : Bool) : m Outcome := do
  if output.isSome && 1 < sources.length then
    pure (.failure ["--output can only be used with a single source document"])
  else match ← Settings.load env i.settingsFiles i.overrides with
    | .error e => pure (.failure ["Failed to load configuration", e.message])
    | .ok loaded =>
      let settings := i.mergeInto loaded
      match Job.plan settings output toOutput sources with
      | none => pure .abort
      | some jobs => do
        let results ← Job.runAll ⟨now, settings.lineSeparator⟩ jobs
        match Job.outcome results with
        | .ok printed => pure { Outcome.success with output := printed.flatMap closeLine }
        | .error e => pure { Outcome.failure [e.message] with
            errors := (Job.failures results).map JobError.message }

end

end Command

section

variable {m : Type → Type} [Monad m] [Files m]

def Invocation.run (env : Environment) (now : Time.Moment) (i : Invocation) : m Outcome :=
  match i.command with
  | .convert sources output _ _ toOutput => Command.runConvert env now i sources output toOutput
  | .init output format force => Command.runInit output format force
  | .export dir force => Command.runExport dir force

/-- Runs the program on its arguments. -/
def runArguments (env : Environment) (now : Time.Moment) (args : List Text) : m Outcome :=
  match Invocation.parse args with
  | .ok i => i.run env now
  | .error e => pure (.usage e)

end

end LineMarkup
