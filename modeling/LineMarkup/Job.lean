import LineMarkup.Document
import LineMarkup.Settings.Files

/-!
Jobs: one source document each, and where its HTML goes. The jobs of a batch do not wait for one
another; one that fails does not stop the rest.
-/

namespace LineMarkup

set_option autoImplicit false

inductive Destination where
  | file (path : Path)
  | output
deriving DecidableEq, Repr

structure Job where
  source : Path
  destination : Destination
deriving DecidableEq, Repr

/-- A template that cannot be read from a file. -/
structure TemplateFault where
  path : Path
  cause : FileError
deriving DecidableEq, Repr

def TemplateFault.message (f : TemplateFault) : String :=
  String.ofList f.path ++ ": " ++ f.cause.message

inductive JobError where
  | unreadable (path : Path) (cause : FileError)
  | convert (path : Path) (cause : ConvertError)
  | unwritable (path : Path) (cause : FileError)
deriving DecidableEq, Repr

def JobError.message : JobError → String
  | .unreadable path cause => "Failed to read " ++ String.ofList path ++ ": " ++ cause.message
  | .convert path cause => "Failed to convert " ++ String.ofList path ++ ": " ++ cause.message
  | .unwritable path cause => "Failed to write " ++ String.ofList path ++ ": " ++ cause.message

/-- A batch in which some documents could not be converted. -/
structure BatchError where
  failed : Nat
  total : Nat
deriving DecidableEq, Repr

def BatchError.message (e : BatchError) : String :=
  toString e.failed ++ " of " ++ toString e.total ++ " documents failed to convert"

/-- Where the template that a source declares as `name` is read from. -/
def templateBeside (source : Path) (name : Text) : Path :=
  match source.parent? with
  | none | some [] => name
  | some folder => folder ++ '/' :: name

namespace Job

/-- A job for each source. `toOutput` comes before a named file, and that before the path that the
settings give; there are no jobs if the settings give no path. -/
def plan (settings : Settings) (output : Option Path) (toOutput : Bool) (sources : List Path) :
    Option (List Job) :=
  sources.mapM fun source =>
    if toOutput then some ⟨source, .output⟩
    else match output with
      | some path => some ⟨source, .file path⟩
      | none => (settings.outputPath source).map fun path => ⟨source, .file path⟩

section

variable {m : Type → Type} [Monad m] [Files m]

def readTemplate (source : Path) (name : Text) : m (Except TemplateFault Text) := do
  let path := templateBeside source name
  match ← Files.readText path with
  | .ok text => pure (.ok text)
  | .error e => pure (.error ⟨path, e⟩)

def readSource (path : Path) : m (Except JobError (List Line)) := do
  match ← Files.readText path with
  | .ok text => pure (.ok text.lines)
  | .error e => pure (.error (.unreadable path e))

/-- The HTML of a source file, with its template read from beside it. -/
def convertFile (c : Converter) (source : Path) : m (Except JobError Text) := do
  match ← readSource source with
  | .error e => pure (.error e)
  | .ok lines =>
    let load (name : Text) : m (Except String Text) := do
      match ← readTemplate source name with
      | .ok text => pure (.ok text)
      | .error fault => pure (.error fault.message)
    match ← c.convert lines none load with
    | .ok html => pure (.ok html)
    | .error e => pure (.error (.convert source e))

/-- Writes a file, making its folder first where it is missing. -/
def writeFile (path : Path) (text : Text) : m (Except FileError Unit) := do
  let made ← match path.parent? with
    | none | some [] => pure (.ok ())
    | some folder => Files.makeFolders folder
  match made with
  | .error e => pure (.error e)
  | .ok _ => Files.write path text

/-- Runs a job. Nothing is written before the conversion has succeeded; HTML that goes to the output
is handed back. -/
def run (c : Converter) (job : Job) : m (Except JobError (Option Text)) := do
  match ← convertFile c job.source with
  | .error e => pure (.error e)
  | .ok html =>
    match job.destination with
    | .output => pure (.ok (some html))
    | .file path =>
      match ← writeFile path html with
      | .ok _ => pure (.ok none)
      | .error e => pure (.error (.unwritable path e))

def runAll (c : Converter) (jobs : List Job) : m (List (Except JobError (Option Text))) :=
  jobs.mapM (run c)

end

/-- The errors of a batch, in the order of its jobs. -/
def failures (results : List (Except JobError (Option Text))) : List JobError :=
  results.filterMap fun
    | .error e => some e
    | .ok _ => none

/-- The HTML for the output, in the order of the jobs. -/
def printed (results : List (Except JobError (Option Text))) : List Text :=
  results.filterMap fun
    | .ok html => html
    | .error _ => none

/-- A batch succeeds if all its jobs do. -/
def outcome (results : List (Except JobError (Option Text))) : Except BatchError (List Text) :=
  match failures results with
  | [] => .ok (printed results)
  | errors => .error ⟨errors.length, results.length⟩

end Job

end LineMarkup
