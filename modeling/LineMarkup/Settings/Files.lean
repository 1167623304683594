import LineMarkup.Files
import LineMarkup.Starter

/-!
Settings on a file system: reading them from files, finding the file that holds them, and writing the
texts to start from.
-/

namespace LineMarkup

set_option autoImplicit false

inductive SettingsError where
  | unreadable (path : Path) (cause : FileError)
  | noExtension (path : Path)
  | unsupportedFile (path : Path)
  | invalidText (format : SettingsFormat)
  | badOverride (cause : OverrideError)
  | unsupportedFormat (cause : Starter.UnsupportedFormat)
  | unwritable (path : Path) (cause : FileError)
  | noTemplateFolder (dir : Path) (cause : FileError)
  | unwritableTemplate (path : Path) (cause : FileError)
deriving DecidableEq, Repr

namespace SettingsError

/-- What went wrong, without the words that say in which part. -/
def detail : SettingsError → String
  | .unreadable path cause =>
    "Failed to read config file " ++ String.ofList path ++ ": " ++ cause.message
  | .noExtension path => "Config file has no extension: " ++ String.ofList path
  | .unsupportedFile path => "Unsupported config file format: " ++ String.ofList path
  | .invalidText _ => "invalid settings"
  | .badOverride cause => cause.message
  | .unsupportedFormat cause => cause.message
  | .unwritable path cause =>
    "Failed to write default config to " ++ String.ofList path ++ ": " ++ cause.message
  | .noTemplateFolder dir cause =>
    "Failed to create template directory: " ++ String.ofList dir ++ ": " ++ cause.message
  | .unwritableTemplate path cause =>
    "Failed to write template file: " ++ String.ofList path ++ ": " ++ cause.message

def message (e : SettingsError) : String :=
  match e with
  | .invalidText .json => "Serde error: " ++ e.detail
  | .invalidText .toml => "TOML error: " ++ e.detail
  | .unsupportedFormat _ => "Template error: " ++ e.detail
  | _ => "Configuration error: " ++ e.detail

end SettingsError

/-- Where settings files are looked for: the working folder, and the folder of the user's settings. -/
structure Environment where
  workFolder : Path
  settingsHome : Option Path
deriving DecidableEq, Repr

section

variable {m : Type → Type} [Monad m] [Files m]

/-- Reads one settings file; its extension says in which format it is. -/
def Layer.ofFile (path : Path) : m (Except SettingsError Layer) := do
  match ← Files.readText path with
  | .error e => pure (.error (.unreadable path e))
  | .ok text =>
    match path.extension? with
    | none => pure (.error (.noExtension path))
    | some extension =>
      match SettingsFormat.ofName? extension with
      | none => pure (.error (.unsupportedFile path))
      | some format =>
        match Layer.parse? format text with
        | none => pure (.error (.invalidText format))
        | some layer => pure (.ok layer)

namespace Settings

/-- Merges files into settings, in order, up to the first that cannot be read. -/
def mergeFiles (s : Settings) : List Path → m (Except SettingsError Settings)
  | [] => pure (.ok s)
  | path :: rest => do
    match ← Layer.ofFile path with
    | .error e => pure (.error e)
    | .ok layer => (s.merge layer).mergeFiles rest

def ofFile (path : Path) : m (Except SettingsError Settings) := default.mergeFiles [path]

/-- The names under which a folder may hold settings, the preferred one first. -/
def fileNames : List Path :=
  ["hbhd.toml".toList, "hbhd.json".toList, ".hbhd.toml".toList, ".hbhd.json".toList,
    ".config/hbhd.toml".toList]

/-- The names in the folder of the user's settings. -/
def homeNames : List Path := ["hbhd.toml".toList, "hbhd.json".toList]

def findIn (dir : Path) : m (Option Path) :=
  Files.firstThere? (fileNames.map fun name => Path.join dir name)

/-- The settings file that is used when none is named. -/
def find (env : Environment) : m (Option Path) :=
  let home := match env.settingsHome with
    | some dir => homeNames.map fun name => Path.join dir name
    | none => []
  Files.firstThere? (fileNames.map (fun name => Path.join env.workFolder name) ++ home)

def applyOverrides (s : Settings) (overrides : List Text) : Except SettingsError Settings :=
  match s.overrideAll overrides with
  | (changed, none) => .ok changed
  | (_, some e) => .error (.badOverride e)

/-- The settings that the named files, or else the one that is found, and then the overrides make. -/
def load (env : Environment) (files : List Path) (overrides : List Text) :
    m (Except SettingsError Settings) := do
  let chosen ← if files.isEmpty then Option.toList <$> find env else pure files
  match ← default.mergeFiles chosen with
  | .error e => pure (.error e)
  | .ok s => pure (s.applyOverrides overrides)

end Settings

namespace Starter

/-- Writes the settings file to start from. -/
def writeSettings (format : Text) (path : Path) : m (Except SettingsError Unit) := do
  match settingsFile format with
  | .error e => pure (.error (.unsupportedFormat e))
  | .ok text =>
    match ← Files.write path text with
    | .error e => pure (.error (.unwritable path e))
    | .ok _ => pure (.ok ())

/-- Writes templates into a folder and lists the paths written. Without `force`, what is there stays. -/
def writeTemplates (dir : Path) (force : Bool) : List (Text × Text) → m (Except SettingsError (List Path))
  | [] => pure (.ok [])
  | (name, text) :: rest => do
    let path := Path.join dir name
    if !force && (← Files.isThere path) then writeTemplates dir force rest
    else
      match ← Files.write path text with
      | .error e => pure (.error (.unwritableTemplate path e))
      | .ok _ =>
        match ← writeTemplates dir force rest with
        | .error e => pure (.error e)
        | .ok paths => pure (.ok (path :: paths))

/-- Makes a folder that holds the templates to start from. -/
def exportTemplates (dir : Path) (force : Bool) : m (Except SettingsError (List Path)) := do
  match ← Files.makeFolders dir with
  | .error e => pure (.error (.noTemplateFolder dir e))
  | .ok _ => writeTemplates dir force templates

end Starter

end

end LineMarkup
