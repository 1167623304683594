import LineMarkup.Arguments
import LineMarkup.Settings.Override

/-!
The command line of the program: `convert`, `init` and `export`, and the switches that stand before or
after any of them.
-/

namespace LineMarkup

set_option autoImplicit false

open Arguments (Level Scan Switch UsageError)

inductive Command where
  | convert (sources : List Path) (output outputDir : Option Path) (jobs : Option Nat)
      (toOutput : Bool)
  | init (output : Path) (format : Text) (force : Bool)
  | export (dir : Path) (force : Bool)
deriving DecidableEq, Repr

structure Invocation where
  verbose : Bool
  settingsFiles : List Path
  overrides : List Text
  command : Command
deriving DecidableEq, Repr

namespace Invocation

inductive Key where
  | verbose
  | settingsFile
  | override
  | source
  | output
  | outputDir
  | jobs
  | toOutput
  | format
  | force
deriving DecidableEq, Repr

def anyText : Arguments.Check := fun _ => none

def aPath : Arguments.Check := fun t => if t.isEmpty then some .invalidValue else none

def aCount : Arguments.Check := fun t => match Count.read t with
  | .ok _ => none
  | .error _ => some .refusedValue

def oneOf (choices : List Text) : Arguments.Check := fun t =>
  if choices.contains t then none else some .invalidValue

def flag (short : Option Char) (long : String) (key : Key) : Switch Key := ⟨short, long.toList, .flag key⟩

def value (short : Option Char) (long : String) (key : Key) (check : Arguments.Check) : Switch Key :=
  ⟨short, long.toList, .value key false check⟩

def values (short : Option Char) (long : String) (key : Key) (check : Arguments.Check) : Switch Key :=
  ⟨short, long.toList, .value key true check⟩

/-- The switches of every level. -/
def common : List (Switch Key) := [
  flag (some 'v') "verbose" .verbose,
  values (some 'c') "config-file" .settingsFile aPath,
  values none "config" .override anyText,
  ⟨some 'h', "help".toList, .help⟩]

def convertName : Text := "convert".toList

def initName : Text := "init".toList

def exportName : Text := "export".toList

def helpName : Text := "help".toList

def topLevel : Level Key where
  switches := common ++ [⟨some 'V', "version".toList, .version⟩]
  operands := none
  subcommands := [convertName, initName, exportName, helpName]

def convertLevel : Level Key where
  switches := common ++ [
    value (some 'o') "output" .output aPath,
    value (some 'O') "output-dir" .outputDir aPath,
    value (some 'j') "jobs" .jobs aCount,
    flag none "stdout" .toOutput]
  operands := some (.source, aPath)
  subcommands := []

def initLevel : Level Key where
  switches := common ++ [
    value (some 'o') "output" .output aPath,
    value (some 'F') "format" .format (oneOf ["toml".toList, "json".toList]),
    flag (some 'f') "force" .force]
  operands := none
  subcommands := []

def exportLevel : Level Key where
  switches := common ++ [
    value (some 'o') "output-dir" .outputDir aPath,
    flag none "force" .force]
  operands := none
  subcommands := []

def convertCommand (s : Scan Key) : Except UsageError Command :=
  let output := (s.valuesOf .output).head?
  let outputDir := (s.valuesOf .outputDir).head?
  let toOutput := s.isGiven .toOutput
  if toOutput && (output.isSome || outputDir.isSome) then .error .conflict
  else if (s.valuesOf .source).isEmpty then .error .missingArgument
  else
    let jobs := (s.valuesOf .jobs).head?.bind fun t => (Count.read t).toOption
    .ok (.convert (s.valuesOf .source) output outputDir jobs toOutput)

def initCommand (s : Scan Key) : Except UsageError Command :=
  let output := (s.valuesOf .output).head?.getD "hbhd.toml".toList
  let format := (s.valuesOf .format).head?.getD "toml".toList
  .ok (.init output format (s.isGiven .force))

def exportCommand (s : Scan Key) : Except UsageError Command :=
  let dir := (s.valuesOf .outputDir).head?.getD "templates".toList
  .ok (.export dir (s.isGiven .force))

/-- Help may be asked for one subcommand, or for help itself. -/
def helpOn : List Text → UsageError
  | [] => .help
  | [name] => if topLevel.subcommands.contains name then .help else .invalidSubcommand
  | _ => .invalidSubcommand

/-- A subcommand with the line that follows its name. -/
def subcommand (name : Text) (args : List Text) : Except UsageError (Scan Key × Command) :=
  let read (level : Level Key) (command : Scan Key → Except UsageError Command) :
      Except UsageError (Scan Key × Command) :=
    (level.read args).bind fun s => (command s).map fun c => (s, c)
  if name = convertName then read convertLevel convertCommand
  else if name = initName then read initLevel initCommand
  else if name = exportName then read exportLevel exportCommand
  else .error (helpOn args)

/-- What is given after the subcommand stands for what is given before it. -/
def latest (top sub : Scan Key) (key : Key) : List Text :=
  if sub.isGiven key then sub.valuesOf key else top.valuesOf key

def parse (args : List Text) : Except UsageError Invocation :=
  (Scan.start.line topLevel args).bind fun
    | (top, some (name, rest)) =>
      (subcommand name rest).bind fun (sub, command) =>
        top.settle.bind fun top => .ok {
          verbose := top.isGiven .verbose || sub.isGiven .verbose
          settingsFiles := latest top sub .settingsFile
          overrides := latest top sub .override
          command := command }
    | (top, none) =>
      top.settle.bind fun top =>
        if top.given.isEmpty then .error .nothingGiven else .error .missingSubcommand

/-- The settings with what the command line says in their place. -/
def mergeInto (i : Invocation) (s : Settings) : Settings :=
  match i.command with
  | .convert _ _ outputDir jobs _ =>
    { s with outputDir := outputDir.or s.outputDir, jobs := jobs.or s.jobs }
  | _ => s

end Invocation

end LineMarkup
