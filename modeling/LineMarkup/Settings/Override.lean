import LineMarkup.Settings
import LineMarkup.Text.Space

/-!
Overrides: single settings written as `key=value`.
-/

namespace LineMarkup

set_option autoImplicit false

/-- Why a text is no count. -/
inductive CountFault where
  | notDigit
  | tooLarge
deriving DecidableEq, Repr

def CountFault.message : CountFault → String
  | .notDigit => "invalid digit found in string"
  | .tooLarge => "number too large to fit in target type"

namespace Count

/-- Counts fit in 64 bits. -/
def largest : Nat := Nat.pow 2 64 - 1

/-- Reads on after digits that make `n`; the first character that does not fit decides the fault. -/
def readFrom (n : Nat) : Text → Except CountFault Nat
  | [] => .ok n
  | c :: r =>
    if !c.isDigit then .error .notDigit
    else
      let next := n * 10 + (c.toNat - '0'.toNat)
      if largest < next then .error .tooLarge else readFrom next r

/-- A count is written in decimal digits, with a plus sign before them or without. -/
def read : Text → Except CountFault Nat
  | [] => .error .notDigit
  | ['+'] => .error .notDigit
  | '+' :: r => readFrom 0 r
  | t => readFrom 0 t

end Count

inductive OverrideError where
  | noEquals (text : Text)
  | unknownKey (key : Text)
  | badJobs (value : Text) (fault : CountFault)
deriving DecidableEq, Repr

def OverrideError.message : OverrideError → String
  | .noEquals text =>
    "Invalid config override format: '" ++ String.ofList text ++ "'. Expected KEY=VALUE"
  | .unknownKey key => "Unknown configuration key: '" ++ String.ofList key ++ "'"
  | .badJobs value fault =>
    "Invalid value for 'jobs': '" ++ String.ofList value ++ "': " ++ fault.message

namespace Settings

inductive Key where
  | outputDir
  | outputExtension
  | lineSeparator
  | jobs
deriving DecidableEq, Repr

def Key.all : List Key := [.outputDir, .outputExtension, .lineSeparator, .jobs]

def Key.name : Key → Text
  | .outputDir => "output_dir".toList
  | .outputExtension => "output_extension".toList
  | .lineSeparator => "line_separator".toList
  | .jobs => "jobs".toList

def Key.ofName? (name : Text) : Option Key := Key.all.find? fun k => k.name = name

/-- In a separator, a backslash before `n`, `t`, `r` or another backslash makes one character of
the two; any other backslash stands for itself. -/
def unescape : Text → Text
  | '\\' :: 'n' :: r => '\n' :: unescape r
  | '\\' :: 't' :: r => '\t' :: unescape r
  | '\\' :: 'r' :: r => '\r' :: unescape r
  | '\\' :: '\\' :: r => '\\' :: unescape r
  | c :: r => c :: unescape r
  | [] => []

/-- Sets one key. An empty value unsets the folder and the number of jobs. -/
def assign (s : Settings) (key : Key) (value : Text) : Except OverrideError Settings :=
  match key with
  | .outputDir => .ok { s with outputDir := if value.isEmpty then none else some value }
  | .outputExtension => .ok { s with outputExtension := value.dropWhile (· = '.') }
  | .lineSeparator => .ok { s with lineSeparator := unescape value }
  | .jobs =>
    if value.isEmpty then .ok { s with jobs := none }
    else match Count.read value with
      | .ok n => .ok { s with jobs := some n }
      | .error fault => .error (.badJobs value fault)

def override (s : Settings) (name value : Text) : Except OverrideError Settings :=
  match Key.ofName? name with
  | some key => s.assign key value
  | none => .error (.unknownKey name)

/-- An override as it is typed; white space around the key and the value does not count. -/
def overrideText (s : Settings) (t : Text) : Except OverrideError Settings :=
  match Text.cut '=' t with
  | some (name, value) => s.override name.trim value.trim
  | none => .error (.noEquals t)

/-- Applies overrides up to the first that is invalid. The settings that come out have all those
before it applied. -/
def overrideAll (s : Settings) : List Text → Settings × Option OverrideError
  | [] => (s, none)
  | t :: rest =>
    match s.overrideText t with
    | .ok next => next.overrideAll rest
    | .error e => (s, some e)

@[simp] theorem overrideAll_nil (s : Settings) : s.overrideAll [] = (s, none) := rfl

end Settings

end LineMarkup
