import LineMarkup.Text.Basic

/-!
Command lines. A level has switches, perhaps operands, and perhaps names that hand the rest of the line
to another level. A switch is written long (`--name`, `--name=value`) or short (`-n`, `-nvalue`,
`-n=value`, and several in one word); after a double dash everything is an operand.
-/

namespace LineMarkup.Arguments

set_option autoImplicit false

inductive UsageError where
  | help
  | version
  | nothingGiven
  | missingSubcommand
  | invalidSubcommand
  | unknownArgument
  | missingArgument
  | conflict
  | invalidValue
  | tooManyValues
  | refusedValue
deriving DecidableEq, Repr

/-- What a value has to be, as the error of one that is not. -/
abbrev Check := Text → Option UsageError

inductive Use (κ : Type) where
  | help
  | version
  | flag (key : κ)
  | value (key : κ) (repeats : Bool) (check : Check)

structure Switch (κ : Type) where
  short : Option Char
  long : Text
  use : Use κ

structure Level (κ : Type) where
  switches : List (Switch κ)
  operands : Option (κ × Check)
  subcommands : List Text

/-- Values that have been given but not yet looked at. -/
structure Pending (κ : Type) where
  key : κ
  repeats : Bool
  check : Check
  values : List Text

structure Scan (κ : Type) where
  /-- What has been given so far, in order; a flag has an empty value. -/
  given : List (κ × Text)
  pending : Option (Pending κ)
  /-- Whether the pending switch still waits for its value. -/
  awaiting : Bool
  /-- Whether a double dash has been seen. -/
  trailing : Bool

def Scan.start {κ : Type} : Scan κ := ⟨[], none, false, false⟩

variable {κ : Type} [DecidableEq κ]

namespace Scan

def isGiven (s : Scan κ) (key : κ) : Bool := s.given.any fun g => g.1 = key

def valuesOf (s : Scan κ) (key : κ) : List Text :=
  (s.given.filter fun g => g.1 = key).map Prod.snd

/-- Takes the values of a switch or operand, unless it has been given before and may not repeat. -/
def store (s : Scan κ) (p : Pending κ) : Except UsageError (Scan κ) :=
  if p.values.isEmpty then .error .invalidValue
  else if !p.repeats && s.isGiven p.key then .error .conflict
  else match p.values.findSome? p.check with
    | some e => .error e
    | none => .ok { s with
        given := s.given ++ p.values.map fun v => (p.key, v)
        pending := none
        awaiting := false }

/-- Looks at what is pending. -/
def settle (s : Scan κ) : Except UsageError (Scan κ) :=
  match s.pending with
  | none => .ok s
  | some p => s.store p

/-- Uses a switch, with the value that is attached to it if there is one. -/
def apply (s : Scan κ) (u : Use κ) (attached : Option Text) : Except UsageError (Scan κ) :=
  match u, attached with
  | .help, none => s.settle.bind fun _ => .error .help
  | .version, none => s.settle.bind fun _ => .error .version
  | .flag key, none => s.settle.bind fun s =>
    if s.isGiven key then .error .conflict
    else .ok { s with given := s.given ++ [(key, [])] }
  | .value key repeats check, some v => s.settle.bind fun s => s.store ⟨key, repeats, check, [v]⟩
  | .value key repeats check, none => s.settle.bind fun s =>
    .ok { s with pending := some ⟨key, repeats, check, []⟩, awaiting := true }
  | _, some _ => .error .tooManyValues

/-- A word that is no switch: the value that a switch waits for, or an operand. -/
def word (level : Level κ) (s : Scan κ) (a : Text) : Except UsageError (Scan κ) :=
  match s.awaiting && !s.trailing, s.pending with
  | true, some p => .ok { s with pending := some { p with values := [a] }, awaiting := false }
  | _, _ =>
    match level.operands with
    | none =>
      if level.subcommands.isEmpty || (s.trailing && level.subcommands.contains a) then
        .error .unknownArgument
      else .error .invalidSubcommand
    | some (key, check) =>
      match s.pending with
      | some p =>
        if p.key = key then .ok { s with pending := some { p with values := p.values ++ [a] } }
        else s.settle.bind fun s => .ok { s with pending := some ⟨key, true, check, [a]⟩ }
      | none => .ok { s with pending := some ⟨key, true, check, [a]⟩ }

/-- Short switches in one word. The first that takes a value takes the rest of the word. -/
def shorts (level : Level κ) : Scan κ → Text → Except UsageError (Scan κ)
  | s, [] => .ok s
  | s, c :: r =>
    match level.switches.find? fun w => w.short = some c with
    | none => .error .unknownArgument
    | some w => match w.use with
      | .value .. => match r with
        | [] => s.apply w.use none
        | '=' :: v => s.apply w.use (some v)
        | v => s.apply w.use (some v)
      | _ => (s.apply w.use none).bind fun s => shorts level s r

/-- A long switch without its two dashes. -/
def long (level : Level κ) (s : Scan κ) (t : Text) : Except UsageError (Scan κ) :=
  let (name, attached) : Text × Option Text := match Text.cut '=' t with
    | some (name, v) => (name, some v)
    | none => (t, none)
  match level.switches.find? fun w => w.long = name with
  | some w => s.apply w.use attached
  | none => .error .unknownArgument

/-- Scans a line up to its end or to the name of a subcommand, which comes out with what follows it.
The values before a subcommand stay pending. -/
def line (level : Level κ) :
    Scan κ → List Text → Except UsageError (Scan κ × Option (Text × List Text))
  | s, [] => .ok (s, none)
  | s, a :: rest =>
    if s.trailing then (s.word level a).bind fun s => line level s rest
    else if !s.awaiting && level.subcommands.contains a then .ok (s, some (a, rest))
    else match a with
      | ['-', '-'] => line level { s with trailing := true } rest
      | '-' :: '-' :: t => (s.long level t).bind fun s => line level s rest
      | '-' :: c :: t => (s.shorts level (c :: t)).bind fun s => line level s rest
      | a => (s.word level a).bind fun s => line level s rest

end Scan

/-- All that a line without subcommands gives. -/
def Level.read (level : Level κ) (args : List Text) : Except UsageError (Scan κ) :=
  (Scan.start.line level args).bind fun (s, _) => s.settle

end LineMarkup.Arguments
