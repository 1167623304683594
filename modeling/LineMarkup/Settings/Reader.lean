import LineMarkup.Json
import LineMarkup.Settings.Override
import LineMarkup.Toml.Reader

/-!
Settings in JSON and TOML. Members that are no settings are ignored; a setting of the wrong type, or
one that is given twice, makes the whole text invalid.
-/

namespace LineMarkup

set_option autoImplicit false

inductive SettingsFormat where
  | json
  | toml
deriving DecidableEq, Repr

/-- The format with a name, in capitals or not. -/
def SettingsFormat.ofName? (name : Text) : Option SettingsFormat :=
  if name.lowerAscii = "json".toList then some .json
  else if name.lowerAscii = "toml".toList then some .toml
  else none

namespace Json

/-- A setting may be `null`, which leaves it unset. -/
def optional? {α : Type} (read : Json → Option α) : Json → Option (Option α)
  | .null => some none
  | v => (read v).map some

def text? : Json → Option Text
  | .string t => t
  | _ => none

/-- A count is an integer literal of digits alone. -/
def count? : Json → Option Nat
  | .number literal =>
    if literal.all Char.isDigit then (Count.readFrom 0 literal).toOption else none
  | _ => none

/-- The value of a member: the outer option fails if there are two, the inner one if there is none. -/
def member (name : Text) (members : List (Text × Json)) : Option (Option Json) :=
  match members.filter fun m => m.1 = name with
  | [] => some none
  | [(_, v)] => some (some v)
  | _ => none

/-- The members of an object, if all their names are texts. -/
def named? (members : List (Option Text × Json)) : Option (List (Text × Json)) :=
  members.mapM fun (name, v) => name.map fun n => (n, v)

end Json

/-- One value for each key, or nothing where the key is left out. -/
structure Given (α : Type) where
  outputDir : Option α
  outputExtension : Option α
  lineSeparator : Option α
  jobs : Option α

namespace Given

def ofMembers? (members : List (Text × Json)) : Option (Given Json) := do
  let value (key : Settings.Key) : Option (Option Json) := Json.member key.name members
  some ⟨← value .outputDir, ← value .outputExtension, ← value .lineSeparator, ← value .jobs⟩

/-- Values in the order of the keys, the last of which may be missing. -/
def ofItems? : List Json → Option (Given Json)
  | [] => some ⟨none, none, none, none⟩
  | [a] => some ⟨some a, none, none, none⟩
  | [a, b] => some ⟨some a, some b, none, none⟩
  | [a, b, c] => some ⟨some a, some b, some c, none⟩
  | [a, b, c, d] => some ⟨some a, some b, some c, some d⟩
  | _ => none

/-- Reads a value if it is given. -/
def read? {α β : Type} (read : α → Option (Option β)) : Option α → Option (Option β)
  | none => some none
  | some a => read a

/-- A layer may leave any setting out. -/
def jsonLayer? (g : Given Json) : Option Layer := do
  some {
    outputDir := ← read? (Json.optional? Json.text?) g.outputDir
    outputExtension := ← read? (Json.optional? Json.text?) g.outputExtension
    lineSeparator := ← read? (Json.optional? Json.text?) g.lineSeparator
    jobs := ← read? (Json.optional? Json.count?) g.jobs }

/-- Settings that have a default may be left out, but not `null`. -/
def jsonSettings? (g : Given Json) : Option Settings := do
  let always {β : Type} (read : Json → Option β) (v : Json) : Option (Option β) := (read v).map some
  let dir ← read? (Json.optional? Json.text?) g.outputDir
  let extension ← read? (always Json.text?) g.outputExtension
  let separator ← read? (always Json.text?) g.lineSeparator
  let jobs ← read? (Json.optional? Json.count?) g.jobs
  some ⟨dir, extension.getD Settings.default.outputExtension,
    separator.getD Settings.default.lineSeparator, jobs⟩

end Given

/-- A layer is an object, or an array of a value for each key. -/
def Layer.ofJson? : Json → Option Layer
  | .object members => ((Json.named? members).bind Given.ofMembers?).bind Given.jsonLayer?
  | .array items =>
    if items.length = Settings.Key.all.length then (Given.ofItems? items).bind Given.jsonLayer?
    else none
  | _ => none

/-- Settings are an object, or an array of values for the first keys. -/
def Settings.ofJson? : Json → Option Settings
  | .object members => ((Json.named? members).bind Given.ofMembers?).bind Given.jsonSettings?
  | .array items => (Given.ofItems? items).bind Given.jsonSettings?
  | _ => none

namespace Toml

def Value.text? : Value → Option Text
  | .text t => some t
  | _ => none

def Value.count? : Value → Option Nat
  | .integer n => if 0 ≤ n && Nat.ble n.toNat Count.largest then some n.toNat else none
  | _ => none

end Toml

def Layer.ofToml? (entries : Toml.Entries) : Option Layer := do
  let value (key : Settings.Key) : Option Toml.Value := Toml.Entries.get? key.name entries
  let read {β : Type} (f : Toml.Value → Option β) (v : Option Toml.Value) : Option (Option β) :=
    Given.read? (fun v => (f v).map some) v
  some {
    outputDir := ← read Toml.Value.text? (value .outputDir)
    outputExtension := ← read Toml.Value.text? (value .outputExtension)
    lineSeparator := ← read Toml.Value.text? (value .lineSeparator)
    jobs := ← read Toml.Value.count? (value .jobs) }

def Settings.ofToml? (entries : Toml.Entries) : Option Settings := do
  let value (key : Settings.Key) : Option Toml.Value := Toml.Entries.get? key.name entries
  let read {β : Type} (f : Toml.Value → Option β) (v : Option Toml.Value) : Option (Option β) :=
    Given.read? (fun v => (f v).map some) v
  let dir ← read Toml.Value.text? (value .outputDir)
  let extension ← read Toml.Value.text? (value .outputExtension)
  let separator ← read Toml.Value.text? (value .lineSeparator)
  let jobs ← read Toml.Value.count? (value .jobs)
  some ⟨dir, extension.getD Settings.default.outputExtension,
    separator.getD Settings.default.lineSeparator, jobs⟩

def Layer.parse? (format : SettingsFormat) (t : Text) : Option Layer :=
  match format with
  | .json => (Json.parse? t).bind Layer.ofJson?
  | .toml => (Toml.parse? t).bind Layer.ofToml?

def Settings.parse? (format : SettingsFormat) (t : Text) : Option Settings :=
  match format with
  | .json => (Json.parse? t).bind Settings.ofJson?
  | .toml => (Toml.parse? t).bind Settings.ofToml?

end LineMarkup
