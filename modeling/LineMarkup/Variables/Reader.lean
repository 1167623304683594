import LineMarkup.Settings.Reader
import LineMarkup.Variables

/-!
Variables and declarations in JSON.
-/

namespace LineMarkup

set_option autoImplicit false

/-- An object of texts; of members with one name the last one counts. -/
def Variables.ofJson? : Json → Option Variables
  | .object members => do
    let named ← Json.named? members
    let entries ← named.mapM fun (name, v) => v.text?.map fun value => (name, value)
    some (Variables.ofList entries)
  | _ => none

def Variables.parse? (t : Text) : Option Variables := (Json.parse? t).bind Variables.ofJson?

namespace Declaration

/-- An object with a name and a value, or an array of the two. -/
def ofJson? : Json → Option Declaration
  | .object members => do
    let named ← Json.named? members
    let name ← (← Json.member "name".toList named)
    let value ← (← Json.member "value".toList named)
    some ⟨← name.text?, ← value.text?⟩
  | .array [name, value] => do some ⟨← name.text?, ← value.text?⟩
  | _ => none

def ofJsonText? (t : Text) : Option Declaration := (Json.parse? t).bind ofJson?

end Declaration

end LineMarkup
