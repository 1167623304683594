import LineMarkup.Text.Pieces
import LineMarkup.Variables

/-!
Templates. A placeholder is a name of word characters in doubled braces. Filling a template replaces
every placeholder whose name has a value, in one pass, and keeps all the others.
-/

namespace LineMarkup.Template

set_option autoImplicit false

/-- The variable that names a document's template; no placeholder stands for it. -/
def templateKey : Text := "template".toList

/-- The placeholder of the document itself, whatever is declared under this name. -/
def contentKey : Text := "content".toList

def opening : Text := ['\x7b', '\x7b']

def closing : Text := ['\x7d', '\x7d']

def placeholder (name : Text) : Text := opening ++ name ++ closing

def placeholder? (t : Text) : Option (Text × Nat) :=
  match t.after? opening with
  | some r =>
    let (name, rest) := Text.spanWord r
    if !name.isEmpty && rest.startsWith closing then some (name, name.length + 3) else none
  | none => none

def fill (template : Text) (values : Variables) : Text :=
  Text.replaceAll placeholder? (fun name => (values.get? name).getD (placeholder name)) template

/-- The values for the placeholders of the template that `vars` names. -/
def values? (vars : Variables) (content : Text) : Option Variables :=
  if (vars.get? templateKey).isSome then
    some ((vars.erase templateKey).set contentKey content)
  else none

end LineMarkup.Template
