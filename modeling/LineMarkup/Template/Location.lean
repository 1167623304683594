import LineMarkup.Text.Basic

/-!
Where templates are looked for: beside the document that declares them. Paths are slash-separated
texts here, in the form in which documents write them.
-/

namespace LineMarkup.Template

set_option autoImplicit false

/-- A path that no document can have: it is empty, ends in a slash or holds a newline. -/
structure InvalidSource where
  path : Text
deriving DecidableEq, Repr

def isSource (path : Text) : Bool :=
  !path.isEmpty && path.getLast? ≠ some '/' && !path.contains '\n'

/-- A path up to its last slash, which is kept. -/
def folder (path : Text) : Text := (path.reverse.dropWhile (· ≠ '/')).reverse

def sourceFolder (path : Text) : Except InvalidSource Text :=
  if isSource path then .ok (folder path) else .error ⟨path⟩

/-- The path of the template that a document declares by `name`. -/
def location (source : Option Text) (name : Text) : Except InvalidSource Text :=
  match source with
  | none => .ok name
  | some path => (sourceFolder path).map (· ++ name)

end LineMarkup.Template
