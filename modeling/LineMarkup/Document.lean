import LineMarkup.Inline
import LineMarkup.Keyword
import LineMarkup.Paragraph
import LineMarkup.Template
import LineMarkup.Template.Location
import LineMarkup.Text.Quoted

/-!
Documents and their conversion. The lines of a source are put into paragraphs; declarations are then
taken out and recorded, every other line is converted by itself, and what is left of the lines is
joined into the content, which goes into the template that the document declares.
-/

namespace LineMarkup

set_option autoImplicit false

/-- How documents are converted: the time that keywords see, and what goes between lines. -/
structure Converter where
  now : Time.Moment
  separator : Text
deriving DecidableEq, Repr

def Converter.defaultSeparator : Text := ['\n']

structure Document where
  content : Text
  values : Variables

inductive ConvertError where
  | missingTemplate
  | invalidPath (path : Text)
  | unreadableTemplate (path : Text) (reason : String)
deriving DecidableEq, Repr

def ConvertError.message : ConvertError → String
  | .missingTemplate =>
    "Configuration error: no template declared (add '@template: <file>')"
  | .invalidPath path => "Invalid path: " ++ String.ofList path.quoted
  | .unreadableTemplate path reason =>
    "Failed to read template " ++ String.ofList path ++ ": " ++ reason

namespace Converter

/-- The declaration on a line, with the keywords in its value expanded. -/
def declaration? (c : Converter) (line : Line) : Option Declaration :=
  (Declaration.parse? line).map fun d => { d with value := Keyword.expand c.now d.value }

/-- What a line contributes to the content: its HTML, if it is no declaration and not empty. -/
def contentLine? (line : Line) : Option Text :=
  if (Declaration.parse? line).isSome then none
  else
    let html := Inline.convert line
    if html.isEmpty then none else some html

def render (c : Converter) (source : List Line) : Document :=
  let lines := Paragraph.tag source
  { content := Text.join c.separator (lines.filterMap contentLine?)
    values := Variables.ofDeclarations (lines.filterMap c.declaration?) }

end Converter

namespace Document

def template? (d : Document) : Option Text := d.values.get? Template.templateKey

/-- The path of the template that a document declares. -/
def templatePath (d : Document) (source : Option Text) : Except ConvertError Text :=
  match d.template? with
  | none => .error .missingTemplate
  | some name =>
    match Template.location source name with
    | .ok path => .ok path
    | .error e => .error (.invalidPath e.path)

def fill (d : Document) (template : Text) : Except ConvertError Text :=
  match Template.values? d.values d.content with
  | some values => .ok (Template.fill template values)
  | none => .error .missingTemplate

end Document

/-- Converts a source. `load` reads the template at a path or says why it cannot. -/
def Converter.convert {m : Type → Type} [Monad m] (c : Converter) (source : List Line)
    (path : Option Text) (load : Text → m (Except String Text)) : m (Except ConvertError Text) :=
  let document := c.render source
  match document.templatePath path with
  | .error e => pure (.error e)
  | .ok location => do
    match ← load location with
    | .error reason => pure (.error (.unreadableTemplate location reason))
    | .ok template => pure (document.fill template)

/-- Templates that are held in memory, by their paths. -/
def loadFrom (templates : Variables) (path : Text) : Except String Text :=
  match templates.get? path with
  | some text => .ok text
  | none => .error ("no template at " ++ String.ofList path)

end LineMarkup
