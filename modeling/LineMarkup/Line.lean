import LineMarkup.Text.Space

/-!
Lines of a document. A line belongs to a paragraph unless, without the white space around it, it is
empty or starts with one of four leads.
-/

namespace LineMarkup

set_option autoImplicit false

abbrev Line := Text

/-- What sets a line apart from paragraph text. -/
inductive Marker where
  | blank
  | heading
  | declaration
  | blockquote
  | comment
deriving DecidableEq, Repr

namespace Marker

/-- In the order in which they are tried. -/
def all : List Marker := [blank, heading, declaration, blockquote, comment]

def lead : Marker → Text
  | blank => []
  | heading => ['#']
  | declaration => ['@']
  | blockquote => ['>']
  | comment => [';', ';']

/-- Only the empty text is blank; the other markers ask for their lead. -/
def fits (m : Marker) (t : Text) : Bool :=
  match m with
  | blank => t.isEmpty
  | _ => t.startsWith m.lead

/-- The first of the given markers that the trimmed line has. -/
def find? (markers : List Marker) (line : Line) : Option Marker :=
  markers.find? fun m => m.fits line.trim

end Marker

def Line.marker? (line : Line) : Option Marker := Marker.find? Marker.all line

def Line.isParagraph (line : Line) : Bool := line.marker?.isNone

end LineMarkup
