import LineMarkup.Text.Pieces
import LineMarkup.Time.Format

/-!
Keywords in the values of variables. The one keyword, `TIME(format)`, is replaced by the time in that
format; where the format has no meaning, the call is kept as written.
-/

namespace LineMarkup.Keyword

set_option autoImplicit false

def timeLead : Text := "TIME(".toList

/-- A call and its argument, which ends at the first closing parenthesis. -/
def call? (t : Text) : Option (Text × Nat) :=
  match t.after? timeLead with
  | some r => (Text.cut ')' r).map fun (argument, _) => (argument, argument.length + timeLead.length)
  | none => none

/-- Expands the calls in a value by a formatter that may refuse its argument. -/
def expandWith (formatter : Text → Option Text) (value : Text) : Text :=
  Text.replaceAll call?
    (fun argument => (formatter argument).getD (timeLead ++ argument ++ [')'])) value

def expand (now : Time.Moment) (value : Text) : Text := expandWith (Time.format now) value

end LineMarkup.Keyword
