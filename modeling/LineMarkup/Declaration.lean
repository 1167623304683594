import LineMarkup.Text.Space
import LineMarkup.Text.Word

/-!
Declarations of variables: an at sign, a name of word characters, a colon, white space if any, and
the value, which reaches to the end of the line and holds no newline.
-/

namespace LineMarkup

set_option autoImplicit false

structure Declaration where
  name : Text
  value : Text
deriving DecidableEq, Repr

namespace Declaration

def parse? : Text → Option Declaration
  | '@' :: r =>
    match Text.spanWord r with
    | (name, ':' :: rest) =>
      let value := Text.trimStart rest
      if name.isEmpty || value.contains '\n' then none else some ⟨name, value⟩
    | _ => none
  | _ => none

end Declaration

end LineMarkup
