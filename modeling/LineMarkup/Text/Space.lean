import LineMarkup.Text.Basic
import LineMarkup.Text.Ranges

/-!
White space, and trimming it off the ends of a text.
-/

namespace LineMarkup.Text

set_option autoImplicit false

/-- The code points with the Unicode property White_Space. -/
def spaceRanges : Ranges := [
  (0x9, 0xD), (0x20, 0x20), (0x85, 0x85), (0xA0, 0xA0), (0x1680, 0x1680), (0x2000, 0x200A),
  (0x2028, 0x2029), (0x202F, 0x202F), (0x205F, 0x205F), (0x3000, 0x3000)]

def isSpace (c : Char) : Bool := spaceRanges.holds c.toNat

def trimStart (t : Text) : Text := t.dropWhile isSpace

def trimEnd (t : Text) : Text := (t.reverse.dropWhile isSpace).reverse

def trim (t : Text) : Text := trimEnd (trimStart t)

@[simp] theorem isSpace_newline : isSpace '\n' = true := by decide

@[simp] theorem trim_nil : trim [] = [] := rfl

theorem trimStart_eq_self_of_head {c : Char} {t : Text} (h : isSpace c = false) :
    trimStart (c :: t) = c :: t := by
  simp [trimStart, h]

end LineMarkup.Text
