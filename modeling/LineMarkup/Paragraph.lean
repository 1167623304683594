import LineMarkup.Line

/-!
Paragraph tags. Every maximal run of paragraph lines is put between an opening and a closing tag,
each a line of its own.
-/

namespace LineMarkup.Paragraph

set_option autoImplicit false

def openTag : Line := "<p>".toList

def closeTag : Line := "</p>".toList

/-- Tags the lines that follow a paragraph line (`inside`) or any other place. -/
def tagFrom (inside : Bool) : List Line → List Line
  | [] => if inside then [closeTag] else []
  | line :: rest =>
    if line.isParagraph then
      if inside then line :: tagFrom true rest else openTag :: line :: tagFrom true rest
    else
      if inside then closeTag :: line :: tagFrom false rest else line :: tagFrom false rest

def tag (lines : List Line) : List Line := tagFrom false lines

@[simp] theorem tag_nil : tag [] = [] := rfl

theorem tagFrom_true (lines : List Line) :
    tagFrom true lines =
      lines.takeWhile Line.isParagraph ++ closeTag :: tag (lines.dropWhile Line.isParagraph) := by
  induction lines with
  | nil => rfl
  | cons line rest ih =>
    by_cases h : line.isParagraph = true
    · simp [tagFrom, h, ih]
    · simp [tag, tagFrom, h]

end LineMarkup.Paragraph
