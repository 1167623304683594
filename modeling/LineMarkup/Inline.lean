import LineMarkup.Escape
import LineMarkup.Text.Pieces
import LineMarkup.Text.Space

/-!
Inline markup of one line. Five rules run one after the other, each on what the one before has left:
comments first, so that nothing inside them is converted, and headings last, so that they wrap
whatever the others have made.
-/

namespace LineMarkup.Inline

set_option autoImplicit false

inductive Rule where
  | comment
  | codeSpan
  | emphasis
  | link
  | heading
deriving DecidableEq, Repr

/-- In the order in which they run. -/
def Rule.all : List Rule := [.comment, .codeSpan, .emphasis, .link, .heading]

/-- A comment starts with two semicolons, takes the white space before them and ends the line. -/
def startsComment (t : Text) : Bool :=
  match t.trimStart.after? [';', ';'] with
  | some rest => !rest.contains '\n'
  | none => false

def dropComment : Text → Text
  | [] => []
  | c :: r => if startsComment (c :: r) then [] else c :: dropComment r

/-- Two occurrences of `mark` and the text between them. -/
def pair? (mark : Char) : Text.Site Text
  | [] => none
  | c :: r =>
    if c = mark then (Text.cut mark r).map fun (inner, _) => (inner, inner.length + 1) else none

def codeHtml (inner : Text) : Text :=
  "<code>".toList ++ Escape.shieldText inner ++ "</code>".toList

def emphasisHtml (inner : Text) : Text := "<em>".toList ++ inner ++ "</em>".toList

structure Link where
  label : Text
  target : Text
deriving DecidableEq, Repr

/-- A label in brackets and right after it a target in parentheses, neither of them empty. -/
def link? : Text.Site Link
  | '[' :: r =>
    match Text.cut ']' r with
    | some (label, '(' :: s) =>
      match Text.cut ')' s with
      | some (target, _) =>
        if label.isEmpty || target.isEmpty then none
        else some (⟨label, target⟩, label.length + target.length + 3)
      | none => none
    | _ => none
  | _ => none

def Link.html (l : Link) : Text :=
  "<a href=\"".toList ++ l.target ++ "\">".toList ++ l.label ++ "</a>".toList

/-- Number signs at the start make a heading of as many levels, unless a newline follows in it. -/
def wrapHeading (t : Text) : Text :=
  let body := t.trimStart
  let marks := body.takeWhile (· = '#')
  let title := Text.trimStart (body.dropWhile (· = '#'))
  if marks.isEmpty || title.contains '\n' then t
  else
    let level := 'h' :: Text.ofNat marks.length
    ['<'] ++ level ++ ['>'] ++ title ++ ['<', '/'] ++ level ++ ['>']

def Rule.apply : Rule → Text → Text
  | .comment => dropComment
  | .codeSpan => Text.replaceAll (pair? '\x60') codeHtml
  | .emphasis => Text.replaceAll (pair? '*') emphasisHtml
  | .link => Text.replaceAll link? Link.html
  | .heading => wrapHeading

/-- The HTML of one line. -/
def convert (line : Text) : Text :=
  Escape.unshield (Rule.all.foldl (fun t rule => rule.apply t) (Escape.shieldEscapes line))

end LineMarkup.Inline
