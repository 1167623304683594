import LineMarkup.Text.Word

/-!
Search patterns: characters that stand for themselves, `\d` for a decimal digit, and a plus sign after
either for one or more of it. What is no pattern is found nowhere.
-/

namespace LineMarkup

set_option autoImplicit false

inductive Pattern.Symbol where
  | literal (c : Char)
  | digit
deriving DecidableEq, Repr

def Pattern.Symbol.fits (s : Pattern.Symbol) (c : Char) : Bool :=
  match s with
  | .literal d => c = d
  | .digit => Text.isDigit c

structure Pattern.Item where
  symbol : Pattern.Symbol
  repeated : Bool
deriving DecidableEq, Repr

abbrev Pattern := List Pattern.Item

namespace Pattern

/-- The characters that stand for something other than themselves. -/
def reserved : Text := "\\.+*?()|[\x7b^$".toList

def symbol? : Text → Option (Symbol × Text)
  | '\\' :: 'd' :: r => some (.digit, r)
  | '\\' :: c :: r => if reserved.contains c then some (.literal c, r) else none
  | c :: r => if reserved.contains c then none else some (.literal c, r)
  | [] => none

def compileFrom : Nat → Text → Option Pattern
  | _, [] => some []
  | 0, _ :: _ => none
  | n + 1, t =>
    match symbol? t with
    | none => none
    | some (s, '+' :: r) => (compileFrom n r).map (⟨s, true⟩ :: ·)
    | some (s, r) => (compileFrom n r).map (⟨s, false⟩ :: ·)

def compile? (t : Text) : Option Pattern := compileFrom t.length t

/-- Whether a pattern fits the start of a text. A repeated item may take any number of the characters
that it fits, but at least one. -/
def fits : Pattern → Text → Bool
  | [], _ => true
  | ⟨_, false⟩ :: _, [] => false
  | ⟨s, false⟩ :: rest, c :: r => s.fits c && fits rest r
  | ⟨s, true⟩ :: rest, t =>
    (List.range (t.takeWhile s.fits).length).any fun n => fits rest (t.drop (n + 1))

/-- Whether a pattern is found anywhere in a text. -/
def isFound (p : Pattern) (t : Text) : Bool :=
  p.fits t || match t with
    | [] => false
    | _ :: r => isFound p r

/-- Whether the pattern that a text writes is found; never, if it writes none. -/
def isFoundIn (pattern t : Text) : Bool :=
  match compile? pattern with
  | some p => p.isFound t
  | none => false

end Pattern

end LineMarkup
