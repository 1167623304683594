import LineMarkup.Text.Basic

/-!
Left-to-right scanning. A site looks at the start of a text and, where it finds what it looks for,
answers with it and with the number of characters that it takes after the first. `pieces` tries a
site at every character that no earlier find has taken, so finds never overlap and the leftmost
one wins. What is written for a find is not scanned again.
-/

namespace LineMarkup.Text

set_option autoImplicit false

variable {α : Type}

inductive Piece (α : Type) where
  | plain (c : Char)
  | found (a : α)
deriving DecidableEq, Repr

abbrev Site (α : Type) := Text → Option (α × Nat)

def piecesFrom (site : Site α) : Nat → Text → List (Piece α)
  | _, [] => []
  | n + 1, _ :: r => piecesFrom site n r
  | 0, c :: r =>
    match site (c :: r) with
    | some (a, n) => .found a :: piecesFrom site n r
    | none => .plain c :: piecesFrom site 0 r

def pieces (site : Site α) (t : Text) : List (Piece α) := piecesFrom site 0 t

def Piece.write (f : α → Text) : Piece α → Text
  | .plain c => [c]
  | .found a => f a

/-- Every find replaced by what `f` writes for it, everything else kept. -/
def replaceAll (site : Site α) (f : α → Text) (t : Text) : Text :=
  (pieces site t).flatMap (Piece.write f)

theorem piecesFrom_eq_drop (site : Site α) (n : Nat) (t : Text) :
    piecesFrom site n t = pieces site (t.drop n) := by
  induction n generalizing t with
  | zero => rfl
  | succ n ih =>
    cases t with
    | nil => rfl
    | cons c r => simp [piecesFrom, ih]

@[simp] theorem pieces_nil (site : Site α) : pieces site [] = [] := rfl

theorem pieces_cons (site : Site α) (c : Char) (r : Text) :
    pieces site (c :: r) = match site (c :: r) with
      | some (a, n) => .found a :: pieces site (r.drop n)
      | none => .plain c :: pieces site r := by
  rw [pieces, piecesFrom]
  cases site (c :: r) with
  | none => rfl
  | some p => simp only [piecesFrom_eq_drop]

@[simp] theorem replaceAll_nil (site : Site α) (f : α → Text) : replaceAll site f [] = [] := rfl

theorem replaceAll_cons (site : Site α) (f : α → Text) (c : Char) (r : Text) :
    replaceAll site f (c :: r) = match site (c :: r) with
      | some (a, n) => f a ++ replaceAll site f (r.drop n)
      | none => c :: replaceAll site f r := by
  rw [replaceAll, pieces_cons]
  cases site (c :: r) with
  | none => simp [replaceAll, Piece.write]
  | some p => simp [replaceAll, Piece.write]

end LineMarkup.Text
