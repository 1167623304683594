import LineMarkup.Text.Basic

/-!
Backslash escapes. Before the rules of inline markup run, `shieldEscapes` puts a private-use
placeholder, which no rule looks for, in the place of every escaped token; `unshield` writes the
bare tokens afterwards. Backslashes before a token pair up: each pair is one backslash, and a last
odd one escapes the token. A placeholder that the author wrote is marked on the way in and comes
out unchanged.
-/

namespace LineMarkup.Escape

set_option autoImplicit false

def tokens : List Char := ['#', '@', '>', ';', '*', '\x60']

/-- The brackets of links are hidden only inside code spans. -/
def shields : List (Char × Char) := [
  ('#', '\uE000'), ('@', '\uE001'), ('>', '\uE002'), (';', '\uE003'), ('*', '\uE004'),
  ('\x60', '\uE005'), ('[', '\uE006'), (']', '\uE007')]

/-- Stands before a character that is to be taken as the author wrote it. -/
def literalMark : Char := '\uE008'

def isReserved (c : Char) : Bool := Nat.ble 0xE000 c.toNat && Nat.ble c.toNat 0xE008

def shield (c : Char) : Char :=
  match shields.find? fun p => p.1 = c with
  | some (_, placeholder) => placeholder
  | none => c

def unshieldChar (c : Char) : Char :=
  match shields.find? fun p => p.2 = c with
  | some (token, _) => token
  | none => c

def backslashes (k : Nat) : Text := List.replicate k '\\'

/-- Shields a text that `k` backslashes stand before. -/
def shieldFrom : Nat → Text → Text
  | k, [] => backslashes k
  | k, c :: r =>
    if c = '\\' then shieldFrom (k + 1) r
    else if isReserved c then backslashes k ++ literalMark :: c :: shieldFrom 0 r
    else if tokens.contains c then
      backslashes (k / 2) ++ (if k % 2 = 0 then c else shield c) :: shieldFrom 0 r
    else backslashes k ++ c :: shieldFrom 0 r

def shieldEscapes (t : Text) : Text := shieldFrom 0 t

/-- Hides every token of a text, escaped or not. -/
def shieldText (t : Text) : Text := t.map shield

def unshield : Text → Text
  | [] => []
  | [c] => if c = literalMark then [] else [unshieldChar c]
  | c :: d :: r =>
    if c = literalMark then d :: unshield r else unshieldChar c :: unshield (d :: r)

theorem unshield_literal (c : Char) (r : Text) : unshield (literalMark :: c :: r) = c :: unshield r := by
  simp [unshield]

theorem unshield_cons {c : Char} (h : c ≠ literalMark) (r : Text) :
    unshield (c :: r) = unshieldChar c :: unshield r := by
  cases r <;> simp [unshield, h]

end LineMarkup.Escape
