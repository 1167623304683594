/-!
Texts are lists of characters. This module holds the cuts that the readers of the library share:
at the first or the last occurrence of a character, at a leading word, and into lines.
-/

namespace LineMarkup

set_option autoImplicit false

abbrev Text := List Char

namespace Text

/-- What stands before the first `stop`, and what stands after it. -/
def cut (stop : Char) : Text → Option (Text × Text)
  | [] => none
  | c :: r =>
    if c = stop then some ([], r)
    else match cut stop r with
      | some (before, after) => some (c :: before, after)
      | none => none

/-- What follows `lead`, if the text starts with it. -/
def after? : Text → (lead : Text) → Option Text
  | t, [] => some t
  | [], _ :: _ => none
  | b :: t, a :: lead => if a = b then after? t lead else none

def startsWith (t lead : Text) : Bool := (t.after? lead).isSome

theorem cut_eq_some_iff {stop : Char} {t before after : Text} :
    cut stop t = some (before, after) ↔ t = before ++ stop :: after ∧ stop ∉ before := by
  induction t generalizing before with
  | nil => simp [cut]
  | cons c r ih =>
    by_cases hc : c = stop
    · subst hc
      cases before with
      | nil => simp [cut, eq_comm]
      | cons b bs =>
        simp only [cut, if_true, Option.some.injEq, Prod.mk.injEq, List.cons_append,
          List.cons.injEq, List.mem_cons, not_or]
        constructor
        · rintro ⟨h, _⟩; simp at h
        · rintro ⟨⟨h, _⟩, h', _⟩; exact absurd h h'
    · simp only [cut, if_neg hc]
      cases before with
      | nil =>
        constructor
        · intro h; split at h <;> simp at h
        · rintro ⟨h, _⟩
          simp only [List.nil_append, List.cons.injEq] at h
          exact absurd h.1 hc
      | cons b bs =>
        have step : ((match cut stop r with
            | some (x, y) => some (c :: x, y)
            | none => none) = some (b :: bs, after)) ↔ c = b ∧ cut stop r = some (bs, after) := by
          cases cut stop r with
          | none => simp
          | some p => obtain ⟨x, y⟩ := p; simp [and_assoc]
        rw [step, ih]
        simp only [List.cons_append, List.cons.injEq, List.mem_cons, not_or]
        constructor
        · rintro ⟨rfl, rfl, h⟩; exact ⟨⟨rfl, rfl⟩, fun h' => hc h'.symm, h⟩
        · rintro ⟨⟨rfl, rfl⟩, _, h⟩; exact ⟨rfl, rfl, h⟩

theorem cut_eq_none_iff {stop : Char} {t : Text} : cut stop t = none ↔ stop ∉ t := by
  induction t with
  | nil => simp [cut]
  | cons c r ih =>
    by_cases hc : c = stop
    · simp [cut, hc]
    · have hs : stop ≠ c := fun h => hc h.symm
      rw [List.mem_cons, not_or, ← ih]
      simp only [cut, if_neg hc]
      cases cut stop r <;> simp [hs]

@[simp] theorem after?_nil (t : Text) : t.after? [] = some t := by
  cases t <;> rfl

theorem after?_eq_some_iff {t lead rest : Text} : t.after? lead = some rest ↔ t = lead ++ rest := by
  induction lead generalizing t with
  | nil => simp
  | cons a lead ih =>
    cases t with
    | nil => simp [after?]
    | cons b t =>
      by_cases h : a = b
      · simp [after?, h, ih]
      · simp [after?, h, Ne.symm h]

/-- How a text starts does not depend on what stands after as many characters. -/
theorem startsWith_append {t lead : Text} (h : lead.length ≤ t.length) (rest : Text) :
    (t ++ rest).startsWith lead = t.startsWith lead := by
  unfold startsWith
  induction lead generalizing t with
  | nil => simp
  | cons a lead ih =>
    cases t with
    | nil => simp at h
    | cons b t =>
      have hlen : lead.length ≤ t.length := by simpa using h
      by_cases hab : a = b
      · simpa [after?, hab] using ih hlen
      · simp [after?, hab]

/-- The parts of a text between the occurrences of `sep`; never an empty list. -/
def splitOn (sep : Char) : Text → List Text
  | [] => [[]]
  | c :: r =>
    if c = sep then [] :: splitOn sep r
    else match splitOn sep r with
      | part :: parts => (c :: part) :: parts
      | [] => [[c]]

/-- Cuts a text at its newlines. A carriage return before a newline belongs to it, and a newline at
the very end starts no further line. -/
def lines (t : Text) : List Text :=
  let parts := splitOn '\n' t
  let ended := parts.dropLast.map fun part =>
    if part.getLast? = some '\r' then part.dropLast else part
  match parts.getLast? with
  | none | some [] => ended
  | some rest => ended ++ [rest]

/-- The texts one after the other, `sep` between them. -/
def join (sep : Text) : List Text → Text
  | [] => []
  | [t] => t
  | t :: u :: rest => t ++ sep ++ join sep (u :: rest)

/-- ASCII capitals made small; every other character is kept. -/
def lowerAscii (t : Text) : Text := t.map Char.toLower

def upperAscii (t : Text) : Text := t.map Char.toUpper

/-- The number that decimal digits write, most significant first. -/
def ofDigits (t : Text) : Nat := t.foldl (fun n c => n * 10 + (c.toNat - '0'.toNat)) 0

/-- The decimal digits of a number. -/
def ofNat (n : Nat) : Text := Nat.toDigits 10 n

end Text

end LineMarkup
