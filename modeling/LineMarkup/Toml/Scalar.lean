import LineMarkup.Time.Date
import LineMarkup.Toml.Value

/-!
Numbers, truth values, dates and times as TOML writes them.
-/

namespace LineMarkup.Toml

set_option autoImplicit false

/-- The characters that words without quotes are made of. -/
def isAtom (c : Char) : Bool :=
  c.isAlphanum || c = '+' || c = '-' || c = '_' || c = '.' || c = ':'

/-- Digits without the underscores between them; each underscore stands between two digits. -/
def digitRun? (isDigit : Char → Bool) (t : Text) : Option Text :=
  let parts := Text.splitOn '_' t
  if parts.all fun p => !p.isEmpty && p.all isDigit then some parts.flatten else none

def digitValue (c : Char) : Nat :=
  if c.isDigit then c.toNat - '0'.toNat
  else c.toLower.toNat - 'a'.toNat + 10

def isDigitOf (base : Nat) (c : Char) : Bool :=
  (c.isDigit || (c.isAlpha && Nat.blt (c.toLower.toNat - 'a'.toNat) 6)) && Nat.blt (digitValue c) base

def numberIn (base : Nat) (digits : Text) : Nat :=
  digits.foldl (fun n c => n * base + digitValue c) 0

/-- Integers of 128 bits, with a sign or without. -/
def inRange (n : Int) : Bool := -(Nat.pow 2 127 : Int) ≤ n && n < (Nat.pow 2 128 : Int)

def splitSign : Text → Bool × Text
  | '+' :: r => (false, r)
  | '-' :: r => (true, r)
  | t => (false, t)

/-- Decimal digits of an integer part: no zero stands before other digits. -/
def wholeDigits? (t : Text) : Option Text :=
  match digitRun? Char.isDigit t with
  | some ('0' :: _ :: _) => none
  | other => other

def integer? (t : Text) : Option Int :=
  let literal (base : Nat) (digits : Text) : Option Int :=
    (digitRun? (isDigitOf base) digits).map fun ds => (numberIn base ds : Int)
  let value : Option Int := match t with
    | '0' :: 'x' :: r => literal 16 r
    | '0' :: 'o' :: r => literal 8 r
    | '0' :: 'b' :: r => literal 2 r
    | t =>
      let (negative, t) := splitSign t
      (wholeDigits? t).map fun ds =>
        if negative then -(numberIn 10 ds : Int) else (numberIn 10 ds : Int)
  value.filter inRange

/-- Whether `digits * 10^exponent` rounds to a finite number of 64 bits. -/
def isFinite (digits : Text) (exponent : Int) : Bool :=
  let n := numberIn 10 digits
  let size : Int := (Text.ofNat n).length + exponent
  if n = 0 || size < 309 then true
  else if 309 < size then false
  else
    let limit := Nat.pow 2 1024 - Nat.pow 2 970
    let power := Nat.pow 10 exponent.natAbs
    if exponent < 0 then n < limit * power else n * power < limit

/-- Splits off the exponent of a float. -/
def exponent? (t : Text) : Option (Text × Option Int) :=
  match Text.cut 'e' (t.map fun c => if c = 'E' then 'e' else c) with
  | none => some (t, none)
  | some (before, after) =>
    let (negative, digits) := splitSign after
    (digitRun? Char.isDigit digits).map fun ds =>
      (before, some (if negative then -(numberIn 10 ds : Int) else (numberIn 10 ds : Int)))

def isFloat (t : Text) : Bool :=
  let (_, t) := splitSign t
  if t = "inf".toList || t = "nan".toList then true
  else match exponent? t with
    | none => false
    | some (t, exponent) =>
      match Text.cut '.' t with
      | none => match wholeDigits? t, exponent with
        | some ds, some e => isFinite ds e
        | _, _ => false
      | some (whole, fraction) => match wholeDigits? whole, digitRun? Char.isDigit fraction with
        | some ds, some fs => isFinite (ds ++ fs) (exponent.getD 0 - fs.length)
        | _, _ => false

/-- Two digits that make a number below a bound. -/
def pairBelow (bound : Nat) (a b : Char) : Bool :=
  a.isDigit && b.isDigit && Nat.blt (Text.ofDigits [a, b]) bound

/-- What follows a date at the start of a text. -/
def afterDate? : Text → Option Text
  | a :: b :: c :: d :: '-' :: m :: n :: '-' :: x :: y :: r =>
    let year := Text.ofDigits [a, b, c, d]
    let month := Text.ofDigits [m, n]
    let day := Text.ofDigits [x, y]
    if [a, b, c, d, m, n, x, y].all Char.isDigit && Nat.ble 1 month && Nat.ble month 12 &&
        Nat.ble 1 day && Nat.ble day (Time.daysInMonth year month) then some r
    else none
  | _ => none

def afterFraction? : Text → Option Text
  | '.' :: r =>
    if (r.takeWhile Char.isDigit).isEmpty then none else some (r.dropWhile Char.isDigit)
  | r => some r

/-- What follows a time at the start of a text. Seconds may be left out, and may be sixty. -/
def afterTime? : Text → Option Text
  | a :: b :: ':' :: c :: d :: r =>
    if pairBelow 24 a b && pairBelow 60 c d then
      match r with
      | ':' :: e :: f :: r => if pairBelow 61 e f then afterFraction? r else none
      | r => some r
    else none
  | _ => none

def isOffset : Text → Bool
  | [] => true
  | ['Z'] => true
  | ['z'] => true
  | [s, a, b, ':', c, d] => (s = '+' || s = '-') && pairBelow 24 a b && pairBelow 60 c d
  | _ => false

/-- A time of day, a date, or both with a separator and perhaps an offset from UTC. -/
def isTime (t : Text) : Bool :=
  match afterTime? t with
  | some rest => rest.isEmpty
  | none => match afterDate? t with
    | none => false
    | some [] => true
    | some (s :: r) =>
      if s = 'T' || s = 't' || s = ' ' then
        match afterTime? r with
        | some offset => isOffset offset
        | none => false
      else false

def atom? (t : Text) : Option Value :=
  if t = "true".toList then some (.boolean true)
  else if t = "false".toList then some (.boolean false)
  else match integer? t with
    | some n => some (.integer n)
    | none =>
      if isFloat t then some (.float t)
      else if isTime t then some (.time t)
      else none

/-- The word at the start of a text. A date and a time with one space between them are one word. -/
def spanAtom (t : Text) : Text × Text :=
  let word := t.takeWhile isAtom
  let rest := t.dropWhile isAtom
  match rest with
  | ' ' :: d :: r =>
    if d.isDigit && afterDate? word = some [] then
      (word ++ ' ' :: (d :: r).takeWhile isAtom, (d :: r).dropWhile isAtom)
    else (word, rest)
  | _ => (word, rest)

/-- A value written as one word, and what follows it. -/
def scalar? (t : Text) : Option (Value × Text) :=
  let (word, rest) := spanAtom t
  (atom? word).map fun v => (v, rest)

end LineMarkup.Toml
