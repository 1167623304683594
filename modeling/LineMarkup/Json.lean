import LineMarkup.Text.Basic

/-!
Reading JSON. Members of an object are kept in order and with repeated names; numbers are kept as
they are written.
-/

namespace LineMarkup

set_option autoImplicit false

inductive Json where
  | null
  | bool (b : Bool)
  | number (literal : Text)
  /-- A string whose escapes leave half of a surrogate pair alone has no text. -/
  | string (text : Option Text)
  | array (items : List Json)
  | object (members : List (Option Text × Json))

namespace Json

def isBlank (c : Char) : Bool := c = ' ' || c = '\n' || c = '\t' || c = '\r'

def skipBlank (t : Text) : Text := t.dropWhile isBlank

def hexValue? (c : Char) : Option Nat :=
  if c.isDigit then some (c.toNat - '0'.toNat)
  else if 'a' ≤ c ∧ c ≤ 'f' then some (c.toNat - 'a'.toNat + 10)
  else if 'A' ≤ c ∧ c ≤ 'F' then some (c.toNat - 'A'.toNat + 10)
  else none

def hexNumber? (digits : Text) : Option Nat :=
  (digits.mapM hexValue?).map fun ds => ds.foldl (fun n d => n * 16 + d) 0

def plainEscape? : Char → Option Char
  | '"' => some '"'
  | '\\' => some '\\'
  | '/' => some '/'
  | 'b' => some '\x08'
  | 'f' => some '\x0c'
  | 'n' => some '\n'
  | 'r' => some '\r'
  | 't' => some '\t'
  | _ => none

/-- The units of a string up to its closing quote, and what follows. A unit is a code point, or half
of a surrogate pair. -/
def units? : Text → Option (List Nat × Text)
  | [] => none
  | '"' :: r => some ([], r)
  | '\\' :: 'u' :: a :: b :: c :: d :: r =>
    match hexNumber? [a, b, c, d], units? r with
    | some n, some (us, rest) => some (n :: us, rest)
    | _, _ => none
  | '\\' :: e :: r =>
    match plainEscape? e, units? r with
    | some c, some (us, rest) => some (c.toNat :: us, rest)
    | _, _ => none
  | c :: r =>
    if c.toNat < 0x20 || c = '\\' then none
    else match units? r with
      | some (us, rest) => some (c.toNat :: us, rest)
      | none => none

def isHighSurrogate (u : Nat) : Bool := Nat.ble 0xD800 u && Nat.ble u 0xDBFF

def isLowSurrogate (u : Nat) : Bool := Nat.ble 0xDC00 u && Nat.ble u 0xDFFF

/-- The text that units write; a surrogate half must have its partner next to it. -/
def textOfUnits : List Nat → Option Text
  | [] => some []
  | [u] => if isHighSurrogate u || isLowSurrogate u then none else some [Char.ofNat u]
  | u :: v :: us =>
    if isHighSurrogate u then
      if isLowSurrogate v then
        (textOfUnits us).map (Char.ofNat (0x10000 + (u - 0xD800) * 0x400 + (v - 0xDC00)) :: ·)
      else none
    else if isLowSurrogate u then none
    else (textOfUnits (v :: us)).map (Char.ofNat u :: ·)

/-- A string after its opening quote. -/
def string? (t : Text) : Option (Option Text × Text) :=
  (units? t).map fun (us, rest) => (textOfUnits us, rest)

def digits? (t : Text) : Option (Text × Text) :=
  let ds := t.takeWhile Char.isDigit
  if ds.isEmpty then none else some (ds, t.dropWhile Char.isDigit)

/-- An integer literal without sign: no zero may stand before other digits. -/
def whole? (t : Text) : Option (Text × Text) :=
  match digits? t with
  | some ('0' :: _ :: _, _) => none
  | other => other

def fraction? : Text → Option (Text × Text)
  | '.' :: r => (digits? r).map fun (ds, rest) => ('.' :: ds, rest)
  | t => some ([], t)

def sign : Text → Text × Text
  | '+' :: r => (['+'], r)
  | '-' :: r => (['-'], r)
  | t => ([], t)

def exponent? : Text → Option (Text × Text)
  | c :: r =>
    if c = 'e' || c = 'E' then
      let (s, r) := sign r
      (digits? r).map fun (ds, rest) => (c :: s ++ ds, rest)
    else some ([], c :: r)
  | [] => some ([], [])

def number? (t : Text) : Option (Text × Text) :=
  let (minus, t) : Text × Text := match t with
    | '-' :: r => (['-'], r)
    | t => ([], t)
  match whole? t with
  | none => none
  | some (ds, t) => match fraction? t with
    | none => none
    | some (fs, t) => (exponent? t).map fun (es, t) => (minus ++ ds ++ fs ++ es, t)

/-- Items after an opening bracket, read by `item` and separated by commas, up to `close`. -/
def items? {α : Type} (close : Char) (item : Text → Option (α × Text)) :
    Nat → Text → Option (List α × Text)
  | 0, _ => none
  | n + 1, t =>
    match item (skipBlank t) with
    | none => none
    | some (a, t) => match skipBlank t with
      | ',' :: t => (items? close item n t).map fun (as, t) => (a :: as, t)
      | c :: t => if c = close then some ([a], t) else none
      | [] => none

def sequence? {α : Type} (close : Char) (item : Text → Option (α × Text)) (t : Text) :
    Option (List α × Text) :=
  match skipBlank t with
  | c :: r => if c = close then some ([], r) else items? close item (t.length + 1) (c :: r)
  | [] => none

def member? (value : Text → Option (Json × Text)) : Text → Option ((Option Text × Json) × Text)
  | '"' :: r =>
    match string? r with
    | none => none
    | some (name, t) => match skipBlank t with
      | ':' :: t => (value t).map fun (v, t) => ((name, v), t)
      | _ => none
  | _ => none

/-- A value of at most the given nesting, and what follows it. -/
def value? : Nat → Text → Option (Json × Text)
  | 0, _ => none
  | depth + 1, t =>
    match skipBlank t with
    | '"' :: r => (string? r).map fun (s, r) => (.string s, r)
    | '[' :: r => (sequence? ']' (value? depth) r).map fun (vs, r) => (.array vs, r)
    | '\x7b' :: r => (sequence? '\x7d' (member? (value? depth)) r).map fun (ms, r) => (.object ms, r)
    | 'n' :: 'u' :: 'l' :: 'l' :: r => some (.null, r)
    | 't' :: 'r' :: 'u' :: 'e' :: r => some (.bool true, r)
    | 'f' :: 'a' :: 'l' :: 's' :: 'e' :: r => some (.bool false, r)
    | t => (number? t).map fun (n, r) => (.number n, r)

/-- Reads a text that holds one value and nothing else. -/
def parse? (t : Text) : Option Json :=
  match value? (t.length + 1) t with
  | some (v, rest) => if (skipBlank rest).isEmpty then some v else none
  | none => none

end Json

end LineMarkup
