import LineMarkup.Json
import LineMarkup.Text.Pieces
import LineMarkup.Toml.Scalar

/-!
Reading TOML documents, line by line.
-/

namespace LineMarkup.Toml

set_option autoImplicit false

def isBlank (c : Char) : Bool := c = ' ' || c = '\t'

def skipBlank (t : Text) : Text := t.dropWhile isBlank

/-- Control characters other than the tab stand nowhere in a document but in newlines. -/
def isPlain (c : Char) : Bool := c = '\t' || (Nat.ble 0x20 c.toNat && c ≠ '\x7f')

/-- Skips blanks, newlines and comments; `inside` says that the text starts within a comment. -/
def skipLines (inside : Bool) : Text → Text
  | [] => []
  | '\n' :: r => skipLines false r
  | '\r' :: '\n' :: r => skipLines false r
  | c :: r =>
    if inside then if isPlain c then skipLines true r else c :: r
    else if isBlank c then skipLines false r
    else if c = '#' then skipLines true r
    else c :: r

def afterNewline? : Text → Option Text
  | '\n' :: r => some r
  | '\r' :: '\n' :: r => some r
  | _ => none

/-- What follows the end of the line, before which only blanks and a comment may stand. -/
def endLine? (t : Text) : Option Text :=
  let t := skipBlank t
  let t := match t with
    | '#' :: r => r.dropWhile isPlain
    | t => t
  if t.isEmpty then some [] else afterNewline? t

/-- The character with a number in hexadecimal digits, if it is one. -/
def charOfHex? (digits : Text) : Option Char :=
  (Json.hexNumber? digits).bind fun n => if h : n.isValidChar then some (Char.ofNatAux n h) else none

def hexEscape? (size : Nat) (t : Text) : Option (Text × Nat) :=
  let digits := t.take size
  if digits.length = size then (charOfHex? digits).map fun c => ([c], size + 1) else none

/-- Blanks and newlines at the start of a text are left out. -/
def skipSpace : Text → Text
  | '\n' :: r => skipSpace r
  | '\r' :: '\n' :: r => skipSpace r
  | ' ' :: r => skipSpace r
  | '\t' :: r => skipSpace r
  | r => r

/-- What the characters after a backslash stand for, and how many they are. -/
def escaped? (multiline : Bool) : Text → Option (Text × Nat)
  | 'b' :: _ => some (['\x08'], 1)
  | 't' :: _ => some (['\t'], 1)
  | 'n' :: _ => some (['\n'], 1)
  | 'f' :: _ => some (['\x0c'], 1)
  | 'r' :: _ => some (['\r'], 1)
  | 'e' :: _ => some (['\x1b'], 1)
  | '"' :: _ => some (['"'], 1)
  | '\\' :: _ => some (['\\'], 1)
  | 'x' :: r => hexEscape? 2 r
  | 'u' :: r => hexEscape? 4 r
  | 'U' :: r => hexEscape? 8 r
  | t =>
    if multiline then
      (afterNewline? (skipBlank t)).map fun r => ([], t.length - (skipSpace r).length)
    else none

/-- A newline of two characters, which a string over several lines keeps as it is. -/
def newline? (multiline : Bool) : Text.Site (Option Text)
  | '\r' :: '\n' :: _ => if multiline then some (some ['\r', '\n'], 1) else none
  | _ => none

/-- An escape or a newline in a string; the outer option finds it, the inner one reads it. -/
def special? (multiline : Bool) : Text.Site (Option Text)
  | '\\' :: r => some (match escaped? multiline r with
    | some (t, n) => (some t, n)
    | none => (none, 0))
  | t => newline? multiline t

/-- The text that stands between quotes. -/
def content? (site : Bool → Text.Site (Option Text)) (multiline : Bool) (raw : Text) : Option Text :=
  let read : Text.Piece (Option Text) → Option Text
    | .plain c => if isPlain c || (multiline && c = '\n') then some [c] else none
    | .found t => t
  ((Text.pieces (site multiline) raw).mapM read).map List.flatten

/-- Cuts at the closing quote; with `escapes`, a backslash keeps the next character from closing. -/
def cutQuote (escapes : Bool) (quote : Char) : Text → Option (Text × Text)
  | [] => none
  | c :: r =>
    if c = quote then some ([], r)
    else if escapes && c = '\\' then
      match r with
      | [] => none
      | d :: r => (cutQuote escapes quote r).map fun (raw, rest) => (c :: d :: raw, rest)
    else (cutQuote escapes quote r).map fun (raw, rest) => (c :: raw, rest)

/-- Cuts at three closing quotes; up to two more before them belong to the string. -/
def cutQuotes (escapes : Bool) (quote : Char) : Text → Option (Text × Text)
  | [] => none
  | c :: r =>
    if c = quote then
      let run := ((c :: r).takeWhile (· = quote)).length
      if run < 3 then (cutQuotes escapes quote r).map fun (raw, rest) => (c :: raw, rest)
      else
        let extra := Nat.min (run - 3) 2
        some (List.replicate extra quote, (c :: r).drop (extra + 3))
    else if escapes && c = '\\' then
      match r with
      | [] => none
      | d :: r => (cutQuotes escapes quote r).map fun (raw, rest) => (c :: d :: raw, rest)
    else (cutQuotes escapes quote r).map fun (raw, rest) => (c :: raw, rest)

def quotedText? (escapes : Bool) (quote : Char) (t : Text) : Option (Text × Text) :=
  (cutQuote escapes quote t).bind fun (raw, rest) =>
    (content? (if escapes then special? else newline?) false raw).map fun s => (s, rest)

/-- A newline right after the opening quotes does not count. -/
def quotedLines? (escapes : Bool) (quote : Char) (t : Text) : Option (Text × Text) :=
  (cutQuotes escapes quote ((afterNewline? t).getD t)).bind fun (raw, rest) =>
    (content? (if escapes then special? else newline?) true raw).map fun s => (s, rest)

def string? : Text → Option (Text × Text)
  | '"' :: '"' :: '"' :: r => quotedLines? true '"' r
  | '\'' :: '\'' :: '\'' :: r => quotedLines? false '\'' r
  | '"' :: r => quotedText? true '"' r
  | '\'' :: r => quotedText? false '\'' r
  | _ => none

def isBareKey (c : Char) : Bool := c.isAlphanum || c = '_' || c = '-'

def simpleKey? : Text → Option (Text × Text)
  | '"' :: r => quotedText? true '"' r
  | '\'' :: r => quotedText? false '\'' r
  | t =>
    let key := t.takeWhile isBareKey
    if key.isEmpty then none else some (key, t.dropWhile isBareKey)

/-- How many keys a key with dots may hold, and how deep arrays and inline tables may nest. -/
def deepest : Nat := 80

/-- A key with dots: the keys on the way, and the last one; at most `n` keys in all. -/
def key? : Nat → Text → Option ((List Text × Text) × Text)
  | 0, _ => none
  | n + 1, t =>
    match simpleKey? (skipBlank t) with
    | none => none
    | some (k, rest) =>
      match skipBlank rest with
      | '.' :: r => (key? n r).map fun ((path, last), rest) => ((k :: path, last), rest)
      | rest => some (([], k), rest)

/-- A key, an equals sign and a value. -/
def pair? (value : Text → Option (Value × Text)) (t : Text) :
    Option ((List Text × Text × Value) × Text) :=
  match key? deepest t with
  | some ((path, key), '=' :: r) =>
    (value (skipBlank r)).map fun (v, rest) => ((path, key, v), rest)
  | _ => none

/-- Items up to `close`, read by `item`, with commas between them and perhaps after the last. -/
def items? {α : Type} (close : Char) (item : Text → Option (α × Text)) :
    Nat → Text → Option (List α × Text)
  | 0, _ => none
  | n + 1, t =>
    match skipLines false t with
    | [] => none
    | c :: r =>
      if c = close then some ([], r)
      else match item (c :: r) with
        | none => none
        | some (a, rest) => match skipLines false rest with
          | ',' :: rest => (items? close item n rest).map fun (as, rest) => (a :: as, rest)
          | d :: rest => if d = close then some ([a], rest) else none
          | [] => none

def inlineTable? (pairs : List (List Text × Text × Value)) : Option Value :=
  (pairs.foldlM (fun entries (path, key, v) => Entries.insert path key v .inline entries) []).map
    (Value.table .inline)

/-- A value in which arrays and inline tables nest at most `depth` deep. -/
def value? : Nat → Text → Option (Value × Text)
  | depth, t =>
    match t with
    | '"' :: _ => (string? t).map fun (s, rest) => (.text s, rest)
    | '\'' :: _ => (string? t).map fun (s, rest) => (.text s, rest)
    | '[' :: r => match depth with
      | 0 => none
      | d + 1 => (items? ']' (value? d) (r.length + 1) r).map fun (vs, rest) => (.array vs, rest)
    | '\x7b' :: r => match depth with
      | 0 => none
      | d + 1 =>
        (items? '\x7d' (pair? (value? d)) (r.length + 1) r).bind fun (ps, rest) =>
          (inlineTable? ps).map fun v => (v, rest)
    | t => scalar? t

/-- What a line of a document does. -/
inductive Statement where
  | assign (path : List Text) (key : Text) (value : Value)
  | openTable (path : List Text) (key : Text)
  | openNext (path : List Text) (key : Text)

def statement? (t : Text) : Option (Statement × Text) :=
  match t with
  | '[' :: '[' :: r => match key? deepest r with
    | some ((path, key), ']' :: ']' :: rest) => some (.openNext path key, rest)
    | _ => none
  | '[' :: r => match key? deepest r with
    | some ((path, key), ']' :: rest) => some (.openTable path key, rest)
    | _ => none
  | t => (pair? (value? deepest) t).map fun ((path, key, v), rest) => (.assign path key v, rest)

/-- The statements of a document, each on a line of its own. -/
def statements? : Nat → Text → Option (List Statement)
  | 0, _ => none
  | n + 1, t =>
    match skipLines false t with
    | [] => some []
    | t => match statement? t with
      | none => none
      | some (s, rest) => match endLine? rest with
        | none => none
        | some rest => (statements? n rest).map (s :: ·)

/-- A document being read: its entries so far, and the path of the table that lines add to. -/
structure Draft where
  entries : Entries
  current : List Text

def Draft.run (d : Draft) : Statement → Option Draft
  | .assign path key v =>
    (Entries.update false (Entries.insert path key v) d.current .header d.entries).map fun es =>
      { d with entries := es }
  | .openTable path key =>
    (Entries.openTable path key d.entries).map fun es => ⟨es, path ++ [key]⟩
  | .openNext path key =>
    (Entries.openNext path key d.entries).map fun es => ⟨es, path ++ [key]⟩

/-- Reads a document; a byte order mark at its start does not count. -/
def parse? (t : Text) : Option Entries :=
  let t := match t with
    | '\uFEFF' :: r => r
    | t => t
  ((statements? (t.length + 1) t).bind fun ss => ss.foldlM Draft.run ⟨[], []⟩).map Draft.entries

end LineMarkup.Toml
