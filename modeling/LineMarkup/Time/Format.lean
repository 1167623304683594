import LineMarkup.Text.Pieces
import LineMarkup.Time.Moment

/-!
Formats of dates and times. A directive is a percent sign, at most one flag, a width, colons, and the
letter that says what is written. A format that holds one malformed directive has no meaning at all.
-/

namespace LineMarkup.Time

set_option autoImplicit false

inductive Flag where
  | padSpace
  | padZero
  | noPad
  | upper
  | swap
deriving DecidableEq, Repr

def Flag.ofChar? : Char → Option Flag
  | '_' => some .padSpace
  | '0' => some .padZero
  | '-' => some .noPad
  | '^' => some .upper
  | '#' => some .swap
  | _ => none

structure Directive where
  flag : Option Flag
  width : Option Nat
  colons : Nat
  /-- Whether a point stands before the letter. -/
  point : Bool
  /-- The width written after the point. -/
  places : Option Nat
  letter : Char
deriving DecidableEq, Repr

namespace Directive

def widest : Nat := 255

def flag? : Text → Option Flag × Text
  | [] => (none, [])
  | c :: r => match Flag.ofChar? c with
    | some f => (some f, r)
    | none => (none, c :: r)

/-- A number of any length that is at most `widest`; the outer `none` says that it is larger. -/
def width? (t : Text) : Option (Option Nat × Text) :=
  let digits := t.takeWhile Char.isDigit
  if digits.isEmpty then some (none, t)
  else if Text.ofDigits digits ≤ widest then
    some (some (Text.ofDigits digits), t.dropWhile Char.isDigit)
  else none

def colons? : Text → Nat × Text
  | ':' :: ':' :: ':' :: r => (3, r)
  | ':' :: ':' :: r => (2, r)
  | ':' :: r => (1, r)
  | r => (0, r)

/-- The directive after a percent sign, and what follows it. -/
def parse? (t : Text) : Option (Directive × Text) :=
  let (flag, t) := flag? t
  match width? t with
  | none => none
  | some (width, t) =>
    match colons? t with
    | (colons, '.' :: t) =>
      match width? t with
      | some (places, 'f' :: rest) => some (⟨flag, width, colons, true, places, 'f'⟩, rest)
      | _ => none
    | (colons, letter :: rest) => some (⟨flag, width, colons, false, none, letter⟩, rest)
    | (_, []) => none

end Directive

/-- How a number is filled up, and to how many characters. -/
structure Padding where
  fill : Char
  width : Nat
deriving DecidableEq, Repr

/-- Filling up stops at this many characters, the sign not counted. -/
def longestFill : Nat := 20

/-- Zeros go between the sign and the digits, spaces before both; the sign counts in the width. Before a
sign there may be any number of spaces. -/
def padded (d : Directive) (p : Padding) (n : Int) : Text :=
  let digits := Text.ofNat n.natAbs
  let sign : Text := if n < 0 then ['-'] else []
  let room := d.width.getD p.width - sign.length
  let bounded := Nat.min room longestFill
  let fill : Option Char := match d.flag with
    | some .padSpace => some ' '
    | some .padZero => some '0'
    | some .noPad => none
    | _ => some p.fill
  match fill with
  | none => sign ++ digits
  | some '0' => sign ++ List.replicate (bounded - digits.length) '0' ++ digits
  | some c =>
    List.replicate ((if n < 0 then room else bounded) - digits.length) c ++ sign ++ digits

def atLeast (width n : Nat) : Text :=
  let digits := Text.ofNat n
  List.replicate (width - digits.length) '0' ++ digits

def signed (width : Nat) (n : Int) : Text :=
  (if n < 0 then ['-'] else []) ++ atLeast width n.natAbs

def two (n : Nat) : Text := atLeast 2 n

def dayNames : List String :=
  ["Monday", "Tuesday", "Wednesday", "Thursday", "Friday", "Saturday", "Sunday"]

def monthNames : List String :=
  ["January", "February", "March", "April", "May", "June", "July", "August", "September", "October",
    "November", "December"]

/-- Names are shortened to three letters. -/
def shortName (name : Text) : Text := name.take 3

def nameAt (names : List String) (i : Nat) : Text := (names[i]?.getD "").toList

namespace Moment

variable (m : Moment)

def dayName : Text := nameAt dayNames m.weekday

def monthName : Text := nameAt monthNames (m.date.month - 1)

def halfDay : Text := if m.hour < 12 then ['A', 'M'] else ['P', 'M']

def isoDate : Text :=
  signed 4 m.date.year ++ ['-'] ++ two m.date.month ++ ['-'] ++ two m.date.day

def slashDate : Text :=
  two m.date.month ++ ['/'] ++ two m.date.day ++ ['/'] ++ signed 2 (m.date.year.tmod 100)

def hourMinute : Text := two m.hour ++ [':'] ++ two m.minute

def clock : Text := m.hourMinute ++ [':'] ++ two m.clockSecond

/-- The nine digits of the fraction of a second. -/
def fractionDigits : Text := atLeast 9 m.fraction

/-- The fraction without the zeros at its end; empty if there is none. -/
def shortFraction : Text := (m.fractionDigits.reverse.dropWhile (· = '0')).reverse

/-- The offset with `between` between its parts. It has seconds only if they are not zero, unless
`full` asks for them; minutes may be left out too if `short` allows it. -/
def offsetText (between : Text) (full short : Bool) : Text :=
  let size := m.offset.natAbs
  let hours := two (size / 3600)
  let minutes := size / 60 % 60
  let seconds := size % 60
  let sign : Text := if m.offset < 0 then ['-'] else ['+']
  if full || seconds ≠ 0 then
    sign ++ hours ++ between ++ two minutes ++ between ++ two seconds
  else if short && minutes = 0 then sign ++ hours
  else sign ++ hours ++ between ++ two minutes

end Moment

def upperIf (flag : Option Flag) (t : Text) : Text :=
  if flag = some .upper then t.upperAscii else t

def longDate (m : Moment) : Text :=
  padded ⟨none, none, 0, false, none, 'Y'⟩ ⟨'0', 4⟩ m.date.year ++ [' ', 'M'] ++
    two m.date.month ++ [' '] ++ Text.ofNat m.date.day

/-- What a directive writes for a moment; nothing if it is none of the known ones. -/
def Directive.write (d : Directive) (m : Moment) : Option Text :=
  let zero (width : Nat) (n : Int) : Option Text := some (padded d ⟨'0', width⟩ n)
  let space (width : Nat) (n : Int) : Option Text := some (padded d ⟨' ', width⟩ n)
  let name (t : Text) : Option Text := some (upperIf d.flag t)
  let date := m.date
  if d.point then
    match d.places with
    | some 0 => some []
    | some n => some ('.' :: m.fractionDigits.take n)
    | none => if m.fraction = 0 then some [] else some ('.' :: m.shortFraction)
  else match d.letter with
  | 'Y' => zero 4 date.year
  | 'G' => zero 4 m.week.year
  | 'C' => space 0 (date.year.tdiv 100)
  | 'y' => zero 2 (date.year.tmod 100)
  | 'g' => zero 2 (m.week.year.tmod 100)
  | 'm' => zero 2 date.month
  | 'd' => zero 2 date.day
  | 'e' => space 2 date.day
  | 'j' => zero 3 date.ordinal
  | 'q' => zero 0 ((date.month + 2) / 3 : Nat)
  | 'U' => zero 2 (weekOfYear 6 date.ordinal m.weekday)
  | 'W' => zero 2 (weekOfYear 0 date.ordinal m.weekday)
  | 'V' => zero 2 m.week.number
  | 'u' => space 0 (m.weekday + 1 : Nat)
  | 'w' => space 0 ((m.weekday + 1) % 7 : Nat)
  | 'H' => zero 2 m.hour
  | 'k' => space 2 m.hour
  | 'I' => zero 2 m.hour12
  | 'l' => space 2 m.hour12
  | 'M' => zero 2 m.minute
  | 'S' => zero 2 m.clockSecond
  | 's' => space 0 m.second
  | 'A' => name m.dayName
  | 'a' => name (shortName m.dayName)
  | 'B' => name m.monthName
  | 'b' | 'h' => name (shortName m.monthName)
  | 'p' => some (if d.flag = some .swap then m.halfDay.lowerAscii else m.halfDay)
  | 'P' => name m.halfDay.lowerAscii
  | 'n' => some ['\n']
  | 't' => some ['\t']
  | '%' => some ['%']
  | 'F' => some m.isoDate
  | 'D' => some m.slashDate
  | 'T' | 'X' => some m.clock
  | 'R' => some m.hourMinute
  | 'r' => some (Text.ofNat m.hour12 ++ [':'] ++ two m.minute ++ [':'] ++ two m.clockSecond ++
      [' '] ++ m.halfDay)
  | 'x' => some (longDate m)
  | 'c' => some (longDate m ++ [',', ' '] ++ upperIf d.flag (shortName m.dayName) ++ [' '] ++ m.clock)
  | 'f' => match d.width with
    | some 0 => none
    | some n => some (m.fractionDigits.take n)
    | none => some (if m.fraction = 0 then ['0'] else m.shortFraction)
  | 'N' => match d.width with
    | some 0 => none
    | some n => some (m.fractionDigits.take n)
    | none => some m.fractionDigits
  | 'z' => match d.colons with
    | 0 => some (m.offsetText [] false false)
    | 1 => some (m.offsetText [':'] false false)
    | 2 => some (m.offsetText [':'] true false)
    | _ => some (m.offsetText [':'] false true)
  | 'Q' => match d.colons with
    | 0 => some (if m.isUtc then ['U', 'T', 'C'] else m.offsetText [] false false)
    | 1 => some (if m.isUtc then ['U', 'T', 'C'] else m.offsetText [':'] false false)
    | _ => none
  | 'Z' =>
    if m.isUtc then
      some (if d.flag = some .swap then ['u', 't', 'c'] else ['U', 'T', 'C'])
    else some (m.offsetText [':'] false true)
  | _ => none

/-- A percent sign with its directive, if that can be read. -/
def directive? : Text.Site (Option Directive)
  | '%' :: r =>
    match Directive.parse? r with
    | some (d, rest) => some (some d, r.length - rest.length)
    | none => some (none, 0)
  | _ => none

/-- The text that a format stands for at a moment. -/
def format (m : Moment) (t : Text) : Option Text :=
  let write : Text.Piece (Option Directive) → Option Text
    | .plain c => some [c]
    | .found (some d) => d.write m
    | .found none => none
  ((Text.pieces directive? t).mapM write).map List.flatten

end LineMarkup.Time
