/-!
Days and dates of the Gregorian calendar, carried back before its introduction and with a year zero.
Days are counted from the first of January 1970, a Thursday.
-/

namespace LineMarkup.Time

set_option autoImplicit false

structure Date where
  year : Int
  month : Nat
  day : Nat
deriving DecidableEq, Repr

def isLeap (year : Int) : Bool :=
  year.emod 4 = 0 && (year.emod 100 ≠ 0 || year.emod 400 = 0)

def daysInMonth (year : Int) : Nat → Nat
  | 2 => if isLeap year then 29 else 28
  | 4 | 6 | 9 | 11 => 30
  | _ => 31

/-- The days of a year that come before a month of it. -/
def daysBefore (year : Int) (month : Nat) : Nat :=
  (List.range (month - 1)).foldl (fun days m => days + daysInMonth year (m + 1)) 0

/-- The day number of the first of January of a year. -/
def newYear (year : Int) : Int :=
  let y := year - 1
  365 * (year - 1970) + (y.fdiv 4 - y.fdiv 100 + y.fdiv 400) - (1969 / 4 - 1969 / 100 + 1969 / 400)

namespace Date

def ordinal (d : Date) : Nat := daysBefore d.year d.month + d.day

/-- Days are counted in eras of 400 years, in which the year starts in March, so that the leap day
comes last. -/
def ofDays (days : Int) : Date :=
  let shifted := days + 719468
  let era := shifted.fdiv 146097
  let dayOfEra := shifted.emod 146097
  let yearOfEra := (dayOfEra - dayOfEra / 1460 + dayOfEra / 36524 - dayOfEra / 146096) / 365
  let dayOfYear := dayOfEra - (365 * yearOfEra + yearOfEra / 4 - yearOfEra / 100)
  let shiftedMonth := (5 * dayOfYear + 2) / 153
  let month := if shiftedMonth < 10 then shiftedMonth + 3 else shiftedMonth - 9
  let year := yearOfEra + era * 400
  { year := if month ≤ 2 then year + 1 else year
    month := month.toNat
    day := (dayOfYear - (153 * shiftedMonth + 2) / 5 + 1).toNat }

end Date

/-- The day of the week as days since Monday. -/
def weekday (days : Int) : Nat := ((days + 3).emod 7).toNat

/-- The weeks of a year that begin with the day `first` (days since Monday), counted up to the day
with the given ordinal and weekday. -/
def weekOfYear (first ordinal weekday : Nat) : Nat :=
  (ordinal + 6 - (weekday + 7 - first) % 7) / 7

def weeksInYear (year : Int) : Nat :=
  let first := weekday (newYear year)
  if first = 3 || (first = 2 && isLeap year) then 53 else 52

/-- A week belongs to the year that holds its Thursday. -/
structure Week where
  year : Int
  number : Nat
deriving DecidableEq, Repr

def Week.ofDays (days : Int) : Week :=
  let date := Date.ofDays days
  let n := (date.ordinal + 9 - weekday days) / 7
  if n = 0 then ⟨date.year - 1, weeksInYear (date.year - 1)⟩
  else if weeksInYear date.year < n then ⟨date.year + 1, 1⟩
  else ⟨date.year, n⟩

end LineMarkup.Time
