import LineMarkup.Time.Date

/-!
Moments: instants seen in a time zone. A zone is UTC or a fixed offset from it.
-/

namespace LineMarkup.Time

set_option autoImplicit false

/-- The instant is `second + nanosecond / 10^9` seconds after 1970-01-01T00:00Z; both parts have the
same sign. The offset is in seconds east of UTC, and zero means UTC itself. -/
structure Moment where
  second : Int
  nanosecond : Int
  offset : Int
deriving DecidableEq, Repr

namespace Moment

/-- Whole seconds of the local clock, rounded down. -/
def localSecond (m : Moment) : Int :=
  m.second + m.offset + m.nanosecond.fdiv 1000000000

/-- What is left of the clock's second, in nanoseconds. -/
def fraction (m : Moment) : Nat := (m.nanosecond.emod 1000000000).toNat

def day (m : Moment) : Int := m.localSecond.fdiv 86400

def secondOfDay (m : Moment) : Nat := (m.localSecond.emod 86400).toNat

def date (m : Moment) : Date := Date.ofDays m.day

def week (m : Moment) : Week := Week.ofDays m.day

def weekday (m : Moment) : Nat := Time.weekday m.day

def hour (m : Moment) : Nat := m.secondOfDay / 3600

def minute (m : Moment) : Nat := m.secondOfDay / 60 % 60

def clockSecond (m : Moment) : Nat := m.secondOfDay % 60

/-- The hour on a clock face. -/
def hour12 (m : Moment) : Nat := (m.hour + 11) % 12 + 1

def isUtc (m : Moment) : Bool := m.offset = 0

end Moment

end LineMarkup.Time
