/-!
# Instants

A clock reading is a number of nanoseconds since the start of 1970, negative before. The calendar
is the proleptic Gregorian one and runs from the year -9999 to the year 9999; an instant that is
reckoned from another one has to lie in it. An instant is written in two ways, both in universal
time: the log form, with an offset to the second, and the Internet form of RFC 3339.
-/

namespace SecondFactor

/-- A point in time, in nanoseconds since the start of 1970. -/
structure Instant where
  nanoseconds : Int
  deriving DecidableEq

namespace Instant

def second : Int := 1000000000

def ofUnix (seconds : Int) (nanoseconds : Nat) : Instant := ⟨seconds * second + nanoseconds⟩

instance : LE Instant := ⟨fun s t => s.nanoseconds ≤ t.nanoseconds⟩

instance (s t : Instant) : Decidable (s ≤ t) :=
  inferInstanceAs (Decidable (s.nanoseconds ≤ t.nanoseconds))

/-- The first instant of the calendar, the start of the year -9999. -/
def first : Instant := ofUnix (-377705116800) 0

/-- The last instant of the calendar, the end of the year 9999. -/
def last : Instant := ofUnix 253402300799 999999999

/-- The instant so many seconds later, if the calendar has it. -/
def after? (t : Instant) (seconds : Int) : Option Instant :=
  let later : Instant := ⟨t.nanoseconds + seconds * second⟩
  if first ≤ later ∧ later ≤ last then some later else none

/-- Whole seconds since the start of 1970, rounded towards the past. -/
def unixSeconds (t : Instant) : Int := t.nanoseconds / second

def fraction (t : Instant) : Nat := (t.nanoseconds % second).toNat

def sinceEpoch? (t : Instant) : Option Nat :=
  if 0 ≤ t.nanoseconds then some t.unixSeconds.toNat else none

/-! ## Calendar -/

structure Date where
  year : Int
  month : Nat
  day : Nat
  deriving DecidableEq

/-- The date so many days after 1 January 1970. The count is taken from 1 March of a year
divisible by 400, so that the leap day ends each year, each century but the last, and each era of
400 years. -/
def dateOfDays (days : Int) : Date :=
  let shifted := days + 719468
  let era := shifted / 146097
  let dayOfEra := (shifted % 146097).toNat
  let yearOfEra := (dayOfEra - dayOfEra / 1460 + dayOfEra / 36524 - dayOfEra / 146096) / 365
  let dayOfYear := dayOfEra - (365 * yearOfEra + yearOfEra / 4 - yearOfEra / 100)
  let monthFromMarch := (5 * dayOfYear + 2) / 153
  let month := if monthFromMarch < 10 then monthFromMarch + 3 else monthFromMarch - 9
  { year := era * 400 + yearOfEra + (if month ≤ 2 then 1 else 0)
    month := month
    day := dayOfYear - (153 * monthFromMarch + 2) / 5 + 1 }

def date (t : Instant) : Date := dateOfDays (t.unixSeconds / 86400)

theorem date_first : first.date = ⟨-9999, 1, 1⟩ := by decide

theorem date_last : last.date = ⟨9999, 12, 31⟩ := by decide

def secondOfDay (t : Instant) : Nat := (t.unixSeconds % 86400).toNat

/-! ## Written forms -/

def padded (width n : Nat) : String :=
  let cs := Nat.toDigits 10 n
  String.ofList (List.replicate (width - cs.length) '0' ++ cs)

/-- Year, month and day; the year has at least four digits and a sign only when it is negative. -/
def Date.toText (d : Date) : String :=
  (if d.year < 0 then "-" else "") ++ padded 4 d.year.natAbs ++ "-" ++ padded 2 d.month ++ "-" ++
    padded 2 d.day

def clockText (t : Instant) : String :=
  padded 2 (t.secondOfDay / 3600) ++ ":" ++ padded 2 (t.secondOfDay / 60 % 60) ++ ":" ++
    padded 2 (t.secondOfDay % 60)

/-- The nine digits of the fraction without the zeros at its end. -/
def fractionDigits (t : Instant) : List Char :=
  ((padded 9 t.fraction).toList.reverse.dropWhile (· == '0')).reverse

/-- The log form: date, time of day, a fraction of at least one digit, and the offset to the
second. -/
def logText (t : Instant) : String :=
  let digits := t.fractionDigits
  t.date.toText ++ " " ++ t.clockText ++ "." ++
    (if digits.isEmpty then "0" else String.ofList digits) ++ " +00:00:00"

/-- The Internet form: the fraction is left out when it is zero, and `Z` marks universal time. -/
def internetText (t : Instant) : String :=
  let digits := t.fractionDigits
  t.date.toText ++ "T" ++ t.clockText ++
    (if digits.isEmpty then "" else "." ++ String.ofList digits) ++ "Z"

end Instant

end SecondFactor
