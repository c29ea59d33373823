/-
Timestamps.

A timestamp is read from its RFC 3339 form, with any offset and any number of
decimals, and written in UTC with whole seconds and a `Z`.  Days are counted in the
Gregorian calendar, extended in both directions.
-/
import ClusterAccess.Text.Digits

namespace ClusterAccess

open Text

/-- A second on the UTC clock. -/
structure Timestamp where
  /-- Seconds since the first of January 1970, leap seconds not counted. -/
  seconds : Int
  /-- Is it the leap second that follows `seconds`? -/
  leap : Bool
  deriving DecidableEq, Repr

namespace Timestamp

/-- The days before the first of March of a year, counted from the first of March of year 0. -/
def daysToMarch (year : Int) : Int :=
  365 * year + year.fdiv 4 - year.fdiv 100 + year.fdiv 400

/-- The days from the first of March to the first of a month, where March is month 0. -/
def daysToMonth (month : Nat) : Nat :=
  (153 * month + 2) / 5

/-- The day of the first of January 1970, counted from the first of March of year 0. -/
def epochDay : Int := 719468

/-- The number of a date's day since the first of January 1970. -/
def dayNumber (year : Int) (month day : Nat) : Int :=
  let year := if month ≤ 2 then year - 1 else year
  daysToMarch year + Int.ofNat (daysToMonth ((month + 9) % 12)) + Int.ofNat day - 1 - epochDay

/-- Is it a leap year? -/
def isLeapYear (year : Nat) : Bool :=
  (year % 4 = 0 && year % 100 ≠ 0) || year % 400 = 0

/-- The days of a month. -/
def monthLength (year month : Nat) : Nat :=
  if month = 2 then if isLeapYear year then 29 else 28
  else if month = 4 ∨ month = 6 ∨ month = 9 ∨ month = 11 then 30
  else 31

/-- The date of a day: year, month and day of the month. -/
def dateOf (day : Int) : Int × Nat × Nat :=
  let shifted := day + epochDay
  let era := shifted.fdiv 146097
  let inEra := (shifted - era * 146097).toNat
  let yearInEra := (inEra - inEra / 1460 + inEra / 36524 - inEra / 146096) / 365
  let inYear := inEra - (365 * yearInEra + yearInEra / 4 - yearInEra / 100)
  let month := (5 * inYear + 2) / 153
  let year := Int.ofNat yearInEra + era * 400
  let civilMonth := if month < 10 then month + 3 else month - 9
  (if civilMonth ≤ 2 then year + 1 else year, civilMonth, inYear - daysToMonth month + 1)

/-- Takes a number of exactly `width` digits off a text. -/
def take? (width : Nat) (text : List Char) : Option (Nat × List Char) :=
  if (text.take width).length = width then
    (digits? (text.take width)).map fun n => (n, text.drop width)
  else none

/-- Takes one of the given characters off a text. -/
def takeChar? (allowed : List Char) : List Char → Option (List Char)
  | [] => none
  | c :: rest => if c ∈ allowed then some rest else none

/-- Takes the decimals of a second off a text, if there are any. -/
def dropDecimals? : List Char → Option (List Char)
  | '.' :: rest =>
    if (rest.takeWhile Char.isDigit).isEmpty then none else some (rest.dropWhile Char.isDigit)
  | rest => some rest

/-- Reads an offset from UTC in seconds; nothing may follow it. -/
def offset? : List Char → Option Int
  | [] => none
  | sign :: rest =>
    if (sign = 'Z' ∨ sign = 'z') then if rest = [] then some 0 else none
    else do
      let (hours, rest) ← take? 2 rest
      let rest ← takeChar? [':'] rest
      let (minutes, rest) ← take? 2 rest
      let size := Int.ofNat (hours * 3600 + minutes * 60)
      if rest ≠ [] ∨ minutes > 59 ∨ hours > 23 then none
      else if sign = '+' then some size
      else if sign = '-' then some (-size)
      else none

/-- Reads an RFC 3339 timestamp. -/
def parse? (text : String) : Option Timestamp := do
  let (year, rest) ← take? 4 text.toList
  let rest ← takeChar? ['-'] rest
  let (month, rest) ← take? 2 rest
  let rest ← takeChar? ['-'] rest
  let (day, rest) ← take? 2 rest
  let rest ← takeChar? ['T', 't', ' '] rest
  let (hour, rest) ← take? 2 rest
  let rest ← takeChar? [':'] rest
  let (minute, rest) ← take? 2 rest
  let rest ← takeChar? [':'] rest
  let (second, rest) ← take? 2 rest
  let rest ← dropDecimals? rest
  let offset ← offset? rest
  if month = 0 ∨ month > 12 ∨ day = 0 ∨ day > monthLength year month ∨ hour > 23 ∨ minute > 59
      ∨ second > 60 then none
  else
    let whole := if second = 60 then 59 else second
    some ⟨dayNumber (Int.ofNat year) month day * 86400
      + Int.ofNat (hour * 3600 + minute * 60 + whole) - offset, second = 60⟩

/-- A number with at least `width` digits. -/
def padded (width n : Nat) : List Char :=
  let digits := Nat.toDigits 10 n
  List.replicate (width - digits.length) '0' ++ digits

/-- The text of a timestamp. -/
def render (t : Timestamp) : String :=
  let day := t.seconds.fdiv 86400
  let inDay := (t.seconds - day * 86400).toNat
  let (year, month, dayOfMonth) := dateOf day
  let yearText :=
    if 0 ≤ year ∧ year ≤ 9999 then padded 4 year.toNat
    else (if year < 0 then '-' else '+') :: padded 4 year.natAbs
  let second := inDay % 60 + (if t.leap then 1 else 0)
  String.ofList (yearText ++ '-' :: padded 2 month ++ '-' :: padded 2 dayOfMonth ++ 'T' ::
    padded 2 (inDay / 3600) ++ ':' :: padded 2 (inDay / 60 % 60) ++ ':' :: padded 2 second ++ ['Z'])

end Timestamp

end ClusterAccess
