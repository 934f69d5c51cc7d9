/-!
# Timestamps

The text of a point in time: date and time of day in the Gregorian calendar and
Coordinated Universal Time, `2024-02-29T12:00:00.250+00:00`. The fraction of the
second has three, six or nine digits, as many as it needs, and is left out where
it is zero.

Days are counted from the first of March of the year zero, so that the leap day
ends a year: 400 years have 146097 days, and five months from March on have 153.
-/

namespace Layering

/-- A day of the calendar. -/
structure Date where
  year : Nat
  month : Nat
  day : Nat
  deriving DecidableEq

namespace Date

/-- The first of January 1970, counted from the first of March of the year zero. -/
def epoch : Nat := 719468

/-- The year that a day of a cycle of 400 years lies in. -/
def yearOfCycle (day : Nat) : Nat := (day - day / 1460 + day / 36524 - day / 146096) / 365

/-- The day some days after the first of January 1970. -/
def ofDays (days : Nat) : Date :=
  let day := (days + epoch) % 146097
  let y := yearOfCycle day
  let dayOfYear := day - (365 * y + y / 4 - y / 100)
  let m := (5 * dayOfYear + 2) / 153
  let year := 400 * ((days + epoch) / 146097) + y
  let day := dayOfYear - (153 * m + 2) / 5 + 1
  if m < 10 then ⟨year, m + 3, day⟩ else ⟨year + 1, m - 9, day⟩

end Date

/-- A point in time, in nanoseconds since the start of 1970. -/
structure Timestamp where
  nanoseconds : Nat
  deriving DecidableEq

namespace Timestamp

/-- A number with zeros in front, up to a number of digits. -/
def padded (width n : Nat) : String :=
  let digits := Nat.toDigits 10 n
  String.ofList (List.replicate (width - digits.length) '0' ++ digits)

/-- The fraction of a second, in nanoseconds, with the dot in front. -/
def fraction (n : Nat) : String :=
  if n = 0 then ""
  else if n % 1000000 = 0 then "." ++ padded 3 (n / 1000000)
  else if n % 1000 = 0 then "." ++ padded 6 (n / 1000)
  else "." ++ padded 9 n

/-- A point in time as text. -/
def text (t : Timestamp) : String :=
  let seconds := t.nanoseconds / 1000000000
  let date := Date.ofDays (seconds / 86400)
  padded 4 date.year ++ "-" ++ padded 2 date.month ++ "-" ++ padded 2 date.day ++ "T" ++
    padded 2 (seconds / 3600 % 24) ++ ":" ++ padded 2 (seconds / 60 % 60) ++ ":" ++
    padded 2 (seconds % 60) ++ fraction (t.nanoseconds % 1000000000) ++ "+00:00"

end Timestamp

end Layering
