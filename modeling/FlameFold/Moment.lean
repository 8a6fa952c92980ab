/-!
# Moments

A moment counts from the beginning of the year 1970. Its text has the date, the time of day
and a fraction of as many groups of three digits as it needs.
-/

namespace FlameFold

/-- A moment. -/
structure Moment where
  /-- Whole seconds since the beginning of 1970. -/
  seconds : Nat
  /-- Nanoseconds on top of them. -/
  nanoseconds : Nat
  deriving DecidableEq, Repr

/-- A day of the calendar. -/
structure Date where
  /-- The year. -/
  year : Nat
  /-- The month, from 1. -/
  month : Nat
  /-- The day of the month, from 1. -/
  day : Nat
  deriving DecidableEq, Repr

namespace Date

/-- The day that lies `n` days after the first day of March of the year 0. The calendar
repeats after 400 years; in such a span each century but the last has one leap day fewer. -/
def ofMarch (n : Nat) : Date :=
  let span := n % 146097
  let year := (span - span / 1460 + span / 36524 - span / 146096) / 365
  let ofYear := span - (365 * year + year / 4 - year / 100)
  let month := (5 * ofYear + 2) / 153
  let day := ofYear - (153 * month + 2) / 5 + 1
  let january := month / 10
  ⟨400 * (n / 146097) + year + january, month + 3 - 12 * january, day⟩

/-- The number of days from the first day of March of the year 0 to the beginning of
1970. -/
def epoch : Nat := 719468

end Date

namespace Moment

/-- The seconds of a day. -/
def daySeconds : Nat := 86400

/-- A number with at least as many digits. -/
def padded (places n : Nat) : String :=
  let digits := Nat.repr n
  String.ofList (List.replicate (places - digits.length) '0') ++ digits

/-- A fraction of a second. -/
def fraction (nanoseconds : Nat) : String :=
  if nanoseconds = 0 then ""
  else if nanoseconds % 1000000 = 0 then "." ++ padded 3 (nanoseconds / 1000000)
  else if nanoseconds % 1000 = 0 then "." ++ padded 6 (nanoseconds / 1000)
  else "." ++ padded 9 nanoseconds

/-- The text of a moment. -/
def text (moment : Moment) : String :=
  let date := Date.ofMarch (Date.epoch + moment.seconds / daySeconds)
  let time := moment.seconds % daySeconds
  padded 4 date.year ++ "-" ++ padded 2 date.month ++ "-" ++ padded 2 date.day ++ "T" ++
    padded 2 (time / 3600) ++ ":" ++ padded 2 (time / 60 % 60) ++ ":" ++ padded 2 (time % 60) ++
    fraction moment.nanoseconds ++ "+00:00"

end Moment

end FlameFold
