import FlameFold.Decimal.Rounding
import FlameFold.Decimal.Shortest

/-!
# Durations

A time span in nanoseconds, and its texts: as a number of seconds, in full or with two
places, and with the largest unit of which it has at least one.
-/

namespace FlameFold

/-- A time span. -/
structure Duration where
  /-- Its length in nanoseconds. -/
  nanoseconds : Nat
  deriving DecidableEq, Repr

namespace Duration

/-- The nanoseconds of one second. -/
def second : Nat := 1000000000

/-- A number of seconds. -/
def ofSeconds (n : Nat) : Duration := ⟨n * second⟩

/-- The largest number of whole seconds in a time span. -/
def lastSecond : Nat := Nat.pow 2 64 - 1

/-- Whole seconds and nanoseconds together, if that is no longer than a time span can be. -/
def ofParts? (seconds nanoseconds : Nat) : Option Duration :=
  let total := seconds * second + nanoseconds
  if total / second ≤ lastSecond then some ⟨total⟩ else none

/-- A number of milliseconds. -/
def ofMilliseconds (n : Nat) : Duration := ⟨n * 1000000⟩

/-- The number of seconds as a number with a binary point: the whole seconds and
the fraction are rounded each, and then their sum. -/
def seconds (d : Duration) : Decimal.Magnitude :=
  (Decimal.Magnitude.ofNat (d.nanoseconds / second)).add
    (.ofRatio (d.nanoseconds % second) second)

/-- The number of seconds in digits. -/
def secondsText (d : Duration) : String :=
  Decimal.Style.plain.text (.signed false d.seconds)

/-- The number of seconds with two places. -/
def hundredthsText (d : Duration) : String :=
  Decimal.hundredths (Decimal.roundDiv d.nanoseconds 10000000)

/-- A whole number of units and a fraction of `10 ^ places`, without zeros at its end. -/
def inUnit (size places : Nat) (d : Duration) : String :=
  let fraction := d.nanoseconds % size
  let digits := (Nat.repr fraction).toList
  let padded := List.replicate (places - digits.length) '0' ++ digits
  Nat.repr (d.nanoseconds / size) ++
    (if fraction = 0 then ""
    else "." ++ String.ofList (padded.reverse.dropWhile (· == '0')).reverse)

/-- The duration in seconds, or in the first smaller unit of which there is one. -/
def unitText (d : Duration) : String :=
  if second ≤ d.nanoseconds then inUnit second 9 d ++ "s"
  else if 1000000 ≤ d.nanoseconds then inUnit 1000000 6 d ++ "ms"
  else if 1000 ≤ d.nanoseconds then inUnit 1000 3 d ++ "µs"
  else Nat.repr d.nanoseconds ++ "ns"

end Duration

end FlameFold
