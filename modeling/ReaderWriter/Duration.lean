/-!
# Durations

Lengths of time in whole nanoseconds, and their text: the largest of the units s, ms, µs and ns
of which there is at least one, with as many decimals as are needed and no more.
-/

namespace ReaderWriter

/-- A length of time. -/
structure Duration where
  nanos : Nat
deriving DecidableEq

namespace Duration

/-- The length of the given seconds and nanoseconds. -/
def ofParts (seconds nanos : Nat) : Duration := ⟨seconds * 1000000000 + nanos⟩

/-- The longest duration: 64 bits of seconds, and as many nanoseconds as stay below one more. -/
def longest : Duration := ofParts 18446744073709551615 999999999

/-- A unit in which durations are written. -/
structure Scale where
  name : String
  /-- The length of the unit. -/
  nanos : Nat
  /-- The decimals that tell nanoseconds apart in this unit. -/
  places : Nat

/-- Nanoseconds, the unit of the shortest durations. -/
def finest : Scale := ⟨"ns", 1, 0⟩

/-- The units that are preferred to nanoseconds, the largest first. -/
def coarser : List Scale := [⟨"s", 1000000000, 9⟩, ⟨"ms", 1000000, 6⟩, ⟨"µs", 1000, 3⟩]

/-- The decimals of `part` in so many places, without the zeros at the end. -/
def decimals (places part : Nat) : List Char :=
  let digits := Nat.toDigits 10 part
  let padded := List.replicate (places - digits.length) '0' ++ digits
  (padded.reverse.dropWhile (· == '0')).reverse

/-- A duration in the given unit. -/
def inScale (d : Duration) (u : Scale) : String :=
  let rest := d.nanos % u.nanos
  Nat.repr (d.nanos / u.nanos) ++
    (if rest = 0 then "" else "." ++ String.ofList (decimals u.places rest)) ++ u.name

/-- The text of a duration. -/
def text (d : Duration) : String :=
  d.inScale ((coarser.find? fun u => decide (u.nanos ≤ d.nanos)).getD finest)

end Duration

end ReaderWriter
