/-!
# Durations

The text of a duration names it in its largest fitting unit, with as many decimal places as it has:
`90061.001s`, `1.5s`, `20ms`, `0ns`.
-/

namespace FlowEngine.Time

/-- The digits after the point: a fraction of a unit, without the zeros at its end. -/
def decimalPlaces (width n : Nat) : List Char :=
  let ds := Nat.toDigits 10 n
  let filled := List.replicate (width - ds.length) '0' ++ ds
  (filled.reverse.dropWhile (· == '0')).reverse

/-- A number of units, where a unit has ten to the `width` parts. -/
def unitsText (parts width : Nat) (unit : String) : String :=
  let places := decimalPlaces width (parts % Nat.pow 10 width)
  let fraction := if places.isEmpty then [] else '.' :: places
  String.ofList (Nat.toDigits 10 (parts / Nat.pow 10 width) ++ fraction) ++ unit

/-- The text of a duration in nanoseconds. -/
def durationText (nanos : Nat) : String :=
  if 1000000000 ≤ nanos then unitsText nanos 9 "s"
  else if 1000000 ≤ nanos then unitsText nanos 6 "ms"
  else if 1000 ≤ nanos then unitsText nanos 3 "µs"
  else unitsText nanos 0 "ns"

end FlowEngine.Time
