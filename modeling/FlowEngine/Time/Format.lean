import FlowEngine.Time.Timestamp

/-!
# Formatting instants

Formats are texts in which a percent sign and a letter stand for a part of the date or the time of
day, in UTC.

* `Instant.format?` — an instant in a format; a format with an unknown specifier is no format.
-/

namespace FlowEngine.Time

/-- How numbers are filled up to their width. -/
inductive Padding where
  | none
  | zero
  | space
  deriving DecidableEq, Inhabited

/-- The names of the days of the week, from Sunday. -/
def weekdayNames : List String :=
  ["Sunday", "Monday", "Tuesday", "Wednesday", "Thursday", "Friday", "Saturday"]

/-- The names of the months. -/
def monthNames : List String :=
  ["January", "February", "March", "April", "May", "June", "July", "August", "September",
    "October", "November", "December"]

/-- Whether it is the second half of the day. -/
def Instant.isAfternoon (t : Instant) : Bool := decide (12 ≤ t.hour)

/-- The hour on a clock of twelve hours. -/
def Instant.hour12 (t : Instant) : Nat := if t.hour % 12 = 0 then 12 else t.hour % 12

/-- A number of two places. Its tens are written as one character, whatever they are. -/
def twoPlaces (n : Nat) (p : Padding) : List Char :=
  let ones := Char.ofNat ('0'.toNat + n % 10)
  match n / 10, p with
  | 0, .none => [ones]
  | 0, .space => [' ', ones]
  | tens, _ => [Char.ofNat ('0'.toNat + tens), ones]

/-- A number filled up to a width; the sign counts as a place. -/
def filled (width : Nat) (n : Int) (p : Padding) (withSign : Bool) : List Char :=
  let ds := Nat.toDigits 10 n.natAbs
  let sign := if n < 0 then ['-'] else if withSign then ['+'] else []
  let room := (if withSign then width + 1 else width) - sign.length - ds.length
  match p with
  | .none => sign ++ ds
  | .zero => sign ++ List.replicate room '0' ++ ds
  | .space => List.replicate room ' ' ++ sign ++ ds

/-- A year of four places, with a sign if four digits are not enough. -/
def yearPlaces (year : Int) (p : Padding) : List Char :=
  filled 4 year p (!(decide (0 ≤ year) && decide (year ≤ 9999)))

/-- The last two digits of the century of a year. -/
def centuryOf (year : Int) : Nat := (year / 100 % 256).toNat

/-- A numeric part that a padding applies to: its usual padding, and its text. -/
def numericPart? (t : Instant) (spec : Char) : Option (Padding × (Padding → List Char)) :=
  let d := t.date
  match spec with
  | 'Y' => some (.zero, yearPlaces d.year)
  | 'C' => some (.zero, twoPlaces (centuryOf d.year))
  | 'y' => some (.zero, twoPlaces (d.year % 100).toNat)
  | 'G' => some (.zero, yearPlaces d.isoWeek.1)
  | 'g' => some (.zero, twoPlaces (d.isoWeek.1 % 100).toNat)
  | 'q' => some (.zero, fun _ => Nat.toDigits 10 d.quarter)
  | 'm' => some (.zero, twoPlaces d.month)
  | 'd' => some (.zero, twoPlaces d.day)
  | 'e' => some (.space, twoPlaces d.day)
  | 'w' => some (.zero, fun _ => Nat.toDigits 10 d.weekday)
  | 'u' => some (.zero, fun _ => Nat.toDigits 10 (d.weekdayFromMonday + 1))
  | 'U' => some (.zero, twoPlaces d.weeksFromSunday)
  | 'W' => some (.zero, twoPlaces d.weeksFromMonday)
  | 'V' => some (.zero, twoPlaces d.isoWeek.2)
  | 'j' => some (.zero, fun p => filled 3 d.ordinal p false)
  | 'H' => some (.zero, twoPlaces t.hour)
  | 'k' => some (.space, twoPlaces t.hour)
  | 'I' => some (.zero, twoPlaces t.hour12)
  | 'l' => some (.space, twoPlaces t.hour12)
  | 'M' => some (.zero, twoPlaces t.minute)
  | 'S' => some (.zero, twoPlaces t.second)
  | 'f' => some (.zero, fun p => filled 9 t.nanosecond p false)
  | 's' => some (.none, fun p => filled 9 t.seconds p false)
  | _ => none

/-- The month and the day with leading zeros, and the year's last two digits. -/
def Date.shortText (d : Date) : List Char :=
  padded 2 d.month ++ '/' :: (padded 2 d.day ++ '/' :: padded 2 (d.year % 100).toNat)

/-- The first three letters of a name. -/
def shortName (names : List String) (n : Nat) : List Char := ((names.getD n "").toList).take 3

/-- A part that no padding applies to. -/
def fixedPart? (t : Instant) (spec : Char) : Option (List Char) :=
  let d := t.date
  let half := if t.isAfternoon then "PM" else "AM"
  let hourMinute := padded 2 t.hour ++ ':' :: padded 2 t.minute
  match spec with
  | 'a' => some (shortName weekdayNames d.weekday)
  | 'A' => some (weekdayNames.getD d.weekday "").toList
  | 'b' | 'h' => some (shortName monthNames (d.month - 1))
  | 'B' => some (monthNames.getD (d.month - 1) "").toList
  | 'D' | 'x' => some d.shortText
  | 'F' => some d.text
  | 'v' =>
    some (twoPlaces d.day .space ++ '-' :: shortName monthNames (d.month - 1) ++
      '-' :: yearText d.year)
  | 'P' => some (half.toList.map Char.toLower)
  | 'p' => some half.toList
  | 'R' => some hourMinute
  | 'T' | 'X' => some t.clockText
  | 'r' =>
    some (padded 2 t.hour12 ++ ':' :: (padded 2 t.minute ++ ':' :: (padded 2 t.second ++
      ' ' :: half.toList)))
  | 'Z' => some "UTC".toList
  | 'z' => some "+0000".toList
  | 'c' =>
    some (shortName weekdayNames d.weekday ++ ' ' :: (shortName monthNames (d.month - 1) ++
      ' ' :: (twoPlaces d.day .space ++ ' ' :: (t.clockText ++ ' ' :: yearText d.year))))
  | '+' => some (t.timestampChars "+00:00".toList)
  | 't' => some ['\t']
  | 'n' => some ['\n']
  | '%' => some ['%']
  | _ => none

/-- The fraction of a second in a given number of digits: three, six or nine. -/
def fractionDigits? (t : Instant) : Char → Option (List Char)
  | '3' => some (padded 3 (t.nanosecond / 1000000))
  | '6' => some (padded 6 (t.nanosecond / 1000))
  | '9' => some (padded 9 t.nanosecond)
  | _ => none

/-- A part after its percent sign, and the rest of the format. -/
def part? (t : Instant) (cs : List Char) : Option (List Char × List Char) :=
  let padding (p : Padding) (spec : Char) : Option (List Char) :=
    (numericPart? t spec).map fun (_, text) => text p
  match cs with
  | '-' :: c :: rest => (padding .none c).map (·, rest)
  | '0' :: c :: rest => (padding .zero c).map (·, rest)
  | '_' :: c :: rest => (padding .space c).map (·, rest)
  | '.' :: 'f' :: rest => some (fractionText t.nanosecond, rest)
  | '.' :: n :: 'f' :: rest => (fractionDigits? t n).map fun ds => ('.' :: ds, rest)
  | ':' :: ':' :: ':' :: 'z' :: rest => some ("+00".toList, rest)
  | ':' :: ':' :: 'z' :: rest => some ("+00:00:00".toList, rest)
  | ':' :: 'z' :: rest => some ("+00:00".toList, rest)
  | c :: rest =>
    match numericPart? t c with
    | some (p, text) => some (text p, rest)
    | none =>
      match fixedPart? t c, fractionDigits? t c, rest with
      | some text, _, _ => some (text, rest)
      | none, some ds, 'f' :: rest => some (ds, rest)
      | _, _, _ => none
  | [] => none

/-- Formats the rest of a format; the first argument bounds the number of parts. -/
def formatChars? (t : Instant) : Nat → List Char → Option (List Char)
  | _, [] => some []
  | fuel + 1, '%' :: cs => do
    let (text, rest) ← part? t cs
    (formatChars? t fuel rest).map (text ++ ·)
  | fuel + 1, c :: rest => (formatChars? t fuel rest).map (c :: ·)
  | 0, _ => none

/-- An instant in a format. -/
def Instant.format? (t : Instant) (format : String) : Option String :=
  (formatChars? t (format.length + 1) format.toList).map String.ofList

end FlowEngine.Time
