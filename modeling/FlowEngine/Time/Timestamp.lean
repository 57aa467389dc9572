import FlowEngine.Time.Calendar
import FlowEngine.Text.Category

/-!
# Timestamps

Dates with time and offset as in RFC 3339, such as `2026-02-14T15:30:45.250+01:00`.

* `Timestamp.read` — reading the strict form, with the reason of a failure.
* `Timestamp.readLenient?` — reading with single digits and with blanks around the parts.
* `Instant.toTimestamp` — writing an instant in UTC.
-/

namespace FlowEngine.Time

/-- Why a text is no timestamp. -/
inductive TimestampError where
  | tooShort
  | invalid
  | outOfRange
  | tooLong
  deriving DecidableEq, Inhabited

/-- The wording of an error. -/
def TimestampError.message : TimestampError → String
  | tooShort => "premature end of input"
  | invalid => "input contains invalid characters"
  | outOfRange => "input is out of range"
  | tooLong => "trailing input"

/-! ## Writing -/

/-- A number with zeros in front up to a width. -/
def padded (width n : Nat) : List Char :=
  let ds := Nat.toDigits 10 n
  List.replicate (width - ds.length) '0' ++ ds

/-- A year: four digits, and a sign if it has more or is negative. -/
def yearText (year : Int) : List Char :=
  if 0 ≤ year ∧ year ≤ 9999 then padded 4 year.toNat
  else (if year < 0 then '-' else '+') :: padded 4 year.natAbs

/-- Nanoseconds after a point, in three, six or nine digits, whichever is enough; nothing if there
are none. -/
def fractionText (nanos : Nat) : List Char :=
  if nanos = 0 then []
  else if nanos % 1000000 = 0 then '.' :: padded 3 (nanos / 1000000)
  else if nanos % 1000 = 0 then '.' :: padded 6 (nanos / 1000)
  else '.' :: padded 9 nanos

/-- A date as year, month and day. -/
def Date.text (d : Date) : List Char :=
  yearText d.year ++ '-' :: (padded 2 d.month ++ '-' :: padded 2 d.day)

/-- The time of day in hours, minutes and seconds. -/
def Instant.clockText (t : Instant) : List Char :=
  padded 2 t.hour ++ ':' :: (padded 2 t.minute ++ ':' :: padded 2 t.second)

/-- An instant in UTC, with the given spelling of the offset. -/
def Instant.timestampChars (t : Instant) (offset : List Char) : List Char :=
  t.date.text ++ 'T' :: (t.clockText ++ fractionText t.nanosecond ++ offset)

/-- An instant in UTC with the offset `Z`. -/
def Instant.toTimestamp (t : Instant) : String := String.ofList (t.timestampChars ['Z'])

/-- An instant in UTC with the offset `+00:00`. -/
def Instant.toOffsetTimestamp (t : Instant) : String :=
  String.ofList (t.timestampChars ['+', '0', '0', ':', '0', '0'])

/-! ## Reading -/

namespace Timestamp

/-- The length of a text in bytes. -/
def byteLength (cs : List Char) : Nat := cs.foldl (fun n c => n + c.utf8Size) 0

/-- A number of at least `least` and at most `most` digits. -/
def number (least most : Nat) (cs : List Char) : Except TimestampError (Nat × List Char) :=
  if byteLength cs < least then .error .tooShort
  else
    let ds := (cs.take most).takeWhile Char.isDigit
    if ds.length < least then .error .invalid
    else .ok (ds.foldl (fun n c => 10 * n + (c.toNat - '0'.toNat)) 0, cs.drop ds.length)

/-- A number within bounds. -/
def bounded (lo hi : Nat) (s : Except TimestampError (Nat × List Char)) :
    Except TimestampError (Nat × List Char) := do
  let (n, rest) ← s
  if lo ≤ n ∧ n ≤ hi then .ok (n, rest) else .error .outOfRange

/-- A given character. -/
def char (c : Char) : List Char → Except TimestampError (List Char)
  | d :: rest => if d = c then .ok rest else .error .invalid
  | [] => .error .tooShort

/-- What separates the date from the time. -/
def separator : List Char → Except TimestampError (List Char)
  | c :: rest => if c = 't' ∨ c = 'T' ∨ c = ' ' then .ok rest else .error .invalid
  | [] => .error .tooShort

/-- A fraction of a second in nanoseconds, if there is one. Digits after the ninth are dropped. -/
def nanoseconds : List Char → Except TimestampError (Nat × List Char)
  | '.' :: cs => do
    let (n, rest) ← number 1 9 cs
    .ok (n * Nat.pow 10 (9 - (cs.length - rest.length)), rest.dropWhile Char.isDigit)
  | cs => .ok (0, cs)

/-- Two digits of an offset. -/
def offsetDigits (cs : List Char) : Except TimestampError (Char × Char × List Char) :=
  if byteLength cs < 2 then .error .tooShort
  else
    match cs with
    | a :: b :: rest => if a.isDigit ∧ b.isDigit then .ok (a, b, rest) else .error .invalid
    | _ => .error .invalid

/-- The value of two digits. -/
def twoDigits (a b : Char) : Nat := 10 * (a.toNat - '0'.toNat) + (b.toNat - '0'.toNat)

/-- An offset from UTC in seconds: `Z`, or a sign, hours and minutes. -/
def offset (colon : List Char → Except TimestampError (List Char)) (cs : List Char) :
    Except TimestampError (Int × List Char) :=
  let digits (negative : Bool) (cs : List Char) : Except TimestampError (Int × List Char) := do
    let (a, b, cs) ← offsetDigits cs
    let cs ← colon cs
    let (c, d, rest) ← offsetDigits cs
    if '6' ≤ c then .error .outOfRange
    else
      let seconds : Int := 3600 * twoDigits a b + 60 * twoDigits c d
      .ok (if negative then -seconds else seconds, rest)
  match cs with
  | [] => .error .tooShort
  | c :: rest =>
    if c = 'Z' ∨ c = 'z' then .ok (0, rest)
    else if c = '+' then digits false rest
    else if c = '-' ∨ c.toNat = 0x2212 then digits true rest
    else .error .invalid

/-- The instant of a date, a time of day and an offset. The sixtieth second is a leap second. -/
def instant (date : Date) (hour minute second nanos : Nat) (offset : Int) : Instant :=
  let leap := second = 60
  let seconds := date.toDays * 86400 + 3600 * hour + 60 * minute + min second 59 - offset
  ⟨seconds, if leap then nanos + 1000000000 else nanos⟩

/-- The bytes of a date and a time of day in the strict form, without a fraction. -/
def strictLength : Nat := 19

/-- Reads the strict form. The date is checked when it is complete, and so is the time of day. -/
def read (text : String) : Except TimestampError Instant := do
  let cs := text.toList
  if byteLength cs < strictLength then .error .tooShort
  else
    let (year, cs) ← number 4 4 cs
    let cs ← char '-' cs
    let (month, cs) ← number 2 2 cs
    let cs ← char '-' cs
    let (day, cs) ← number 2 2 cs
    let date : Date := ⟨year, month, day⟩
    if !date.isValid then .error .outOfRange
    else
      let cs ← separator cs
      let (hour, cs) ← number 2 2 cs
      let cs ← char ':' cs
      let (minute, cs) ← number 2 2 cs
      let cs ← char ':' cs
      let (second, cs) ← number 2 2 cs
      let (nanos, cs) ← nanoseconds cs
      if 23 < hour ∨ 59 < minute ∨ 60 < second then .error .outOfRange
      else
        let (off, cs) ← offset (char ':') cs
        if cs ≠ [] then .error .tooLong
        else if 86400 ≤ off.natAbs then .error .outOfRange
        else .ok (instant date hour minute second nanos off)

/-- A number of at most two digits with blanks before it. -/
def looseNumber (lo hi : Nat) (cs : List Char) : Except TimestampError (Nat × List Char) :=
  bounded lo hi (number 1 2 (Text.trimStart cs))

/-- A year with an optional sign; without one it has at most four digits. -/
def looseYear (cs : List Char) : Except TimestampError (Int × List Char) :=
  match Text.trimStart cs with
  | '-' :: cs => do
    let (n, rest) ← number 1 cs.length cs
    .ok (-(n : Int), rest)
  | '+' :: cs => do
    let (n, rest) ← number 1 cs.length cs
    .ok (n, rest)
  | cs => do
    let (n, rest) ← number 1 4 cs
    .ok (n, rest)

/-- The offset after the time of day; it may also be spelt `UTC`. -/
def looseOffset (cs : List Char) : Except TimestampError (Int × List Char) :=
  let cs := Text.trimStart cs
  if (cs.take 3).map Char.toUpper = ['U', 'T', 'C'] then .ok (0, cs.drop 3)
  else offset (fun cs => .ok (cs.dropWhile fun c => c == ':' || Text.isBlank c)) cs

/-- Reads a timestamp whose parts may have fewer digits and blanks around them. -/
def readLenient? (text : String) : Option Instant :=
  let result : Except TimestampError Instant := do
    let (year, cs) ← looseYear text.toList
    let cs ← char '-' (Text.trimStart cs)
    let (month, cs) ← looseNumber 1 12 cs
    let cs ← char '-' (Text.trimStart cs)
    let (day, cs) ← looseNumber 1 31 cs
    let cs ← separator cs
    let (hour, cs) ← looseNumber 0 23 cs
    let cs ← char ':' (Text.trimStart cs)
    let (minute, cs) ← looseNumber 0 59 cs
    let cs ← char ':' (Text.trimStart cs)
    let (second, cs) ← looseNumber 0 60 cs
    let (nanos, cs) ← nanoseconds cs
    let (off, cs) ← looseOffset cs
    let date : Date := ⟨year, month, day⟩
    if Text.trimStart cs ≠ [] then .error .tooLong
    else if !date.isValid ∨ !Instant.inRange (date.toDays * 86400) ∨ 86400 ≤ off.natAbs then
      .error .outOfRange
    else .ok (instant date hour minute second nanos off)
  match result with
  | .ok t => if Instant.inRange t.seconds then some t else none
  | .error _ => none

end Timestamp

end FlowEngine.Time
