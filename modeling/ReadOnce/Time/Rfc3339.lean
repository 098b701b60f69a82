import ReadOnce.Text.Blank
import ReadOnce.Text.Decimal
import ReadOnce.Time.Instant

/-!
# Instants as text

`Instant.rfc3339` writes an instant in UTC as RFC 3339 does, extended to all years of the calendar:
years outside 0 to 9999 carry a sign, the fraction has none, three, six or nine digits, whichever
is the shortest exact form, and a leap second is second 60.

`Instant.ofText` reads a wider language: blanks before each number and around the punctuation,
fields with fewer digits, years with a sign and any number of digits, fractions of any length (cut
to nine digits), a blank in place of the `T`, and offsets from UTC.
-/

namespace ReadOnce.Instant

open ReadOnce.Text

/-- The digits of a year: four between 0 and 9999, otherwise a sign and at least four. -/
def yearText (y : Int) : List Char :=
  let a := y.natAbs
  let digits := fixedDigits (if a < 10000 then 4 else if a < 100000 then 5 else 6) a
  if 0 ≤ y ∧ y ≤ 9999 then digits
  else if y < 0 then '-' :: digits
  else '+' :: digits

/-- The date of an instant, as year, month and day. -/
def dateText (t : Instant) : List Char :=
  let d := t.date
  yearText d.year ++ '-' :: fixedDigits 2 d.month ++ '-' :: fixedDigits 2 d.day

/-- A fraction of a second, in none, three, six or nine digits. -/
def fractionText (nanos : Nat) : List Char :=
  if nanos = 0 then []
  else if nanos % 1000000 = 0 then '.' :: fixedDigits 3 (nanos / 1000000)
  else if nanos % 1000 = 0 then '.' :: fixedDigits 6 (nanos / 1000)
  else '.' :: fixedDigits 9 nanos

/-- The time of day of an instant; a leap second is second 60. -/
def timeText (t : Instant) : List Char :=
  let s := t.secondOfDay
  let second := s % 60 + t.nanos / 1000000000
  fixedDigits 2 (s / 3600) ++ ':' :: fixedDigits 2 (s / 60 % 60) ++ ':' ::
    fixedDigits 2 second ++ fractionText (t.nanos % 1000000000)

/-- An instant as RFC 3339 writes it, in UTC. -/
def rfc3339 (t : Instant) : List Char :=
  t.dateText ++ 'T' :: t.timeText ++ ['Z']

/-- An instant in the form that is stored. -/
def stored (t : Instant) : String :=
  String.ofList t.rfc3339

/-- An instant in the form that people read. -/
def display (t : Instant) : String :=
  String.ofList (t.dateText ++ ' ' :: t.timeText ++ " UTC".toList)

/-- Why a text is no instant. -/
inductive ReadError where
  /-- A character that the form does not allow in its place. -/
  | invalid
  /-- A field, a date or an offset beyond its bounds. -/
  | outOfRange
  | tooShort
  | tooLong
  /-- The instant leaves the calendar once its offset is taken off. -/
  | impossible
  deriving DecidableEq, Repr

def ReadError.message : ReadError → String
  | .invalid => "input contains invalid characters"
  | .outOfRange => "input is out of range"
  | .tooShort => "premature end of input"
  | .tooLong => "trailing input"
  | .impossible => "no possible date and time matching input"

/-- Reads the digits of a number, at least one and at most `limit` of them. -/
def readDigits (limit : Nat) (s : List Char) : Except ReadError (Nat × List Char) :=
  let ds := (s.take limit).takeWhile isDigit
  if ds.isEmpty then
    .error (if s.isEmpty then .tooShort else .invalid)
  else .ok (decimalValue ds, s.drop ds.length)

/-- Reads a field of at most two digits between `lo` and `hi`, after blanks. -/
def readField (lo hi : Nat) (s : List Char) : Except ReadError (Nat × List Char) := do
  let (n, rest) ← readDigits 2 (skipBlanks s)
  if lo ≤ n ∧ n ≤ hi then .ok (n, rest) else .error .outOfRange

/-- The number of digits of a year with a sign is not limited, its value is. -/
def readSignedYear (sign : Int) (s : List Char) : Except ReadError (Int × List Char) := do
  let (n, rest) ← readDigits s.length s
  let y := sign * n
  if -2147483648 ≤ y ∧ y ≤ 2147483647 then .ok (y, rest) else .error .outOfRange

/-- Reads a year, after blanks: a sign and digits, or at most four digits. -/
def readYear (s : List Char) : Except ReadError (Int × List Char) :=
  match skipBlanks s with
  | '-' :: rest => readSignedYear (-1) rest
  | '+' :: rest => readSignedYear 1 rest
  | rest => do
    let (n, rest) ← readDigits 4 rest
    .ok ((n : Int), rest)

/-- Reads one punctuation mark, after blanks. -/
def readMark (mark : Char) (s : List Char) : Except ReadError (List Char) :=
  match skipBlanks s with
  | [] => .error .tooShort
  | c :: rest => if c = mark then .ok rest else .error .invalid

/-- Reads the date: year, month and day. -/
def readDate (s : List Char) : Except ReadError (Date × List Char) := do
  let (year, s) ← readYear s
  let s ← readMark '-' s
  let (month, s) ← readField 1 12 s
  let s ← readMark '-' s
  let (day, s) ← readField 1 31 s
  .ok ({ year, month, day }, s)

def readSeparator : List Char → Except ReadError (List Char)
  | [] => .error .tooShort
  | c :: rest => if c = 'T' ∨ c = 't' ∨ c = ' ' then .ok rest else .error .invalid

/-- Reads a fraction, if there is one, in nanoseconds; digits beyond the ninth are skipped. -/
def readFraction : List Char → Except ReadError (Nat × List Char)
  | '.' :: s => do
    let (n, rest) ← readDigits 9 s
    .ok (n * Nat.pow 10 (9 - (s.length - rest.length)), rest.dropWhile isDigit)
  | s => .ok (0, s)

/-- Reads the time of day: its second of the day and its nanoseconds. Second 60 is the leap second
after second 59. -/
def readTime (s : List Char) : Except ReadError ((Nat × Nat) × List Char) := do
  let (hour, s) ← readField 0 23 s
  let s ← readMark ':' s
  let (minute, s) ← readField 0 59 s
  let s ← readMark ':' s
  let (second, s) ← readField 0 60 s
  let (nanos, s) ← readFraction s
  let leap := if second = 60 then 1 else 0
  .ok ((hour * 3600 + minute * 60 + (second - leap), nanos + leap * 1000000000), s)

/-- Reads two digits that must be there. -/
def readPair (top : Char) : List Char → Except ReadError (Nat × List Char)
  | a :: b :: rest =>
    if isDigit a ∧ isDigit b then
      if a ≤ top then .ok (digitValue a * 10 + digitValue b, rest) else .error .outOfRange
    else .error .invalid
  | a :: [] => if a.utf8Size ≥ 2 then .error .invalid else .error .tooShort
  | [] => .error .tooShort

/-- Reads an offset after its sign, in seconds: two digits of hours, blanks and colons, two digits
of minutes. -/
def readOffset (sign : Int) (s : List Char) : Except ReadError (Int × List Char) := do
  let (hours, s) ← readPair '9' s
  let (minutes, s) ← readPair '5' (s.dropWhile fun c => c == ':' || isBlank c)
  .ok (sign * (hours * 3600 + minutes * 60 : Nat), s)

/-- Reads the zone: `Z`, `UTC`, or an offset with its sign. -/
def readZone : List Char → Except ReadError (Int × List Char)
  | 'Z' :: rest | 'z' :: rest => .ok (0, rest)
  | '+' :: rest => readOffset 1 rest
  | '-' :: rest | '−' :: rest => readOffset (-1) rest
  | u :: t :: c :: rest =>
    if u.toUpper = 'U' ∧ t.toUpper = 'T' ∧ c.toUpper = 'C' then .ok (0, rest) else .error .invalid
  | [] => .error .tooShort
  | _ => .error .invalid

/-- The instant at a date and time of day that is `offset` seconds ahead of UTC. -/
def ofFields (date : Date) (time : Nat × Nat) (offset : Int) : Except ReadError Instant :=
  if ¬ date.isValid then .error .outOfRange
  else if ¬ (-86400 < offset ∧ offset < 86400) then .error .outOfRange
  else
    match of? (date.toDays * 86400 + time.1 - offset) time.2 with
    | some t => .ok t
    | none => .error .impossible

/-- The instant that a text writes. -/
def ofChars (s : List Char) : Except ReadError Instant := do
  let (date, s) ← readDate s
  let s ← readSeparator s
  let (time, s) ← readTime s
  let (offset, s) ← readZone (skipBlanks s)
  if (skipBlanks s).isEmpty then ofFields date time offset else .error .tooLong

/-- The instant that a text writes. -/
def ofText (s : String) : Except ReadError Instant :=
  ofChars s.toList

end ReadOnce.Instant
