import ReadOnce.Text.Decimal
import ReadOnce.Toml.Node
import ReadOnce.Toml.Text

/-!
# Numbers and dates of a TOML document

Digits may be grouped by single underscores. Whole numbers have 64 bits, and a floating-point
number must not be too large. Dates and times are checked and not kept.
-/

namespace ReadOnce.Toml

open ReadOnce.Text

/-- Digits of a kind with underscores between them, at the front of a text that may start with
either. -/
def moreDigits (isOne : Char → Bool) : List Char → List Char × List Char
  | '_' :: c :: rest =>
    if isOne c then
      let (ds, rest) := moreDigits isOne rest
      (c :: ds, rest)
    else ([], '_' :: c :: rest)
  | c :: rest =>
    if isOne c then
      let (ds, rest) := moreDigits isOne rest
      (c :: ds, rest)
    else ([], c :: rest)
  | [] => ([], [])

/-- One digit or more, with underscores between them. -/
def digits (isOne : Char → Bool) : Reader (List Char)
  | c :: rest =>
    if isOne c then
      let (ds, rest) := moreDigits isOne rest
      some (c :: ds, rest)
    else none
  | [] => none

/-- A sign, if there is one: whether it is a minus. -/
def sign : List Char → Bool × List Char
  | '-' :: rest => (true, rest)
  | '+' :: rest => (false, rest)
  | rest => (false, rest)

/-- Decimal digits without a leading zero. -/
def wholeDigits : Reader (List Char)
  | '0' :: rest => some (['0'], rest)
  | rest => digits isDigit rest

/-- The value of digits in a base. -/
def valueIn (base : Nat) (ds : List Char) : Nat :=
  ds.foldl (fun n c => base * n + (hexDigit? c).getD 0) 0

/-- A whole number, if it has 64 bits. -/
def int64? (n : Int) : Option Node :=
  if -9223372036854775808 ≤ n ∧ n ≤ 9223372036854775807 then some (.integer n) else none

/-- A whole number in a base other than ten. -/
def integerIn (base : Nat) (isOne : Char → Bool) (s : List Char) : Option (Node × List Char) := do
  let (ds, rest) ← digits isOne s
  let n ← int64? (valueIn base ds)
  some (n, rest)

def integer : Reader Node
  | '0' :: 'x' :: rest => integerIn 16 (fun c => (hexDigit? c).isSome) rest
  | '0' :: 'o' :: rest => integerIn 8 (fun c => '0' ≤ c && c ≤ '7') rest
  | '0' :: 'b' :: rest => integerIn 2 (fun c => c == '0' || c == '1') rest
  | s => do
    let (negative, s) := sign s
    let (ds, rest) ← wholeDigits s
    let n : Int := valueIn 10 ds
    let n ← int64? (if negative then -n else n)
    some (n, rest)

/-- A power of ten beyond which every number is zero or too large. -/
def maxPower : Nat := 100000

/-- A power of ten, if there is one. -/
def power? : List Char → Option (Int × List Char)
  | c :: s =>
    if c = 'e' ∨ c = 'E' then do
      let (negative, s) := sign s
      let (ds, rest) ← digits isDigit s
      let n : Int := min maxPower (decimalValue ds)
      some (if negative then -n else n, rest)
    else none
  | [] => none

/-- The digits after a point, if there is one. -/
def fraction? : List Char → Option (List Char × List Char)
  | '.' :: s => digits isDigit s
  | _ => none

/-- A floating-point number from its digits, unless it is too large. -/
def float? (negative : Bool) (whole fraction : List Char) (power : Int) : Option Node :=
  let e := power - fraction.length
  let x := Float.ofScientific (decimalValue (whole ++ fraction)) (e < 0) e.natAbs
  if negative then some (.float (-x))
  else if x.isInf then none
  else some (.float x)

/-- A floating-point number: a whole number with a fraction, a power of ten, or both. -/
def decimal (s : List Char) : Option (Node × List Char) := do
  let (negative, s) := sign s
  let (whole, s) ← wholeDigits s
  match fraction? s with
  | some (fraction, s) =>
    let (power, s) := (power? s).getD (0, s)
    let x ← float? negative whole fraction power
    some (x, s)
  | none =>
    let (power, s) ← power? s
    let x ← float? negative whole [] power
    some (x, s)

/-- A floating-point number that is infinite or none at all. -/
def special (s : List Char) : Option (Node × List Char) :=
  let (negative, s) := sign s
  match s with
  | 'i' :: 'n' :: 'f' :: rest =>
    let x := Float.ofScientific 1 false 400
    some (.float (if negative then -x else x), rest)
  | 'n' :: 'a' :: 'n' :: rest => some (.float (0.0 / 0.0), rest)
  | _ => none

def twoDigits (lo hi : Nat) : Reader Nat
  | a :: b :: rest =>
    let n := digitValue a * 10 + digitValue b
    if isDigit a ∧ isDigit b ∧ lo ≤ n ∧ n ≤ hi then some (n, rest) else none
  | _ => none

def char (c : Char) : Reader Unit
  | d :: rest => if d = c then some ((), rest) else none
  | [] => none

def lastDay (year month : Nat) : Nat :=
  if month = 2 then (if year % 4 = 0 ∧ (year % 100 ≠ 0 ∨ year % 400 = 0) then 29 else 28)
  else if month = 4 ∨ month = 6 ∨ month = 9 ∨ month = 11 then 30
  else 31

def day (s : List Char) : Option (Unit × List Char) := do
  let (century, s) ← twoDigits 0 99 s
  let (year, s) ← twoDigits 0 99 s
  let (_, s) ← char '-' s
  let (month, s) ← twoDigits 1 12 s
  let (_, s) ← char '-' s
  let (_, s) ← twoDigits 1 (lastDay (century * 100 + year) month) s
  some ((), s)

def time (s : List Char) : Option (Unit × List Char) := do
  let (_, s) ← twoDigits 0 23 s
  let (_, s) ← char ':' s
  let (_, s) ← twoDigits 0 59 s
  let (_, s) ← char ':' s
  let (_, s) ← twoDigits 0 60 s
  match s with
  | '.' :: rest =>
    let ds := rest.takeWhile isDigit
    if ds.isEmpty then none else some ((), rest.drop ds.length)
  | _ => some ((), s)

/-- What is left after the distance from UTC, if there is one. -/
def skipOffset (s : List Char) : List Char :=
  match s with
  | 'Z' :: rest | 'z' :: rest => rest
  | '+' :: rest | '-' :: rest =>
    let offset : Option (List Char) := do
      let (_, r) ← twoDigits 0 23 rest
      let (_, r) ← char ':' r
      let (_, r) ← twoDigits 0 59 r
      some r
    offset.getD s
  | _ => s

/-- A date, a time, or a date with a time and perhaps its distance from UTC. -/
def date (s : List Char) : Option (Node × List Char) :=
  match day s with
  | some (_, rest) =>
    match rest with
    | c :: after =>
      if c = 'T' ∨ c = 't' ∨ c = ' ' then
        match time after with
        | some (_, rest) => some (.date, skipOffset rest)
        | none => some (.date, rest)
      else some (.date, rest)
    | [] => some (.date, [])
  | none => (time s).map fun (_, rest) => (.date, rest)

/-- A date or a number. -/
def number (s : List Char) : Option (Node × List Char) :=
  date s <|> decimal s <|> special s <|> integer s

end ReadOnce.Toml
