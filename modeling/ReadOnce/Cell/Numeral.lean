import ReadOnce.Number.Extended
import ReadOnce.Text.Decimal

/-!
# Numerals at the start of a text

A table takes a text for a number if all of it is a numeral: blanks, a sign, digits with at most
one point among them, a power of ten, blanks. Arithmetic is more lenient and takes the longest
numeral that the text starts with, or zero if there is none. A numeral without point and power of
ten is a whole number as long as it fits in 64 bits.
-/

namespace ReadOnce.Cell

open ReadOnce.Text

/-- The blanks that may stand around a numeral. -/
def isSpace (c : Char) : Bool :=
  c == ' ' || (9 ≤ c.toNat && c.toNat ≤ 13)

structure Numeral where
  negative : Bool
  digits : List Char
  /-- How many of the digits stand after the point. -/
  places : Nat
  hasPoint : Bool
  /-- Whether the letter of a power of ten follows. -/
  hasLetter : Bool
  /-- The power of ten, if digits follow the letter. -/
  power : Option Int
  isWhole : Bool
  deriving DecidableEq, Repr

namespace Numeral

/-- Takes a sign off: whether it is a minus, and the rest. -/
def sign : List Char → Bool × List Char
  | '-' :: rest => (true, rest)
  | '+' :: rest => (false, rest)
  | rest => (false, rest)

/-- A power of ten beyond which every number is zero or infinite. -/
def maxPower : Nat := 10000

/-- What follows the digits: whether there is the letter of a power of ten, the power, and the
rest. -/
def readPower : List Char → Bool × Option Int × List Char
  | c :: rest =>
    if c = 'e' ∨ c = 'E' then
      let (negative, rest) := sign rest
      let ds := rest.takeWhile isDigit
      let n : Int := min maxPower (decimalValue ds)
      (true, if ds.isEmpty then none else some (if negative then -n else n), rest.drop ds.length)
    else (false, none, c :: rest)
  | [] => (false, none, [])

/-- The numeral at the start of a text. -/
def read (s : List Char) : Numeral :=
  let (negative, s) := sign (s.dropWhile isSpace)
  let whole := s.takeWhile isDigit
  let s := s.drop whole.length
  let hasPoint := s.head? = some '.'
  let s := if hasPoint then s.tail else s
  let fraction := if hasPoint then s.takeWhile isDigit else []
  let (hasLetter, power, rest) := readPower (s.drop fraction.length)
  { negative, digits := whole ++ fraction, places := fraction.length, hasPoint, hasLetter, power
    isWhole := (rest.dropWhile isSpace).isEmpty }

def isComplete (n : Numeral) : Bool :=
  n.isWhole && !n.digits.isEmpty && (!n.hasLetter || n.power.isSome)

/-- Whether a numeral has no point and no power of ten. -/
def isInteger (n : Numeral) : Bool :=
  !n.hasPoint && (!n.hasLetter || n.power.isNone)

def toInt (n : Numeral) : Int :=
  if n.negative then -(decimalValue n.digits : Int) else decimalValue n.digits

/-- A bound beyond which no more digits are taken into a number. -/
def maxTaken : Nat := 1844674407370955160

/-- The number of the digits before the point and the power of ten that it lacks: digits beyond the
bound only count. -/
def takeWhole (ds : List Char) : Nat × Int :=
  ds.foldl (fun (n, e) c => if n < maxTaken then (10 * n + digitValue c, e) else (n, e + 1)) (0, 0)

/-- A number and its power of ten after the digits behind the point: digits beyond the bound are
left out. -/
def takeFraction (p : Nat × Int) (ds : List Char) : Nat × Int :=
  ds.foldl (fun (n, e) c => if n < maxTaken then (10 * n + digitValue c, e - 1) else (n, e)) p

/-- The number of a numeral without its sign, and the power of ten that it is to be multiplied
with. -/
def taken (n : Numeral) : Nat × Int :=
  let whole := n.digits.take (n.digits.length - n.places)
  let (m, e) := takeFraction (takeWhole whole) (n.digits.drop whole.length)
  (m, n.power.getD 0 + e)

/-- A number with up to `count` zeros at its end moved to its power of ten, as long as that one is
negative. -/
def dropZeros : Nat → Nat × Int → Nat × Int
  | 0, p => p
  | count + 1, (n, e) => if e < 0 ∧ n % 10 = 0 then dropZeros count (n / 10, e + 1) else (n, e)

/-- A number with up to `count` powers of ten taken into it, as long as there is space. -/
def takeZeros : Nat → Nat × Int → Nat × Int
  | 0, p => p
  | count + 1, (n, e) =>
    if 0 < e ∧ n ≤ maxTaken then takeZeros count (10 * n, e - 1) else (n, e)

/-- A numeral as a floating-point number. What it amounts to is computed in extended precision, so
that the result is not always the nearest one. -/
def toFloat (n : Numeral) : Float :=
  let (m, e) := dropZeros 20 (takeZeros 20 n.taken)
  let x := if m = 0 then 0 else (Extended.scale ⟨m, 0⟩ e).toFloat
  if n.negative then -x else x

end Numeral

end ReadOnce.Cell
