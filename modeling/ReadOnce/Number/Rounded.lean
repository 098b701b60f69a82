import ReadOnce.Number.Extended
import ReadOnce.Text.Decimal

/-!
# Decimal texts of 15 digits

A number is brought to between 10^17 and 10^19 by powers of ten, in extended precision, and of the
whole number that it then amounts to 15 digits are kept. So the last digit is not always the nearest
one.
-/

namespace ReadOnce.Binary64

open ReadOnce.Text

/-- A positive number as a whole number between 10^17 and 10^19 and the power of ten that it is to
be multiplied with. Larger numbers go down and smaller ones up, by hundreds, tens and single powers
of ten. -/
def scaled (x : Float) : Nat × Int :=
  let x := Extended.ofFloat x
  let (x, e) :=
    if Extended.tenTo 19 ≤ x then
      (x, 0) |> Extended.lower 100 119 |> Extended.lower 10 29 |> Extended.lower 1 19
    else
      (x, 0) |> Extended.raise 100 (-97) |> Extended.raise 10 7 |> Extended.raise 1 17
  (x.floor, e)

/-- The first 15 digits of a positive number, as a whole number, and the power of ten of the first
of them. The sixteenth digit decides the rounding. -/
def significant (x : Float) : Nat × Int :=
  let (v, e) := scaled x
  let count := digitCount v
  let n := (v / Nat.pow 10 (count - 16) + 5) / 10
  let e := e + count - 1
  if n < 1000000000000000 then (n, e) else (100000000000000, e + 1)

/-- Digits without the zeros at their end. -/
def trimZeros (ds : List Char) : List Char :=
  (ds.reverse.dropWhile (· == '0')).reverse

/-- Digits after a point, at least one. -/
def afterPoint (ds : List Char) : List Char :=
  match trimZeros ds with
  | [] => ['.', '0']
  | ds => '.' :: ds

/-- A power of ten, with its sign and at least two digits. -/
def exponentText (e : Int) : List Char :=
  let ds := Nat.toDigits 10 e.natAbs
  'e' :: (if e < 0 then '-' else '+') :: (if ds.length < 2 then '0' :: ds else ds)

/-- 15 digits, of which the first stands for the power `e` of ten: positional from 0.0001 up to
below 10^15, otherwise with an exponent. -/
def digitsText (ds : List Char) (e : Int) : List Char :=
  if e < -4 ∨ 14 < e then ds.take 1 ++ afterPoint (ds.drop 1) ++ exponentText e
  else if e < 0 then '0' :: afterPoint (List.replicate (-e - 1).toNat '0' ++ ds)
  else ds.take (e.toNat + 1) ++ afterPoint (ds.drop (e.toNat + 1))

/-- A number in decimal, with 15 significant digits and a digit on either side of the point. -/
def text (x : Float) : String :=
  let sign := if isNegative x ∧ mantissa x ≠ 0 then ['-'] else []
  if x.isInf then String.ofList (sign ++ "Inf".toList)
  else if mantissa x = 0 then "0.0"
  else
    let (n, e) := significant x
    String.ofList (sign ++ digitsText (fixedDigits 15 n) e)

end ReadOnce.Binary64
