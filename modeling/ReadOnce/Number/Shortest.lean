import ReadOnce.Number.Binary64

/-!
# The shortest decimal text of a number

A finite number is written with the fewest significant digits that no other number is nearer to,
and of those the digits that are nearest to it. The digits are positional, however many zeros that
takes, and there is always a point.
-/

namespace ReadOnce.Binary64

/-- The decimals that round to a positive number, as numerators over one denominator. -/
structure Basin where
  num : Nat
  low : Nat
  high : Nat
  den : Nat
  /-- Whether the ends belong to it. -/
  closed : Bool

/-- The basin of a positive number: half way to its neighbours. The lower neighbour of a power of
two is only half as far away as the upper one. -/
def basin (x : Float) : Basin :=
  let m := mantissa x
  let scale := Nat.pow 2 (exponent x).toNat
  let below := if m = leading ∧ -1074 < exponent x then 1 else 2
  { num := 4 * m * scale
    low := (4 * m - below) * scale
    high := (4 * m + 2) * scale
    den := 4 * denominator x
    closed := m % 2 = 0 }

/-- Whether `n / d` lies in a basin. -/
def Basin.contains (b : Basin) (n d : Nat) : Bool :=
  if b.closed then b.low * d ≤ n * b.den && n * b.den ≤ b.high * d
  else b.low * d < n * b.den && n * b.den < b.high * d

/-- The number of `digits` digits in a basin that is nearest to its number, whose first digit stands
for the power `e` of ten; if there is one. -/
def Basin.onGrid? (b : Basin) (e : Int) (digits : Nat) : Option Nat :=
  let places := (digits : Int) - 1 - e
  let up := Nat.pow 10 places.toNat
  let down := Nat.pow 10 (-places).toNat
  let n := b.num * up / (b.den * down)
  let isIn (n : Nat) : Bool := b.contains (n * down) up
  let nearer := 2 * (b.num * up) ≤ (2 * n + 1) * (b.den * down)
  if isIn n ∧ (nearer ∨ ¬ isIn (n + 1)) then some n
  else if isIn (n + 1) then some (n + 1)
  else none

/-- The fewest digits of a positive number, as a whole number, and the power of ten of the last one.
Nines that are rounded up give one digit, a one. -/
def shortest (x : Float) : Nat × Int :=
  let b := basin x
  let e := magnitude b.num b.den
  let found := (List.range 17).findSome? fun i =>
    (b.onGrid? e (i + 1)).map fun n => if n = Nat.pow 10 (i + 1) then (1, e + 1) else (n, e - i)
  found.getD (0, 0)

/-- A whole number times a power of ten, positional and with a point. -/
def positional (n : Nat) (e : Int) : List Char :=
  let ds := Nat.toDigits 10 n
  if 0 ≤ e then ds ++ List.replicate e.toNat '0' ++ ['.', '0']
  else
    let places := (-e).toNat
    let ds := List.replicate (places + 1 - ds.length) '0' ++ ds
    ds.take (ds.length - places) ++ '.' :: ds.drop (ds.length - places)

def shortestText (x : Float) : String :=
  let sign := if isNegative x then "-" else ""
  if x.isNaN then "NaN"
  else if x.isInf then sign ++ "inf"
  else if mantissa x = 0 then sign ++ "0.0"
  else let (n, e) := shortest x; sign ++ String.ofList (positional n e)

end ReadOnce.Binary64
