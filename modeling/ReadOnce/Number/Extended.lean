import ReadOnce.Number.Binary64

/-!
# Numbers of extended precision

A number with 64 binary digits and any exponent. Powers of ten and products are rounded to the
nearest such number, and of two that are as near to the one that is even.

`Extended.scale` multiplies with a power of ten step by step, by hundreds, tens and single powers,
and so is off by a little in most cases: every step rounds.
-/

namespace ReadOnce

/-- A number of extended precision, `mantissa * 2 ^ exponent`. -/
structure Extended where
  /-- The mantissa, of at most 64 binary digits. -/
  mantissa : Nat
  exponent : Int
  deriving DecidableEq, Repr

namespace Extended

/-- A quotient rounded to the nearest whole number, and half way to the even one. -/
def roundedQuotient (n d : Nat) : Nat :=
  let q := n / d
  let r := 2 * (n % d)
  if r < d then q else if d < r then q + 1 else q + q % 2

/-- The number next to `n / d * 2 ^ e`, where `n` and `d` are positive. -/
def ofRatio (n d : Nat) (e : Int) : Extended :=
  let shift : Int := n.log2 - d.log2 - 64
  let up := n * Nat.pow 2 (-shift).toNat
  let down := d * Nat.pow 2 shift.toNat
  if up / down < UInt64.size then ⟨roundedQuotient up down, e + shift⟩
  else ⟨roundedQuotient up (2 * down), e + shift + 1⟩

/-- The number next to a power of ten. -/
def tenTo (k : Int) : Extended :=
  ofRatio (Nat.pow 10 k.toNat) (Nat.pow 10 (-k).toNat) 0

def mul (x y : Extended) : Extended :=
  ofRatio (x.mantissa * y.mantissa) 1 (x.exponent + y.exponent)

instance : LE Extended where
  le x y := x.mantissa * Nat.pow 2 (x.exponent - y.exponent).toNat ≤
    y.mantissa * Nat.pow 2 (y.exponent - x.exponent).toNat

instance (x y : Extended) : Decidable (x ≤ y) :=
  Nat.decLe _ _

def floor (x : Extended) : Nat :=
  x.mantissa * Nat.pow 2 x.exponent.toNat / Nat.pow 2 (-x.exponent).toNat

/-- A number multiplied some times. -/
def mulTimes : Nat → Extended → Extended → Extended
  | 0, _, x => x
  | count + 1, factor, x => mulTimes count factor (x.mul factor)

/-- A positive number times a power of ten. -/
def scale (x : Extended) (e : Int) : Extended :=
  let n := e.natAbs
  x |> mulTimes (n / 100) (tenTo (100 * e.sign)) |> mulTimes (n % 100 / 10) (tenTo (10 * e.sign))
    |> mulTimes (n % 10) (tenTo e.sign)

/-- The most steps that bring any floating-point number to its place. -/
def maxSteps : Nat := 16

/-- Takes `step` powers of ten off a number as long as it is at least a bound, and counts them. -/
def lowerBy (step : Nat) (bound factor : Extended) : Nat → Extended × Int → Extended × Int
  | 0, p => p
  | steps + 1, (x, e) =>
    if bound ≤ x then lowerBy step bound factor steps (x.mul factor, e + step) else (x, e)

/-- Adds `step` powers of ten to a number as long as it is below a bound, and counts them. -/
def raiseBy (step : Nat) (bound factor : Extended) : Nat → Extended × Int → Extended × Int
  | 0, p => p
  | steps + 1, (x, e) =>
    if bound ≤ x then (x, e) else raiseBy step bound factor steps (x.mul factor, e - step)

/-- Brings a number below ten to the power `k`. -/
def lower (step : Nat) (k : Int) : Extended × Int → Extended × Int :=
  lowerBy step (tenTo k) (tenTo (-step)) maxSteps

/-- Brings a number to ten to the power `k` or more. -/
def raise (step : Nat) (k : Int) : Extended × Int → Extended × Int :=
  raiseBy step (tenTo k) (tenTo step) maxSteps

def ofFloat (x : Float) : Extended :=
  ⟨Binary64.mantissa x, Binary64.exponent x⟩

def maxFloat : Extended :=
  ⟨0x1FFFFFFFFFFFFF, 971⟩

/-- The floating-point number next to a number. Whatever is beyond the largest finite one becomes
infinite. -/
def toFloat (x : Extended) : Float :=
  if ¬ x ≤ maxFloat then Float.ofBits 0x7FF0000000000000
  else
    let e := max (x.mantissa.log2 + x.exponent - 52) (-1074)
    let up := x.mantissa * Nat.pow 2 (x.exponent - e).toNat
    let m := roundedQuotient up (Nat.pow 2 (e - x.exponent).toNat)
    Float.ofBits (UInt64.ofNat ((e + 1074).toNat * Binary64.leading + m))

end Extended

end ReadOnce
