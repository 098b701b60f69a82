/-!
# Exact values of floating-point numbers

A finite number of the type `Float` is a whole number times a power of two. `Binary64.atMost`
compares it with a whole number without rounding, and `Binary64.toInt?` says which whole number it
is.
-/

namespace ReadOnce.Binary64

/-- The bit that leads the mantissa of a number, unless the number is close to zero: two to the
power 52. -/
def leading : Nat := 0x10000000000000

def mantissa (x : Float) : Nat :=
  let bits := x.toBits.toNat
  if bits / leading % 2048 = 0 then bits % leading else leading + bits % leading

/-- The exponent that goes with the mantissa: the size of a number is `mantissa * 2 ^ exponent`. -/
def exponent (x : Float) : Int :=
  max 1 (x.toBits.toNat / leading % 2048 : Nat) - 1075

/-- Whether a number has a minus sign. -/
def isNegative (x : Float) : Bool :=
  2048 * leading ≤ x.toBits.toNat

def numerator (x : Float) : Int :=
  let n : Int := mantissa x * Nat.pow 2 (exponent x).toNat
  if isNegative x then -n else n

/-- The denominator of a number, a power of two. -/
def denominator (x : Float) : Nat :=
  Nat.pow 2 (-exponent x).toNat

/-- Whether a number is at most a whole number. An infinite one counts as beyond all finite ones. -/
def atMost (x : Float) (n : Int) : Bool :=
  numerator x ≤ n * denominator x

/-- The whole number that a number is. -/
def toInt? (x : Float) : Option Int :=
  if numerator x % denominator x = 0 then some (numerator x / denominator x) else none

/-- The number of decimal digits of a whole number. -/
def digitCount (n : Nat) : Nat :=
  (Nat.toDigits 10 n).length

/-- The power of ten of the first digit of the positive number `num / den`. -/
def magnitude (num den : Nat) : Int :=
  let e : Int := digitCount num - digitCount den
  if den * Nat.pow 10 e.toNat ≤ num * Nat.pow 10 (-e).toNat then e else e - 1

end ReadOnce.Binary64
