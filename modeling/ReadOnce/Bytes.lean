/-!
# Byte strings and fixed-width numbers in them

A byte string is a list of bytes, first byte first. Numbers are written in a fixed number of
bytes, in either order; reading undoes writing for every number that fits.
-/

namespace ReadOnce

abbrev Bytes := List UInt8

namespace Bytes

/-- The `width` low bytes of a number, least significant first. -/
def ofNatLE : Nat → Nat → Bytes
  | 0, _ => []
  | width + 1, n => UInt8.ofNat n :: ofNatLE width (n / 256)

/-- The number that bytes write, least significant first. -/
def toNatLE : Bytes → Nat
  | [] => 0
  | b :: rest => b.toNat + 256 * toNatLE rest

/-- The `width` low bytes of a number, most significant first. -/
def ofNatBE (width n : Nat) : Bytes :=
  (ofNatLE width n).reverse

@[simp] theorem length_ofNatLE (width n : Nat) : (ofNatLE width n).length = width := by
  induction width generalizing n with
  | zero => rfl
  | succ width ih => simp [ofNatLE, ih]

@[simp] theorem length_ofNatBE (width n : Nat) : (ofNatBE width n).length = width := by
  simp [ofNatBE]

theorem toNatLE_ofNatLE (width n : Nat) :
    toNatLE (ofNatLE width n) = n % Nat.pow 256 width := by
  induction width generalizing n with
  | zero => exact (Nat.mod_one n).symm
  | succ width ih =>
    have hp : Nat.pow 256 (width + 1) = 256 * Nat.pow 256 width := Nat.mul_comm _ _
    rw [ofNatLE, toNatLE, ih, hp, Nat.mod_mul]
    simp

/-- The bytes from `start` on, at most `count` of them. -/
def slice (b : Bytes) (start count : Nat) : Bytes :=
  (b.drop start).take count

/-- What is left of a byte string that starts with `head`. -/
def strip? (head b : Bytes) : Option Bytes :=
  if head.isPrefixOf b then some (b.drop head.length) else none

end Bytes

end ReadOnce
