import ReadOnce.Bytes

/-!
# Hashing pins

What a vault needs of pin hashes: making one with a fresh salt, and checking a pin against a stored
one. Making may fail, with a reason; a stored hash that cannot be read matches no pin.
-/

namespace ReadOnce

/-- A way to hash pins. -/
structure PinHasher where
  /-- The hash of a pin with a salt, or why there is none. -/
  hash : (salt : Bytes) → (pin : String) → Except String String
  /-- Whether a stored hash is of a pin. -/
  verify : (hash pin : String) → Bool

namespace PinHasher

/-- Whether the hashes that a hasher makes match exactly the pin that they were made of. -/
def Faithful (h : PinHasher) : Prop :=
  ∀ salt pin hash, h.hash salt pin = .ok hash → ∀ other, h.verify hash other = (other == pin)

/-- A hasher that keeps the pin in sight, for trials. -/
def plain : PinHasher where
  hash _ pin := .ok ("hash:" ++ pin)
  verify hash pin := hash == "hash:" ++ pin

end PinHasher

end ReadOnce
