import ReadOnce.Text.Utf8

/-!
# Ciphers keyed by a pin

What a vault needs of encryption: sealing data under a pin with a fresh nonce, and opening sealed
data with a pin. Both may fail, with a reason.
-/

namespace ReadOnce

/-- A way to encrypt under a pin. -/
structure Cipher where
  /-- The sealed form of data, or why there is none. -/
  encrypt : (nonce data : Bytes) → (pin : String) → Except String Bytes
  /-- The data of a sealed form, or why it does not open. -/
  decrypt : (sealed : Bytes) → (pin : String) → Except String Bytes

namespace Cipher

/-- A cipher that writes the pin before the data, for trials. -/
def plain : Cipher where
  encrypt _ data pin := .ok (Text.utf8 pin ++ data)
  decrypt sealed pin :=
    match Bytes.strip? (Text.utf8 pin) sealed with
    | some data => .ok data
    | none => .error "failed to decrypt"

/-- A cipher that always fails, for trials. -/
def broken (why : String) : Cipher where
  encrypt _ _ _ := .error why
  decrypt _ _ := .error why

end Cipher

end ReadOnce
