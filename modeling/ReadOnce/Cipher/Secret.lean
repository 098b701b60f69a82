import ReadOnce.Cipher.Basic
import ReadOnce.Cipher.XChaCha20Poly1305

/-!
# The cipher of a server's secret

The key is the server's sign key followed by the pin, and both together must be 32 bytes: neither is
filled up nor cut. A sealed value is the nonce, the hidden text and the tag. The sign key is made
from the operator's secret by repeating or cutting it to the bytes that a pin leaves free.
-/

namespace ReadOnce

open XChaCha20Poly1305

/-- Why sealing or opening fails. -/
inductive CipherError where
  /-- Sign key and pin do not make a key; `actual` is their length, or the length asked for. -/
  | keyLength (actual : Nat)
  /-- The sealed value is too short, was changed, or was sealed under another key. -/
  | decryptionFailed
  deriving DecidableEq, Repr

def CipherError.message : CipherError → String
  | .keyLength actual => s!"Invalid key length: expected {keySize}, got {actual}"
  | .decryptionFailed => "Decryption failed"

/-- The sign key that completes pins of `pinSize` bytes: the bytes of the secret, over and over. -/
def deriveSignKey (secret : String) (pinSize : Nat) : Except CipherError Bytes :=
  let bytes := Text.utf8 secret
  if bytes.isEmpty ∨ keySize ≤ pinSize then .error (.keyLength pinSize)
  else .ok ((List.range (keySize - pinSize)).map fun i => bytes.getD (i % bytes.length) 0)

structure SecretCipher where
  signKey : Bytes
  deriving DecidableEq

namespace SecretCipher

/-- The length of the pins that complete the key. -/
def pinSize (c : SecretCipher) : Nat :=
  keySize - c.signKey.length

/-- A cipher for a log, without its key. -/
def debug (c : SecretCipher) : String :=
  s!"SecretCipher \x7b pin_size: {c.pinSize}, .. \x7d"

/-- The key that a pin completes. -/
def key (c : SecretCipher) (pin : String) : Except CipherError Bytes :=
  let key := c.signKey ++ Text.utf8 pin
  if key.length = keySize then .ok key else .error (.keyLength key.length)

/-- Seals data under a pin. -/
def encrypt (c : SecretCipher) (nonce data : Bytes) (pin : String) : Except CipherError Bytes :=
  match c.key pin with
  | .error e => .error e
  | .ok key => .ok (nonce ++ XChaCha20Poly1305.encrypt key nonce data)

/-- Opens a sealed value with a pin. -/
def decrypt (c : SecretCipher) (sealed : Bytes) (pin : String) : Except CipherError Bytes :=
  match c.key pin with
  | .error e => .error e
  | .ok key =>
    if sealed.length < nonceSize + tagSize then .error .decryptionFailed
    else
      match decrypt? key (sealed.take nonceSize) (sealed.drop nonceSize) with
      | some data => .ok data
      | none => .error .decryptionFailed

end SecretCipher

/-- The cipher under a sign key, as a vault uses it. -/
def Cipher.secret (c : SecretCipher) : Cipher where
  encrypt nonce data pin := (c.encrypt nonce data pin).mapError CipherError.message
  decrypt sealed pin := (c.decrypt sealed pin).mapError CipherError.message

end ReadOnce
