import ReadOnce.Message.Key
import ReadOnce.Time.Rfc3339

/-!
# Messages

The record that is stored for a secret: its key, its deadline, the sealed payload, the hash of the
pin, and how many wrong pins have been counted.
-/

namespace ReadOnce

/-- A stored secret. -/
structure Message where
  /-- The key that the secret is asked for by. -/
  key : Key
  /-- The first instant at which it is no longer given out. -/
  expiresAt : Instant
  /-- The sealed payload, or the caller's own ciphertext. -/
  data : Bytes
  pinHash : String
  errors : UInt32
  clientEncrypted : Bool
  deriving DecidableEq

namespace Message

def isExpired (m : Message) (now : Instant) : Bool :=
  m.expiresAt ≤ now

/-- A message for a log: payload and pin hash are left out. -/
def debug (m : Message) : String :=
  s!"Message \x7b key: {m.key.debug}, expires_at: {m.expiresAt.stored}, " ++
    s!"data_len: {m.data.length}, errors: {m.errors}, " ++
    s!"client_encrypted: {m.clientEncrypted}, .. \x7d"

end Message

end ReadOnce
