import ReadOnce.Message.Basic
import ReadOnce.Text.Utf8

/-!
# Messages as bytes

A message is written field by field: texts and the payload with their length in eight bytes before
them, the deadline as text, the count of errors in four bytes and the flag in one. Numbers are
little-endian. Whatever follows the flag is not read.
-/

namespace ReadOnce.Message

/-- Why bytes are no message. -/
inductive DecodeError where
  /-- The bytes end within a text. -/
  | textTooShort
  /-- The bytes end within any other field. -/
  | tooShort
  | notText (fault : Text.Utf8Fault)
  | notInstant (why : Instant.ReadError)
  | notFlag (value : UInt8)
  deriving DecidableEq, Repr

def DecodeError.message : DecodeError → String
  | .textTooShort => "io error: "
  | .tooShort => "io error: unexpected end of file"
  | .notText fault => s!"string is not valid utf8: {fault.message}"
  | .notInstant why => why.message
  | .notFlag value => s!"invalid u8 while decoding bool, expected 0 or 1, found {value}"

/-- A byte string with its length before it. -/
def encodeBytes (b : Bytes) : Bytes :=
  Bytes.ofNatLE 8 b.length ++ b

/-- A text with its length before it. -/
def encodeText (s : String) : Bytes :=
  encodeBytes (Text.utf8 s)

def encode (m : Message) : Bytes :=
  encodeText m.key.text ++ encodeText m.expiresAt.stored ++ encodeBytes m.data ++
    encodeText m.pinHash ++ Bytes.ofNatLE 4 m.errors.toNat ++ [if m.clientEncrypted then 1 else 0]

/-- Takes `n` bytes off, or answers `short` if there are fewer. -/
def takeBytes (short : DecodeError) (n : Nat) (b : Bytes) : Except DecodeError (Bytes × Bytes) :=
  if n ≤ b.length then .ok (b.take n, b.drop n) else .error short

/-- Reads a number of `width` bytes. -/
def decodeNat (width : Nat) (b : Bytes) : Except DecodeError (Nat × Bytes) := do
  let (n, b) ← takeBytes .tooShort width b
  .ok (Bytes.toNatLE n, b)

/-- Reads a byte string after its length. -/
def decodeBytes (b : Bytes) : Except DecodeError (Bytes × Bytes) := do
  let (n, b) ← decodeNat 8 b
  takeBytes .tooShort n b

/-- Reads a text after its length. -/
def decodeText (b : Bytes) : Except DecodeError (String × Bytes) := do
  let (n, b) ← decodeNat 8 b
  let (t, b) ← takeBytes .textTooShort n b
  match Text.ofUtf8 t with
  | .ok s => .ok (s, b)
  | .error fault => .error (.notText fault)

/-- Reads an instant after the length of its text. -/
def decodeInstant (b : Bytes) : Except DecodeError (Instant × Bytes) := do
  let (s, b) ← decodeText b
  match Instant.ofText s with
  | .ok t => .ok (t, b)
  | .error why => .error (.notInstant why)

def decodeFlag : Bytes → Except DecodeError (Bool × Bytes)
  | [] => .error .tooShort
  | b :: rest =>
    if b = 0 then .ok (false, rest)
    else if b = 1 then .ok (true, rest)
    else .error (.notFlag b)

/-- The message that bytes start with. -/
def decode (b : Bytes) : Except DecodeError Message := do
  let (key, b) ← decodeText b
  let (expiresAt, b) ← decodeInstant b
  let (data, b) ← decodeBytes b
  let (pinHash, b) ← decodeText b
  let (errors, b) ← decodeNat 4 b
  let (clientEncrypted, _) ← decodeFlag b
  .ok { key := ⟨key⟩, expiresAt, data, pinHash, errors := UInt32.ofNat errors, clientEncrypted }

end ReadOnce.Message
