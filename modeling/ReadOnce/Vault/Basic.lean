import ReadOnce.Cipher.Basic
import ReadOnce.Framing
import ReadOnce.PinHash.Basic
import ReadOnce.Vault.Error
import ReadOnce.Vault.Limits
import ReadOnce.Vault.Program

/-!
# Vaults

A vault takes in secrets under a pin and hands each out once. It seals payloads and hashes pins; the
store only sees the results, and the pin is kept nowhere.

For each message a vault goes through few states: a right pin takes the message out and hands it
over, a wrong pin is counted and the last one allowed destroys the message, and past its deadline a
message is dropped whatever the pin. The one call that drops a message is the one that may hand it
over.
-/

namespace ReadOnce

/-- What keeps secrets under pins. -/
structure Vault where
  limits : Limits
  cipher : Cipher
  hasher : PinHasher

/-- The random values that a new message takes. -/
structure Fresh where
  salt : Bytes
  nonce : Bytes
  key : Key

structure TextRequest where
  duration : Span
  pin : String
  /-- The text, or the caller's ciphertext. -/
  payload : Bytes
  clientEncrypted : Bool

structure FileRequest where
  duration : Span
  pin : String
  name : String
  contentType : String
  data : Bytes

/-- What a message holds. -/
inductive Secret where
  | text (payload : Bytes)
  | file (name contentType : String) (data : Bytes)
  | opaqueBlob (payload : Bytes)
  deriving DecidableEq

/-- A secret that has been handed out, and the key that it was kept under. -/
structure Revealed where
  key : Key
  secret : Secret
  deriving DecidableEq

def Revealed.isFile (r : Revealed) : Bool :=
  match r.secret with
  | .file _ _ _ => true
  | _ => false

namespace Vault

/-- Checks what texts and files have in common. -/
def check (v : Vault) (pin : String) (duration : Span) : Except VaultError Unit :=
  if pin = "" then .error .badPin
  else if v.limits.maxDuration < duration then
    .error (.badDuration duration v.limits.maxDuration)
  else .ok ()

/-- Checks what only files have. -/
def checkFile (v : Vault) (r : FileRequest) : Except VaultError Unit :=
  if ¬ Framing.isValidName r.name then .error .badFileName
  else if ¬ Framing.isValidContentType r.contentType then .error .badContentType
  else if v.limits.maxFileSize < r.data.length then
    .error (.fileTooLarge r.data.length v.limits.maxFileSize)
  else .ok ()

def hashPin (v : Vault) (salt : Bytes) (pin : String) : Except VaultError String :=
  match v.hasher.hash salt pin with
  | .ok hash => .ok hash
  | .error why => .error (.internal s!"pin hashing failed: {why}")

def sealPayload (v : Vault) (nonce data : Bytes) (pin : String) : Except VaultError Bytes :=
  match v.cipher.encrypt nonce data pin with
  | .ok sealed => .ok sealed
  | .error why => .error (.crypto why)

/-- What is stored for a text, and the hash of its pin. -/
def prepareText (v : Vault) (r : TextRequest) (fresh : Fresh) :
    Except VaultError (Bytes × String) := do
  v.check r.pin r.duration
  let pinHash ← v.hashPin fresh.salt r.pin
  let data ← if r.clientEncrypted then .ok r.payload else v.sealPayload fresh.nonce r.payload r.pin
  .ok (data, pinHash)

/-- What is stored for a file, and the hash of its pin. -/
def prepareFile (v : Vault) (r : FileRequest) (fresh : Fresh) :
    Except VaultError (Bytes × String) := do
  v.check r.pin r.duration
  v.checkFile r
  let pinHash ← v.hashPin fresh.salt r.pin
  let sealed ← v.sealPayload fresh.nonce (Framing.encodeHeader r.name r.contentType ++ r.data) r.pin
  .ok (Framing.marker ++ sealed, pinHash)

/-- Saves what was prepared, with a deadline from now. -/
def persist (v : Vault) (duration : Span) (clientEncrypted : Bool) (key : Key)
    (prepared : Except VaultError (Bytes × String)) : Program (Except VaultError Message) :=
  match prepared with
  | .error e => .done (.error e)
  | .ok (data, pinHash) =>
    .now fun now =>
      match now.after? duration with
      | none => .done (.error (.badDuration duration v.limits.maxDuration))
      | some expiresAt =>
        let m : Message := { key, expiresAt, data, pinHash, errors := 0, clientEncrypted }
        .ask (.save m) fun
          | .ok () => .done (.ok m)
          | .error e => .done (.error (.store e))

def create (v : Vault) (r : TextRequest) (fresh : Fresh) : Program (Except VaultError Message) :=
  v.persist r.duration r.clientEncrypted fresh.key (v.prepareText r fresh)

/-- Takes in a file. Only the marker stays in the clear. -/
def createFile (v : Vault) (r : FileRequest) (fresh : Fresh) :
    Program (Except VaultError Message) :=
  v.persist r.duration false fresh.key (v.prepareFile r fresh)

/-- A message with its payload opened; a file keeps its marker. -/
def openPayload (v : Vault) (m : Message) (pin : String) : Except VaultError Message :=
  if m.clientEncrypted then .ok m
  else if Framing.isFile m.data then
    match v.cipher.decrypt (m.data.drop Framing.marker.length) pin with
    | .ok data => .ok { m with data := Framing.marker ++ data }
    | .error _ => .error .badPin
  else
    match v.cipher.decrypt m.data pin with
    | .ok data => .ok { m with data }
    | .error _ => .error .badPin

/-- Counts a wrong pin, and destroys the message if it was the last one allowed. -/
def recordBadPin (v : Vault) (m : Message) : Program (Except VaultError Message) :=
  .ask (.increment m.key) fun
    | .error .loadRejected => .done (.error .badPin)
    | .error e => .done (.error (.store e))
    | .ok attempts =>
      if v.limits.maxPinAttempts ≤ attempts then
        .ask (.remove m.key) fun _ => .done (.error .badPin)
      else .done (.error (.badPinAttempt attempts { m with errors := attempts }))

/-- Takes a message out and opens it. Dropping it is the claim: where another caller dropped it
first, there is nothing to hand over. -/
def claim (v : Vault) (m : Message) (key : Key) (pin : String) :
    Program (Except VaultError Message) :=
  .ask (.remove key) fun
    | .ok false => .done (.error .notFound)
    | _ => .done (v.openPayload m pin)

/-- Takes the message under a key out, if the pin is right. -/
def load (v : Vault) (key : Key) (pin : String) : Program (Except VaultError Message) :=
  .ask (.load key) fun
    | .error .loadRejected => .done (.error .notFound)
    | .error e => .done (.error (.store e))
    | .ok m =>
      .now fun now =>
        if m.isExpired now then .ask (.remove key) fun _ => .done (.error .expired)
        else if v.hasher.verify m.pinHash pin then v.claim m key pin
        else v.recordBadPin m

/-- The secret of an opened message. -/
def secretOf (m : Message) : Except VaultError Secret :=
  if m.clientEncrypted then .ok (.opaqueBlob m.data)
  else if Framing.isFile m.data then
    match Framing.parse? m.data with
    | some h => .ok (.file h.name h.contentType (m.data.drop h.dataOffset))
    | none => .error (.internal "malformed file header")
  else .ok (.text m.data)

/-- Takes the message under a key out and tells what it holds. -/
def reveal (v : Vault) (key : Key) (pin : String) : Program (Except VaultError Revealed) :=
  (v.load key pin).map fun result =>
    match result with
    | .error e => .error e
    | .ok m => (secretOf m).map fun secret => ⟨m.key, secret⟩

/-- Whether there is a file under a key that has not reached its deadline. The message stays. -/
def isFile (key : Key) : Program Bool :=
  .ask (.load key) fun
    | .error _ => .done false
    | .ok m =>
      .now fun now => .done (!m.clientEncrypted && !m.isExpired now && Framing.isFile m.data)

end Vault

end ReadOnce
