import ReadOnce.Bytes

/-!
# Message keys

A key names one message. Keys are ordered as texts, which is the order of their UTF-8 bytes. Fresh
keys are drawn from a source of random bytes: a byte below 248, the largest multiple of 62 that a
byte can hold, gives the character of the alphabet at its residue, and any other byte is passed
over, so every character is equally likely.
-/

namespace ReadOnce

structure Key where
  text : String
  deriving DecidableEq, Repr, Inhabited

namespace Key

def length : Nat := 12

def alphabet : List Char :=
  "0123456789ABCDEFGHIJKLMNOPQRSTUVWXYZabcdefghijklmnopqrstuvwxyz".toList

/-- Random bytes from here on are passed over. -/
def firstRejected : UInt8 := 248

/-- The number of random bytes drawn at a time. -/
def drawSize : Nat := 32

/-- The character that a random byte gives, if it gives one. -/
def charOfByte? (b : UInt8) : Option Char :=
  if b < firstRejected then alphabet[b.toNat % 62]? else none

/-- The characters of a key extended by those that one draw gives, up to the length of a key. -/
def extend (key : List Char) (draw : Bytes) : List Char :=
  key ++ (draw.filterMap charOfByte?).take (length - key.length)

/-- The key that successive draws of random bytes give; `none` if they run out before it is
complete. Draws are not looked at once the key is complete. -/
def generateFrom? (key : List Char) : List Bytes → Option Key
  | [] => if length ≤ key.length then some ⟨String.ofList key⟩ else none
  | draw :: draws =>
    if length ≤ key.length then some ⟨String.ofList key⟩
    else generateFrom? (extend key draw) draws

/-- The key that successive draws of random bytes give. -/
def generate? (draws : List Bytes) : Option Key :=
  generateFrom? [] draws

/-- Whether a text has the form of a fresh key. -/
def isFresh (k : Key) : Bool :=
  k.text.toList.length == length && k.text.toList.all alphabet.contains

instance : LE Key := ⟨fun a b => a.text ≤ b.text⟩

instance (a b : Key) : Decidable (a ≤ b) :=
  inferInstanceAs (Decidable (a.text ≤ b.text))

/-- Keys in ascending order, each once. -/
def sorted (keys : List Key) : List Key :=
  (keys.mergeSort fun a b => a ≤ b).eraseDups

def debug (k : Key) : String :=
  s!"MessageKey({k.text})"

end Key

end ReadOnce
