import ReadOnce.Bytes

/-!
# Text as bytes

Text is stored as UTF-8. `Text.utf8` writes it and `Text.ofUtf8` reads it back; a byte string that
is no text is answered with the place and the kind of its first fault. `Text.ofUtf8Lossy` reads
every byte string, and shows what is no text as `U+FFFD`.

The main lemma is `ofUtf8_utf8`: reading undoes writing.
-/

namespace ReadOnce.Text

def utf8 (s : String) : Bytes :=
  s.toByteArray.data.toList

/-- The text that a byte string encodes, if it encodes one. -/
def ofUtf8? (b : Bytes) : Option String :=
  String.fromUTF8? ⟨b.toArray⟩

/-- Why a byte string is no text. -/
inductive Utf8Fault where
  /-- The `length` bytes from `index` on start no character, whatever comes after them. -/
  | invalid (length index : Nat)
  /-- The bytes end inside the character that starts at `index`. -/
  | incomplete (index : Nat)
  deriving DecidableEq, Repr

def Utf8Fault.message : Utf8Fault → String
  | .invalid length index =>
    s!"invalid utf-8 sequence of {length} bytes from index {index}"
  | .incomplete index =>
    s!"incomplete utf-8 byte sequence from index {index}"

/-- After a leading byte of a longer encoding: the bounds of the second byte, and how many
continuation bytes follow that one. -/
def secondByte? (lead : UInt8) : Option (UInt8 × UInt8 × Nat) :=
  if 0xC2 ≤ lead ∧ lead ≤ 0xDF then some (0x80, 0xBF, 0)
  else if lead = 0xE0 then some (0xA0, 0xBF, 1)
  else if lead = 0xED then some (0x80, 0x9F, 1)
  else if 0xE1 ≤ lead ∧ lead ≤ 0xEF then some (0x80, 0xBF, 1)
  else if lead = 0xF0 then some (0x90, 0xBF, 2)
  else if lead = 0xF4 then some (0x80, 0x8F, 2)
  else if 0xF1 ≤ lead ∧ lead ≤ 0xF3 then some (0x80, 0xBF, 2)
  else none

def isContinuation (b : UInt8) : Bool :=
  0x80 ≤ b && b ≤ 0xBF

/-- The first fault of a byte string that is no text, with `index` bytes read before it. -/
def utf8FaultFrom (index : Nat) : Bytes → Utf8Fault
  | [] => .incomplete index
  | a :: rest =>
    if a < 0x80 then utf8FaultFrom (index + 1) rest
    else match secondByte? a, rest with
      | none, _ => .invalid 1 index
      | some _, [] => .incomplete index
      | some (lo, hi, more), b :: rest =>
        if ¬ (lo ≤ b ∧ b ≤ hi) then .invalid 1 index
        else match more, rest with
          | 0, rest => utf8FaultFrom (index + 2) rest
          | _, [] => .incomplete index
          | 1, c :: rest =>
            if isContinuation c then utf8FaultFrom (index + 3) rest else .invalid 2 index
          | _, [c] => if isContinuation c then .incomplete index else .invalid 2 index
          | _, c :: d :: rest =>
            if !isContinuation c then .invalid 2 index
            else if isContinuation d then utf8FaultFrom (index + 4) rest
            else .invalid 3 index

/-- The text that a byte string encodes, or its first fault. -/
def ofUtf8 (b : Bytes) : Except Utf8Fault String :=
  match ofUtf8? b with
  | some s => .ok s
  | none => .error (utf8FaultFrom 0 b)

/-- The text of a byte string with at most `faults` faults, each of them shown as `U+FFFD`. -/
def lossyText : Nat → Bytes → String
  | 0, b => (ofUtf8? b).getD ""
  | faults + 1, b =>
    match ofUtf8 b with
    | .ok s => s
    | .error (.invalid length index) =>
      (ofUtf8? (b.take index)).getD "" ++ "\uFFFD" ++ lossyText faults (b.drop (index + length))
    | .error (.incomplete index) => (ofUtf8? (b.take index)).getD "" ++ "\uFFFD"

/-- The text of a byte string, each of its faults shown as `U+FFFD`. -/
def ofUtf8Lossy (b : Bytes) : String :=
  lossyText b.length b

@[simp] theorem ofUtf8?_utf8 (s : String) : ofUtf8? (utf8 s) = some s := by
  have h : (⟨(utf8 s).toArray⟩ : ByteArray) = s.toByteArray := by
    simp [utf8]
  unfold ofUtf8?
  rw [h, String.fromUTF8?, dif_pos s.isValidUTF8]
  rfl

@[simp] theorem ofUtf8_utf8 (s : String) : ofUtf8 (utf8 s) = .ok s := by
  simp [ofUtf8, ofUtf8?_utf8]

theorem utf8_inj {s t : String} : utf8 s = utf8 t ↔ s = t := by
  constructor
  · intro h
    have := congrArg ofUtf8? h
    simpa [ofUtf8?_utf8] using this
  · rintro rfl; rfl

theorem utf8_append (s t : String) : utf8 (s ++ t) = utf8 s ++ utf8 t := by
  simp [utf8]

end ReadOnce.Text
