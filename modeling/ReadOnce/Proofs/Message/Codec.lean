import ReadOnce.Message.Codec
import ReadOnce.Proofs.Text.Utf8
import ReadOnce.Proofs.Time.Reader

/-!
# Messages read back from their bytes

Each field is read back from what writing it gives, whatever follows it, and the fields are read in
the order in which they are written. Lengths take eight bytes, so a message is read back if none of
its texts and byte strings is longer than eight bytes can tell; nothing that fits in a memory is.

`decode_encode_append` says that a message is read back from its bytes, with its deadline as the
calendar has it, and leaves what follows them unread. Where the calendar has the deadline itself,
the message that is read is the same one; no other deadline is ever read.
-/

namespace ReadOnce.Message

/-- The lengths of a message's fields can be told in eight bytes. -/
structure Fits (m : Message) : Prop where
  key : (Text.utf8 m.key.text).length < Nat.pow 256 8
  data : m.data.length < Nat.pow 256 8
  pinHash : (Text.utf8 m.pinHash).length < Nat.pow 256 8

theorem Fits.recounted {m : Message} (h : m.Fits) (count : UInt32) :
    Fits { m with errors := count } :=
  ⟨h.key, h.data, h.pinHash⟩

theorem Fits.redated {m : Message} (h : m.Fits) (t : Instant) : Fits { m with expiresAt := t } :=
  ⟨h.key, h.data, h.pinHash⟩

/-- The message with its deadline as the calendar has it. -/
def onCalendar (m : Message) : Message :=
  { m with expiresAt := m.expiresAt.onCalendar }

/-- A message that is read back from its bytes as it was: it fits, and the calendar has its
deadline. -/
structure IsExact (m : Message) : Prop extends m.Fits where
  deadline : m.expiresAt.IsOnCalendar

theorem Fits.isExact_onCalendar {m : Message} (h : m.Fits) : m.onCalendar.IsExact :=
  ⟨h.redated _, m.expiresAt.isOnCalendar_onCalendar⟩

theorem Fits.isExact {m : Message} (h : m.Fits) (hleap : m.expiresAt.isLeap = false) : m.IsExact :=
  ⟨h, Instant.isOnCalendar_of_isLeap_eq_false hleap⟩

theorem IsExact.recounted {m : Message} (h : m.IsExact) (count : UInt32) :
    IsExact { m with errors := count } :=
  ⟨h.toFits.recounted count, h.deadline⟩

theorem onCalendar_eq_self_iff {m : Message} : m.onCalendar = m ↔ m.expiresAt.IsOnCalendar := by
  rw [← Instant.onCalendar_eq_self_iff]
  exact ⟨congrArg Message.expiresAt, fun h => by rw [onCalendar, h]⟩

@[simp] theorem key_onCalendar (m : Message) : m.onCalendar.key = m.key := rfl

@[simp] theorem encode_onCalendar (m : Message) : m.onCalendar.encode = m.encode := by
  unfold encode onCalendar
  rw [Instant.stored_onCalendar]

theorem takeBytes_append (short : DecodeError) {n : Nat} {b : Bytes} (rest : Bytes)
    (h : b.length = n) : takeBytes short n (b ++ rest) = .ok (b, rest) := by
  rw [takeBytes, if_pos (by simp [h]), List.take_left' h, List.drop_left' h]

theorem decodeNat_ofNatLE {width n : Nat} (h : n < Nat.pow 256 width) (rest : Bytes) :
    decodeNat width (Bytes.ofNatLE width n ++ rest) = .ok (n, rest) := by
  simp only [decodeNat, takeBytes_append _ rest (Bytes.length_ofNatLE width n), bind, Except.bind,
    Bytes.toNatLE_ofNatLE, Nat.mod_eq_of_lt h]

theorem decodeBytes_encodeBytes {b : Bytes} (h : b.length < Nat.pow 256 8) (rest : Bytes) :
    decodeBytes (encodeBytes b ++ rest) = .ok (b, rest) := by
  simp only [decodeBytes, encodeBytes, List.append_assoc, decodeNat_ofNatLE h, bind, Except.bind]
  exact takeBytes_append _ rest rfl

theorem decodeText_encodeText {s : String} (h : (Text.utf8 s).length < Nat.pow 256 8)
    (rest : Bytes) : decodeText (encodeText s ++ rest) = .ok (s, rest) := by
  simp only [decodeText, encodeText, encodeBytes, List.append_assoc, decodeNat_ofNatLE h,
    takeBytes_append _ rest rfl, bind, Except.bind, Text.ofUtf8_utf8]

theorem length_rfc3339_le (t : Instant) : t.rfc3339.length ≤ 64 := by
  have hyear : (Instant.yearText t.date.year).length ≤ 7 := by
    unfold Instant.yearText
    split
    · simp only [Text.length_fixedDigits]
      split <;> omega
    · split
      · simp only [List.length_cons, Text.length_fixedDigits]
        split
        · omega
        · split <;> omega
      · simp only [List.length_cons, Text.length_fixedDigits]
        split
        · omega
        · split <;> omega
  have hfraction : (Instant.fractionText (t.nanos % 1000000000)).length ≤ 10 := by
    unfold Instant.fractionText
    split
    · simp
    · split
      · simp
      · split <;> simp
  simp only [Instant.rfc3339, Instant.dateText, Instant.timeText, List.length_append,
    List.length_cons, List.length_nil, Text.length_fixedDigits]
  omega

theorem length_stored_lt (t : Instant) : (Text.utf8 t.stored).length < Nat.pow 256 8 := by
  have hchars := length_rfc3339_le t
  have hbytes := Text.length_utf8_ofList_le t.rfc3339
  have hpow : Nat.pow 256 8 = 18446744073709551616 := rfl
  rw [Instant.stored, hpow]
  omega

theorem decodeInstant_encodeText (t : Instant) (rest : Bytes) :
    decodeInstant (encodeText t.stored ++ rest) = .ok (t.onCalendar, rest) := by
  simp only [decodeInstant, decodeText_encodeText (length_stored_lt t), Instant.ofText_stored, bind,
    Except.bind]

theorem decodeFlag_cons (flag : Bool) (rest : Bytes) :
    decodeFlag ((if flag then 1 else 0) :: rest) = .ok (flag, rest) := by
  cases flag <;> rfl

/-- A message is read back from its bytes, and what follows them is not read. -/
theorem decode_encode_append {m : Message} (h : m.Fits) (rest : Bytes) :
    decode (m.encode ++ rest) = .ok m.onCalendar := by
  have herrors : m.errors.toNat < Nat.pow 256 4 := m.errors.toNat_lt
  simp only [decode, encode, List.append_assoc, List.cons_append, List.nil_append,
    decodeText_encodeText h.key, decodeInstant_encodeText, decodeBytes_encodeBytes h.data,
    decodeText_encodeText h.pinHash, decodeNat_ofNatLE herrors, decodeFlag_cons, bind, Except.bind,
    UInt32.ofNat_toNat, onCalendar]

theorem decode_encode {m : Message} (h : m.IsExact) : decode m.encode = .ok m := by
  have hread := decode_encode_append h.toFits []
  rwa [List.append_nil, onCalendar_eq_self_iff.2 h.deadline] at hread

/-- Whatever bytes are read as, the calendar has its deadline. -/
theorem isOnCalendar_of_decode {b : Bytes} {m : Message} (h : decode b = .ok m) :
    m.expiresAt.IsOnCalendar := by
  obtain ⟨_, -, h⟩ := bind_eq_ok_iff.1 h
  obtain ⟨⟨expiresAt, _⟩, hdeadline, h⟩ := bind_eq_ok_iff.1 h
  obtain ⟨_, -, h⟩ := bind_eq_ok_iff.1 h
  obtain ⟨_, -, h⟩ := bind_eq_ok_iff.1 h
  obtain ⟨_, -, h⟩ := bind_eq_ok_iff.1 h
  obtain ⟨_, -, h⟩ := bind_eq_ok_iff.1 h
  cases h
  obtain ⟨⟨text, _⟩, -, hdeadline⟩ := bind_eq_ok_iff.1 hdeadline
  dsimp only at hdeadline
  split at hdeadline
  · rename_i htext
    cases hdeadline
    exact Instant.isOnCalendar_of_ofText htext
  · contradiction

end ReadOnce.Message
