import ReadOnce.Proofs.Message.Codec

/-!
# Messages cut short

A message is read off its bytes and off nothing less: a start of them fails as bytes that end too
early, in the first field that it does not hold whole. So no message begins with the bytes of
another one, unless both have the same deadline on the calendar, and a record that was cut short is
never taken for a record.

`NeedsAll` says of any reader that it fails so, and is carried through a sequence of readers by
`NeedsAll.bind`.
-/

namespace ReadOnce.Message

/-- The bytes end too early. -/
def DecodeError.IsShortage : DecodeError → Prop
  | textTooShort | tooShort => True
  | _ => False

/-- A reader fails on all that some bytes start with, except on all of them, because they end too
early. -/
def NeedsAll {α : Type} (read : Bytes → Except DecodeError α) (b : Bytes) : Prop :=
  ∀ start, start <+: b → start ≠ b → ∃ e, read start = .error e ∧ e.IsShortage

namespace NeedsAll

variable {α β : Type} {read : Bytes → Except DecodeError α} {b b' : Bytes}

/-- What is done with what was read does not matter. -/
theorem bind_left (h : NeedsAll read b) (next : α → Except DecodeError β) :
    NeedsAll (fun b => read b >>= next) b := by
  intro start hstart hne
  obtain ⟨e, he, hshort⟩ := h start hstart hne
  refine ⟨e, ?_, hshort⟩
  simp only [he]
  rfl

/-- A start of two pieces ends within the first one, or holds it whole and ends within the
second. -/
theorem bind {read : Bytes → Except DecodeError (α × Bytes)} {a : α} (h : NeedsAll read b)
    (hread : ∀ rest, read (b ++ rest) = .ok (a, rest))
    {next : α × Bytes → Except DecodeError β} (hnext : NeedsAll (fun rest => next (a, rest)) b') :
    NeedsAll (fun b => read b >>= next) (b ++ b') := by
  intro start hstart hne
  rcases List.prefix_or_prefix_of_prefix hstart (List.prefix_append b b') with hb | ⟨rest, rfl⟩
  · by_cases heq : start = b
    · subst heq
      have hread := hread []
      rw [List.append_nil] at hread
      have hne : [] ≠ b' := by
        rintro rfl
        exact hne (List.append_nil start).symm
      obtain ⟨e, he, hshort⟩ := hnext [] (List.nil_prefix ..) hne
      refine ⟨e, ?_, hshort⟩
      simp only [hread]
      exact he
    · exact h.bind_left next start hb heq
  · have hrest : rest <+: b' := (List.prefix_append_right_inj b).1 hstart
    obtain ⟨e, he, hshort⟩ := hnext rest hrest fun heq => hne (heq ▸ rfl)
    refine ⟨e, ?_, hshort⟩
    simp only [hread]
    exact he

end NeedsAll

theorem needsAll_takeBytes (short : DecodeError) (hshort : short.IsShortage) (b : Bytes) :
    NeedsAll (takeBytes short b.length) b := by
  intro start hstart hne
  have hlt : start.length < b.length := by
    have hle := hstart.length_le
    have hlen : start.length ≠ b.length := fun hlen => hne (hstart.eq_of_length hlen)
    omega
  exact ⟨short, if_neg (by omega), hshort⟩

theorem needsAll_decodeNat (width n : Nat) :
    NeedsAll (decodeNat width) (Bytes.ofNatLE width n) := by
  have h := needsAll_takeBytes .tooShort trivial (Bytes.ofNatLE width n)
  rw [Bytes.length_ofNatLE] at h
  exact h.bind_left _

theorem needsAll_decodeBytes {b : Bytes} (h : b.length < Nat.pow 256 8) :
    NeedsAll decodeBytes (encodeBytes b) :=
  (needsAll_decodeNat 8 b.length).bind (decodeNat_ofNatLE h) (needsAll_takeBytes .tooShort trivial b)

theorem needsAll_decodeText {s : String} (h : (Text.utf8 s).length < Nat.pow 256 8) :
    NeedsAll decodeText (encodeText s) :=
  (needsAll_decodeNat 8 _).bind (decodeNat_ofNatLE h)
    ((needsAll_takeBytes .textTooShort trivial _).bind_left _)

theorem needsAll_decodeInstant (t : Instant) : NeedsAll decodeInstant (encodeText t.stored) :=
  (needsAll_decodeText (length_stored_lt t)).bind_left _

theorem needsAll_decodeFlag (flag : UInt8) : NeedsAll decodeFlag [flag] := by
  intro start hstart hne
  rcases List.prefix_cons_iff.1 hstart with rfl | ⟨rest, rfl, hrest⟩
  · exact ⟨.tooShort, rfl, trivial⟩
  · rw [List.prefix_nil.1 hrest] at hne
    contradiction

theorem needsAll_decode {m : Message} (h : m.Fits) : NeedsAll decode m.encode := by
  have herrors : m.errors.toNat < Nat.pow 256 4 := m.errors.toNat_lt
  simp only [encode, List.append_assoc]
  refine (needsAll_decodeText h.key).bind (decodeText_encodeText h.key) ?_
  refine (needsAll_decodeInstant _).bind (decodeInstant_encodeText _) ?_
  refine (needsAll_decodeBytes h.data).bind (decodeBytes_encodeBytes h.data) ?_
  refine (needsAll_decodeText h.pinHash).bind (decodeText_encodeText h.pinHash) ?_
  refine (needsAll_decodeNat 4 _).bind (decodeNat_ofNatLE herrors) ?_
  exact (needsAll_decodeFlag _).bind_left _

/-- A message is read off its bytes whatever follows them, with its deadline as the calendar has it,
and off no shorter start of them; there the bytes are found to end too early. No other message has
bytes that its own start with, except that a leap second that the calendar does not have is told as
the second after it. -/
theorem decode_encode_exact {m : Message} (h : m.Fits) :
    (∀ rest, decode (m.encode ++ rest) = .ok m.onCalendar) ∧
      (m.onCalendar = m ↔ m.expiresAt.IsOnCalendar) ∧
      (∀ start, start <+: m.encode → start ≠ m.encode →
        ∃ e, decode start = .error e ∧ e.IsShortage) ∧
      ∀ n : Message, n.Fits → n.encode <+: m.encode → n.onCalendar = m.onCalendar := by
  refine ⟨decode_encode_append h, onCalendar_eq_self_iff, needsAll_decode h, ?_⟩
  rintro n hn ⟨rest, hrest⟩
  have hread := decode_encode_append hn rest
  have hself := decode_encode_append h []
  rw [hrest, ← List.append_nil m.encode, hself] at hread
  exact (Except.ok.inj hread).symm

/-- A message without any text, from within the last leap second that there is: it is read back, and
is not read any more once its flag is missing. -/
theorem decode_encode_last_leap :
    let t : Instant := ⟨8210266876799, 1999999999, by decide, by decide, by decide⟩
    let m : Message := ⟨⟨""⟩, t, [], "", 4294967295, true⟩
    m.Fits ∧ decode (m.encode ++ [1]) = .ok m ∧
      ∃ e, decode m.encode.dropLast = .error e ∧ e.IsShortage := by
  intro t m
  have hfits : m.Fits := ⟨by decide, by decide, by decide⟩
  obtain ⟨hread, hself, hshort, -⟩ := decode_encode_exact hfits
  have hcalendar : m.onCalendar = m := hself.2 (.inr (by decide))
  have hne : m.encode.dropLast ≠ m.encode := by
    intro heq
    have hlen := congrArg List.length heq
    simp [encode] at hlen
  exact ⟨hfits, hcalendar ▸ hread [1], hshort _ (List.dropLast_prefix _) hne⟩

/-- A leap second after second 30 of a minute is told as second 31, so that a message with this
deadline is read back as another one, which has the same bytes. -/
theorem not_decode_encode_off_calendar :
    let leap : Instant := ⟨30, 1500000000, by decide, by decide, by decide⟩
    let next : Instant := ⟨31, 500000000, by decide, by decide, by decide⟩
    let m : Message := ⟨⟨"k"⟩, leap, [0], "h", 0, false⟩
    let n : Message := { m with expiresAt := next }
    decode m.encode = .ok n ∧ m.encode = n.encode ∧ m ≠ n := by
  intro leap next m n
  have hfits : m.Fits := ⟨by decide, by decide, by decide⟩
  have hcalendar : m.onCalendar = n := by decide
  have hread := decode_encode_append hfits []
  have hsame := encode_onCalendar m
  rw [hcalendar] at hread hsame
  rw [List.append_nil] at hread
  exact ⟨hread, hsame.symm, by decide⟩

end ReadOnce.Message
