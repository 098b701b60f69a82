import ReadOnce.Text.Utf8

/-!
# The bytes of single characters

The bytes of a text are those of its characters in turn, so facts about bytes are proved for one
character and carried over.
-/

namespace ReadOnce.Text

theorem utf8_ofList (cs : List Char) :
    utf8 (String.ofList cs) = cs.flatMap String.utf8EncodeChar := by
  simp [utf8, List.utf8Encode]

theorem utf8_eq_flatMap (s : String) : utf8 s = s.toList.flatMap String.utf8EncodeChar := by
  rw [← utf8_ofList, String.ofList_toList]

theorem length_utf8_ofList_le (cs : List Char) :
    (utf8 (String.ofList cs)).length ≤ 4 * cs.length := by
  rw [utf8_ofList]
  induction cs with
  | nil => simp
  | cons c cs ih =>
      have hc := c.utf8Size_le_four
      simp only [List.flatMap_cons, List.length_append, String.length_utf8EncodeChar,
        List.length_cons]
      omega

theorem length_utf8 (s : String) : (utf8 s).length = s.utf8ByteSize :=
  rfl

theorem length_utf8_replicate (n : Nat) :
    (utf8 (String.ofList (List.replicate n 'a'))).length = n := by
  have hsize : 'a'.utf8Size = 1 := rfl
  rw [utf8_ofList]
  induction n with
  | zero => rfl
  | succ n ih => simp [List.replicate_succ, ih, hsize, Nat.add_comm]

/-- A text is read from its own bytes and from no others. -/
theorem ofUtf8?_eq_some_iff {b : Bytes} {s : String} : ofUtf8? b = some s ↔ b = utf8 s := by
  constructor
  · intro h
    unfold ofUtf8? String.fromUTF8? at h
    split at h
    · cases h
      simp [utf8, String.fromUTF8]
    · contradiction
  · rintro rfl
    exact ofUtf8?_utf8 s

/-- Only a newline has the byte of a newline in its UTF-8. -/
theorem eq_newline_of_mem {c : Char} (h : 10 ∈ String.utf8EncodeChar c) : c = '\n' := by
  have hten : (10 : UInt8).toNat = 10 := rfl
  have hval : c.val.toNat = 10 := by
    simp only [String.utf8EncodeChar] at h
    split at h
    · simp only [List.mem_singleton, ← UInt8.toNat_inj, UInt8.toNat_ofNat', hten] at h
      omega
    · split at h <;> try split at h
      all_goals
        simp only [List.mem_cons, List.not_mem_nil, or_false, ← UInt8.toNat_inj,
          UInt8.toNat_ofNat', hten, Nat.reducePow] at h
        omega
  exact Char.ext (UInt32.toNat_inj.1 hval)

theorem newline_not_mem_utf8 {s : String} (h : '\n' ∉ s.toList) : 10 ∉ utf8 s := by
  rw [utf8_eq_flatMap, List.mem_flatMap]
  rintro ⟨c, hc, hmem⟩
  exact h (eq_newline_of_mem hmem ▸ hc)

end ReadOnce.Text
