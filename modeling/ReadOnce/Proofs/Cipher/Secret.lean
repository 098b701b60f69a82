import ReadOnce.Cipher.Secret

/-!
# What opens is what was sealed

A sealed value is the nonce, the hidden text and the tag, so the text and the nonce that it was made
of can be told from it, and no other byte string opens. Whether sign key and pin make a key is found
out before anything else is looked at, when sealing as when opening.

`opens_exactly_sealed` puts this together. Sealing is deterministic here, since the nonce is given;
texts that are longer than the stream of a key and nonce are not considered.
-/

namespace ReadOnce.SecretCipher

open XChaCha20Poly1305

variable {k : SecretCipher} {nonce nonce' data data' sealed : Bytes} {pin : String}

/-- The bytes that sign key and pin have together. -/
def keyLength (k : SecretCipher) (pin : String) : Nat :=
  k.signKey.length + (Text.utf8 pin).length

theorem key_eq (k : SecretCipher) (pin : String) :
    k.key pin =
      if k.keyLength pin = keySize then .ok (k.signKey ++ Text.utf8 pin)
      else .error (.keyLength (k.keyLength pin)) := by
  rw [key, List.length_append]
  rfl

theorem encrypt_eq_ok (h : k.encrypt nonce data pin = .ok sealed) :
    ∃ key, k.key pin = .ok key ∧ sealed = nonce ++ XChaCha20Poly1305.encrypt key nonce data := by
  unfold encrypt at h
  split at h
  · contradiction
  · rename_i key hkey
    exact ⟨key, hkey, (Except.ok.inj h).symm⟩

/-- A sealed value is longer than its nonce. -/
theorem length_encrypt (h : k.encrypt nonce data pin = .ok sealed) :
    sealed.length = nonce.length + (data.length + tagSize) := by
  obtain ⟨key, -, rfl⟩ := encrypt_eq_ok h
  simp [XChaCha20Poly1305.encrypt]

theorem decrypt_of_encrypt (hnonce : nonce.length = nonceSize)
    (h : k.encrypt nonce data pin = .ok sealed) : k.decrypt sealed pin = .ok data := by
  have hlength := length_encrypt h
  obtain ⟨key, hkey, rfl⟩ := encrypt_eq_ok h
  simp only [decrypt, hkey]
  rw [if_neg (by omega), List.take_left' hnonce, List.drop_left' hnonce, decrypt?_encrypt]

/-- What opens is sealed again to the same bytes under the nonce that it starts with. -/
theorem encrypt_of_decrypt (h : k.decrypt sealed pin = .ok data) :
    k.encrypt (sealed.take nonceSize) data pin = .ok sealed := by
  unfold decrypt at h
  split at h
  · contradiction
  · rename_i key hkey
    split at h
    · contradiction
    · split at h
      · rename_i hopen
        cases h
        simp only [encrypt, hkey]
        rw [← encrypt_of_decrypt? hopen, List.take_append_drop]
      · contradiction

/-- The nonce that a sealed value was made with is whole: the tag alone could not be a nonce. -/
theorem length_take_of_encrypt (h : k.encrypt (sealed.take nonceSize) data pin = .ok sealed) :
    (sealed.take nonceSize).length = nonceSize := by
  have hlength := length_encrypt h
  rw [List.length_take] at hlength ⊢
  have htag : tagSize = 16 := rfl
  omega

/-- What was sealed is told from the sealed value, and so is the nonce. -/
theorem encrypt_inj (hnonce : nonce.length = nonceSize) (hnonce' : nonce'.length = nonceSize)
    (h : k.encrypt nonce data pin = .ok sealed) (h' : k.encrypt nonce' data' pin = .ok sealed) :
    nonce = nonce' ∧ data = data' := by
  have hdata := (decrypt_of_encrypt hnonce h).symm.trans (decrypt_of_encrypt hnonce' h')
  obtain ⟨_, -, heq⟩ := encrypt_eq_ok h
  obtain ⟨_, -, heq'⟩ := encrypt_eq_ok h'
  exact ⟨List.append_inj_left (heq.symm.trans heq') (hnonce.trans hnonce'.symm), Except.ok.inj hdata⟩

theorem exists_encrypt_eq_ok (h : k.keyLength pin = keySize) (nonce data : Bytes) :
    ∃ sealed, k.encrypt nonce data pin = .ok sealed := by
  rw [encrypt, key_eq, if_pos h]
  exact ⟨_, rfl⟩

theorem keyLength_of_encrypt (h : k.encrypt nonce data pin = .ok sealed) :
    k.keyLength pin = keySize := by
  obtain ⟨key, hkey, -⟩ := encrypt_eq_ok h
  rw [key_eq] at hkey
  split at hkey
  · assumption
  · contradiction

/-- Sealing fails for no other reason than the length of the key. -/
theorem encrypt_eq_error_iff {e : CipherError} :
    k.encrypt nonce data pin = .error e ↔
      k.keyLength pin ≠ keySize ∧ e = .keyLength (k.keyLength pin) := by
  rw [encrypt, key_eq]
  by_cases h : k.keyLength pin = keySize
  · simp [h]
  · simp [h, eq_comm]

/-- The length of the key is complained about first, whatever is to be opened. -/
theorem decrypt_eq_keyLength_iff {n : Nat} :
    k.decrypt sealed pin = .error (.keyLength n) ↔
      k.keyLength pin ≠ keySize ∧ n = k.keyLength pin := by
  rw [decrypt, key_eq]
  by_cases h : k.keyLength pin = keySize
  · simp only [if_pos h]
    refine iff_of_false ?_ fun hne => hne.1 h
    split
    · simp
    · split <;> simp
  · simp [h, eq_comm]

/-- Under a key of the right length opening fails in one way only. -/
theorem decrypt_eq_decryptionFailed (hkey : k.keyLength pin = keySize)
    (h : ∀ data, k.decrypt sealed pin ≠ .ok data) :
    k.decrypt sealed pin = .error .decryptionFailed := by
  cases hopen : k.decrypt sealed pin with
  | ok data => exact absurd hopen (h data)
  | error e =>
      cases e with
      | keyLength n => exact absurd hkey (decrypt_eq_keyLength_iff.1 hopen).1
      | decryptionFailed => rfl

/-- Opening accepts exactly what sealing makes with the nonce that a value starts with. -/
theorem decrypt_eq_ok_iff :
    k.decrypt sealed pin = .ok data ↔
      k.keyLength pin = keySize ∧ k.encrypt (sealed.take nonceSize) data pin = .ok sealed := by
  constructor
  · intro h
    have hencrypt := encrypt_of_decrypt h
    exact ⟨keyLength_of_encrypt hencrypt, hencrypt⟩
  · rintro ⟨-, hencrypt⟩
    exact decrypt_of_encrypt (length_take_of_encrypt hencrypt) hencrypt

theorem length_of_decrypt (h : k.decrypt sealed pin = .ok data) :
    sealed.length = 24 + data.length + 16 := by
  have hencrypt := encrypt_of_decrypt h
  rw [length_encrypt hencrypt, length_take_of_encrypt hencrypt, Nat.add_assoc]
  rfl

/-- Opening accepts exactly what sealing makes with the nonce that a value starts with. Everything
that is sealed opens to what it was, which can be told from it, and nothing that is too short for a
nonce and a tag opens. Sign keys and pins that do not make a key are refused alike by sealing and
opening, whatever else is given. -/
theorem opens_exactly_sealed (k : SecretCipher) (pin : String) :
    let keyLength := k.signKey.length + (Text.utf8 pin).length
    (∀ sealed data, (k.decrypt sealed pin = .ok data ↔
        keyLength = 32 ∧ k.encrypt (sealed.take 24) data pin = .ok sealed) ∧
      (k.decrypt sealed pin = .ok data → sealed.length = 24 + data.length + 16)) ∧
    (keyLength = 32 → ∀ nonce data, nonce.length = 24 →
      ∃ sealed, k.encrypt nonce data pin = .ok sealed ∧ k.decrypt sealed pin = .ok data ∧
        ∀ nonce' data', nonce'.length = 24 → k.encrypt nonce' data' pin = .ok sealed →
          nonce' = nonce ∧ data' = data) ∧
    (keyLength = 32 → ∀ sealed, sealed.length < 40 →
      k.decrypt sealed pin = .error .decryptionFailed) ∧
    (∀ nonce data e, k.encrypt nonce data pin = .error e ↔
      keyLength ≠ 32 ∧ e = .keyLength keyLength) ∧
    (∀ sealed n, k.decrypt sealed pin = .error (.keyLength n) ↔
      keyLength ≠ 32 ∧ n = keyLength) := by
  refine ⟨fun _ _ => ⟨decrypt_eq_ok_iff, length_of_decrypt⟩, ?_, ?_,
    fun _ _ _ => encrypt_eq_error_iff, fun _ _ => decrypt_eq_keyLength_iff⟩
  · intro hkey nonce data hnonce
    obtain ⟨sealed, h⟩ := exists_encrypt_eq_ok hkey nonce data
    exact ⟨sealed, h, decrypt_of_encrypt hnonce h,
      fun _ _ hnonce' h' => encrypt_inj hnonce' hnonce h' h⟩
  · intro hkey sealed hshort
    refine decrypt_eq_decryptionFailed hkey ?_
    intro data h
    have hlength := length_of_decrypt h
    omega

/-- What two bytes are sealed to opens. Cut to fewer bytes than a nonce and a tag have it does not,
and a pin of five characters, but six bytes, is refused before that is looked at. -/
theorem opens_exactly_sealed_of_two_bytes :
    let k : SecretCipher := ⟨Text.utf8 "stew-pub-barcan-scatty-daim"⟩
    let nonce := (List.range 24).map fun i => UInt8.ofNat (14 + 13 * i)
    let sealed := nonce ++ [0xe5, 0xb9, 0x5c, 0x64, 0xb7, 0xb5, 0xb2, 0x6f, 0x23, 0x9c, 0x64, 0xc0,
      0xa0, 0x87, 0x44, 0x8e, 0x29, 0xb8]
    k.encrypt nonce [0x3e, 0x4f] "12345" = .ok sealed ∧
      k.decrypt sealed "12345" = .ok [0x3e, 0x4f] ∧
      k.decrypt (sealed.take 39) "12345" = .error .decryptionFailed ∧
      k.decrypt [] "1234é" = .error (.keyLength 33) := by
  intro k nonce sealed
  have hkey : k.key "12345" = .ok (k.signKey ++ Text.utf8 "12345") := by rw [key_eq]; rfl
  have hbytes : nonce ++ XChaCha20Poly1305.encrypt (k.signKey ++ Text.utf8 "12345") nonce
      [0x3e, 0x4f] = sealed := by decide +kernel
  have hencrypt : k.encrypt nonce [0x3e, 0x4f] "12345" = .ok sealed := by
    simp only [encrypt, hkey, hbytes]
  obtain ⟨-, hround, hshort, -, -⟩ := opens_exactly_sealed k "12345"
  obtain ⟨-, -, -, -, hrefuse⟩ := opens_exactly_sealed k "1234é"
  obtain ⟨sealed', hencrypt', hopen, -⟩ := hround (by decide) nonce [0x3e, 0x4f] (by decide)
  obtain rfl := Except.ok.inj (hencrypt.symm.trans hencrypt')
  exact ⟨hencrypt, hopen, hshort (by decide) _ (by decide), (hrefuse _ _).2 (by decide)⟩

end ReadOnce.SecretCipher
