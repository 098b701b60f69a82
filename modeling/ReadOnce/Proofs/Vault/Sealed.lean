import ReadOnce.Proofs.Cipher.Secret
import ReadOnce.Proofs.Fallible
import ReadOnce.Proofs.Framing
import ReadOnce.Proofs.PinHash.Salted
import ReadOnce.Proofs.Vault.Intake

/-!
# What was sealed opens

A message opens with the pin that it was taken in with, to what was taken in: a text to its bytes, a
file to the marker, the header and its bytes, and what the caller encrypted to itself. A sealed text
starts with the nonce, so it is taken for a file only if the nonce starts with the marker.
-/

namespace ReadOnce

namespace Vault

variable {v : Vault} {fresh : Fresh} {data : Bytes} {pinHash : String}

theorem hashPin_eq_ok {salt : Bytes} {pin : String} (h : v.hashPin salt pin = .ok pinHash) :
    v.hasher.hash salt pin = .ok pinHash := by
  unfold hashPin at h
  split at h
  · rename_i heq
    rw [heq, Except.ok.inj h]
  · contradiction

theorem sealPayload_eq_ok {nonce plain : Bytes} {pin : String}
    (h : v.sealPayload nonce plain pin = .ok data) :
    v.cipher.encrypt nonce plain pin = .ok data := by
  unfold sealPayload at h
  split at h
  · rename_i heq
    rw [heq, Except.ok.inj h]
  · contradiction

/-- What is stored for a text that passes. -/
theorem prepareText_eq_ok {r : TextRequest} (h : v.prepareText r fresh = .ok (data, pinHash)) :
    v.hasher.hash fresh.salt r.pin = .ok pinHash ∧
      if r.clientEncrypted then data = r.payload
      else v.cipher.encrypt fresh.nonce r.payload r.pin = .ok data := by
  obtain ⟨-, -, h⟩ := bind_eq_ok_iff.1 h
  obtain ⟨hash, hhash, h⟩ := bind_eq_ok_iff.1 h
  have hstored : (if r.clientEncrypted then .ok r.payload
      else v.sealPayload fresh.nonce r.payload r.pin) = .ok data ∧ hash = pinHash := by
    split at h
    all_goals
      obtain ⟨stored, hstored, h⟩ := bind_eq_ok_iff.1 h
      obtain ⟨rfl, rfl⟩ : stored = data ∧ hash = pinHash := by simpa using h
      simp_all only [if_true, if_false, Bool.false_eq_true, and_self]
  obtain ⟨hstored, rfl⟩ := hstored
  refine ⟨hashPin_eq_ok hhash, ?_⟩
  split at hstored
  · rename_i hflag
    rw [if_pos hflag, Except.ok.inj hstored]
  · rename_i hflag
    rw [if_neg hflag]
    exact sealPayload_eq_ok hstored

/-- What is stored for a file that passes. -/
theorem prepareFile_eq_ok {r : FileRequest} (h : v.prepareFile r fresh = .ok (data, pinHash)) :
    v.checkFile r = .ok () ∧ v.hasher.hash fresh.salt r.pin = .ok pinHash ∧
      ∃ sealed, data = Framing.marker ++ sealed ∧
        v.cipher.encrypt fresh.nonce
          (Framing.encodeHeader r.name r.contentType ++ r.data) r.pin = .ok sealed := by
  obtain ⟨-, -, h⟩ := bind_eq_ok_iff.1 h
  obtain ⟨_, hcheck, h⟩ := bind_eq_ok_iff.1 h
  obtain ⟨hash, hhash, h⟩ := bind_eq_ok_iff.1 h
  obtain ⟨sealed, hsealed, h⟩ := bind_eq_ok_iff.1 h
  obtain ⟨rfl, rfl⟩ : Framing.marker ++ sealed = data ∧ hash = pinHash := by simpa using h
  exact ⟨hcheck, hashPin_eq_ok hhash, sealed, rfl, sealPayload_eq_ok hsealed⟩

end Vault

namespace Intake

/-- The bytes that a message opens to. -/
def content : Intake → Bytes
  | text r => r.payload
  | file r => Framing.marker ++ (Framing.encodeHeader r.name r.contentType ++ r.data)

/-- Whether a file is taken in. -/
def isFile : Intake → Bool
  | text _ => false
  | file _ => true

variable {v : Vault} {fresh : Fresh} {i : Intake}

theorem hash_of_prepared {data : Bytes} {pinHash : String}
    (h : i.prepared v fresh = .ok (data, pinHash)) :
    v.hasher.hash fresh.salt i.pin = .ok pinHash := by
  cases i with
  | text r => exact (Vault.prepareText_eq_ok h).1
  | file r => exact (Vault.prepareFile_eq_ok h).2.1

namespace Saved

open XChaCha20Poly1305

variable {t : Instant} {m : Message} {before after : Store} {k : SecretCipher}

theorem hash (h : i.Saved v fresh t m before after) :
    v.hasher.hash fresh.salt i.pin = .ok m.pinHash :=
  hash_of_prepared h.prepared

/-- The payload of a message is the caller's, or it is sealed, after the marker if it is a file. -/
theorem data_cases (h : i.Saved v fresh t m before after) (hcipher : v.cipher = .secret k) :
    (m.clientEncrypted = true ∧ i.isFile = false ∧ m.data = i.content) ∨
      m.clientEncrypted = false ∧ ∃ plain sealed, k.encrypt fresh.nonce plain i.pin = .ok sealed ∧
        ((i.isFile = false ∧ m.data = sealed ∧ i.content = plain) ∨
          (i.isFile = true ∧ m.data = Framing.marker ++ sealed ∧
            i.content = Framing.marker ++ plain)) := by
  have hencrypt {data sealed : Bytes} {pin : String}
      (hsealed : v.cipher.encrypt fresh.nonce data pin = .ok sealed) :
      k.encrypt fresh.nonce data pin = .ok sealed := by
    rw [hcipher] at hsealed
    exact mapError_eq_ok_iff.1 hsealed
  have hflag := h.clientEncrypted
  cases i with
  | text r =>
      have hdata := (Vault.prepareText_eq_ok h.prepared).2
      have hflag : m.clientEncrypted = r.clientEncrypted := hflag
      cases hclient : r.clientEncrypted with
      | true =>
          rw [if_pos hclient] at hdata
          exact .inl ⟨hflag.trans hclient, rfl, hdata⟩
      | false =>
          rw [if_neg (by simp [hclient])] at hdata
          exact .inr ⟨hflag.trans hclient, r.payload, m.data, hencrypt hdata, .inl ⟨rfl, rfl, rfl⟩⟩
  | file r =>
      obtain ⟨-, -, sealed, hdata, hsealed⟩ := Vault.prepareFile_eq_ok h.prepared
      exact .inr ⟨hflag, _, sealed, hencrypt hsealed, .inr ⟨rfl, hdata, rfl⟩⟩

/-- A message shows that it holds a file, and only then. -/
theorem isFile_data (h : i.Saved v fresh t m before after) (hcipher : v.cipher = .secret k)
    (hnonce : fresh.nonce.length = nonceSize)
    (hmarker : i.isFile = false → i.clientEncrypted = false →
      Framing.marker.isPrefixOf fresh.nonce = false) :
    (!m.clientEncrypted && Framing.isFile m.data) = i.isFile := by
  rcases h.data_cases hcipher with ⟨hflag, hfile, -⟩ | ⟨hflag, plain, sealed, hsealed, hform⟩
  · simp [hflag, hfile]
  · obtain ⟨key, -, hparts⟩ := SecretCipher.encrypt_eq_ok hsealed
    rcases hform with ⟨hfile, hdata, -⟩ | ⟨hfile, hdata, -⟩
    · rw [hflag, hfile, hdata, hparts,
        Framing.isFile_append_of_nonce (by rw [hnonce]; decide)
          (hmarker hfile (h.clientEncrypted.symm.trans hflag))]
      rfl
    · have hne : sealed ≠ [] := by
        rw [← List.length_pos_iff, SecretCipher.length_encrypt hsealed, hnonce]
        exact Nat.add_pos_left (by decide) _
      rw [hflag, hfile, hdata, Framing.isFile_marker_append hne]
      rfl

/-- A message opens with its own pin to what was taken in, whatever was counted since. -/
theorem openPayload (h : i.Saved v fresh t m before after) (hcipher : v.cipher = .secret k)
    (hnonce : fresh.nonce.length = nonceSize)
    (hmarker : i.isFile = false → i.clientEncrypted = false →
      Framing.marker.isPrefixOf fresh.nonce = false) {n : Message}
    (hdata : n.data = m.data) (hflag : n.clientEncrypted = m.clientEncrypted) :
    v.openPayload n i.pin = .ok { n with data := i.content } := by
  have hfile := h.isFile_data hcipher hnonce hmarker
  rw [← hflag, ← hdata] at hfile
  rcases h.data_cases hcipher with ⟨hclient, -, hcontent⟩ | ⟨hclient, plain, sealed, hsealed, hform⟩
  · rw [Vault.openPayload, if_pos (hflag.trans hclient), ← hcontent, ← hdata]
  · have hopen : v.cipher.decrypt sealed i.pin = .ok plain := by
      rw [hcipher]
      exact mapError_eq_ok_iff.2 (SecretCipher.decrypt_of_encrypt hnonce hsealed)
    rw [hflag, hclient, Bool.not_false, Bool.true_and] at hfile
    rw [Vault.openPayload, if_neg (by simp [hflag, hclient]), hfile]
    rcases hform with ⟨hform, hsealed, hcontent⟩ | ⟨hform, hsealed, hcontent⟩
    · simp only [hform, Bool.false_eq_true, if_false, hdata, hsealed, hopen, hcontent]
    · simp only [hform, if_true, hdata, hsealed, List.drop_left, hopen, hcontent]

end Saved

end Intake

/-- The sign key of a secret, for pins of four bytes. -/
def SecretCipher.trial : SecretCipher :=
  ⟨Text.utf8 "secretsecretsecretsecretsecr"⟩

/-- A vault of this sign key. -/
def Vault.trial : Vault where
  limits := Limits.default.normalized
  cipher := .secret .trial
  hasher := .argon2 .default

/-- What data is sealed to. -/
def Fresh.sealedTrial (data : Bytes) : Bytes :=
  Fresh.trial.nonce ++ XChaCha20Poly1305.encrypt
    (SecretCipher.trial.signKey ++ Text.utf8 "1234") Fresh.trial.nonce data

@[simp] theorem Fresh.length_sealedTrial (data : Bytes) :
    (sealedTrial data).length = 24 + (data.length + 16) := by
  have hnonce : Fresh.trial.nonce.length = 24 := by decide
  simp only [sealedTrial, XChaCha20Poly1305.encrypt, List.length_append, hnonce,
    XChaCha20Poly1305.length_mask, XChaCha20Poly1305.length_tag, XChaCha20Poly1305.tagSize]

/-- The hash of the pin. -/
def Fresh.pinHashTrial : String :=
  PinHash.make Argon2.hash .default Fresh.trial.salt "1234"

theorem Fresh.length_pinHashTrial_le : (Text.utf8 pinHashTrial).length ≤ 1000 :=
  PinHash.length_write_le rfl (Argon2.length_hash ..)

end ReadOnce
