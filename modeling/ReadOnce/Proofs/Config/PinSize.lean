import ReadOnce.Proofs.Config.Validated
import ReadOnce.Proofs.Vault.Admission
import ReadOnce.Proofs.Vault.Restored

/-!
# Pins complete the key

A configuration leaves as many bytes of the key to the pin as it says pins have, and fills the
others with the bytes of its secret, over and over. A pin of this length makes the key whole. With
any other pin nothing is sealed, and a text or a file that is to be sealed is refused before the
store is asked. The length is that of the UTF-8 bytes; how many characters they make does not
matter. What the caller encrypted needs no key, so its pin may have any length but zero, up to the
2³² - 1 bytes that `PinHasher.argon2` is for.

Nothing of the key is kept. Vaults of configurations with one secret and one length of pins have the
same cipher, and stored hashes carry their own settings, so each of them opens what another has
taken in, however they differ otherwise.
-/

namespace ReadOnce

section SignKey

variable {secret : String} {pinSize : Nat} {key : Bytes}

end SignKey

namespace Vault

variable {v : Vault} {k : SecretCipher}

/-- What one vault takes in, another one opens with the same pin. -/
structure Opens (v' v : Vault) : Prop where
  /-- What was sealed is decrypted, and so a file is after the marker. -/
  decrypts : ∀ (i : Intake) (fresh : Fresh) (t : Instant) (m : Message) (before after : Store),
    (i.program v fresh).run Store.answer t before = (.ok m, after) →
    i.clientEncrypted = false → fresh.nonce.length = 24 →
    let front := if i.isFile then Framing.marker else []
    ∃ plain sealed, i.content = front ++ plain ∧ m.data = front ++ sealed ∧
      v'.cipher.decrypt sealed i.pin = .ok plain
  /-- A message that is found in time is handed over, if a sealed text does not look like a file. -/
  hands_over : ∀ (i : Intake) (fresh : Fresh) (t : Instant) (m : Message) (before after : Store),
    (i.program v fresh).run Store.answer t before = (.ok m, after) → fresh.salt.length = 16 →
    (i.clientEncrypted = false → fresh.nonce.length = 24 ∧
      (i.isFile = false → Framing.marker.isPrefixOf fresh.nonce = false)) →
    ∀ (later : Store) (now expiresAt : Instant) (errors : UInt32),
      let n : Message := { m with expiresAt, errors }
      (later.answer (.load m.key)).1 = .ok n → n.isExpired now = false →
      ((v'.load m.key i.pin).run Store.answer now later).1 = .ok { n with data := i.content }

end Vault

namespace Intake

variable {v : Vault} {fresh : Fresh} {now : Instant} {store : Store} {i : Intake}

end Intake

namespace Config

variable {c c' : Config} {v v' : Vault} {key key' : Bytes}

namespace Makes

theorem cipher_eq (h : c.Makes key v) : v.cipher = .secret ⟨key⟩ := by
  rw [h.eq]

/-- Vaults of one secret and one length of pins open what each other take in. -/
theorem opens (h : c.Makes key v) (h' : c'.Makes key v') : v'.Opens v where
  decrypts i fresh t m before after hrun hserver hnonce := by
    have hsaved := Intake.saved_of_run hrun
    rcases hsaved.data_cases h.cipher_eq with ⟨hclient, -, -⟩ | ⟨-, plain, sealed, hsealed, hform⟩
    · rw [hsaved.clientEncrypted, hserver] at hclient
      contradiction
    · have hopen : v'.cipher.decrypt sealed i.pin = .ok plain := by
        rw [h'.cipher_eq]
        exact mapError_eq_ok_iff.2 (SecretCipher.decrypt_of_encrypt hnonce hsealed)
      refine ⟨plain, sealed, ?_⟩
      rcases hform with ⟨hfile, hdata, hcontent⟩ | ⟨hfile, hdata, hcontent⟩
      all_goals
        rw [hfile]
        exact ⟨hcontent, hdata, hopen⟩
  hands_over i fresh t m before after hrun hsalt hnonce later now expiresAt errors := by
    intro n hload hnow
    have hsaved := Intake.saved_of_run hrun
    -- the hash is checked by the cost that it carries, so it is the same to both hashers
    have hverify : v'.hasher.verify n.pinHash i.pin = true := by
      have hhash := hsaved.hash
      rw [h.eq] at hhash
      rw [h'.eq]
      exact PinHasher.argon2_recognizes h.cost hsalt _ _ hhash
    have hsealed (hserver : i.clientEncrypted = false) : i.IsSealedBy v fresh :=
      ⟨⟨_, h.cipher_eq⟩, (hnonce hserver).1, (hnonce hserver).2⟩
    have hcipher : v'.cipher = v.cipher := h'.cipher_eq.trans h.cipher_eq.symm
    rw [Vault.run_load_of_loaded hload hnow hverify]
    exact hsaved.openPayload_with hsealed (.inr hcipher) rfl rfl

end Makes

end Config

end ReadOnce
