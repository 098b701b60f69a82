import ReadOnce.Proofs.Config.Validated
import ReadOnce.Proofs.PinHash.Salted
import ReadOnce.Proofs.Vault.Call
import ReadOnce.Proofs.Vault.Load
import ReadOnce.Proofs.Vault.Sealed

/-!
# What a message reveals

The vault of a configuration opens a message with the pin that it was taken in with, and then has to
tell again what it holds, from nothing but the bytes. A text that looks like a file is taken for
one, and a file whose header is read otherwise than it was written comes out under another name or
not at all. Both are found out only after the message has been dropped. `reveal_text_iff` and
`reveal_file_iff` say for which messages the secret comes out as it was taken in.
-/

namespace ReadOnce

/-- What a configuration makes of its cipher, its hasher and its limits. -/
theorem Config.vault_eq_ok {c : Config} {v : Vault} (h : c.vault = .ok v) :
    c.hasher.check = .ok () ∧ ∃ k, v = ⟨c.limits.limits, .secret k, .argon2 c.hasher⟩ := by
  obtain ⟨key, hmakes⟩ := makes_of_vault h
  exact ⟨hmakes.cost, ⟨key⟩, hmakes.eq⟩

theorem Config.vault_trial : Config.trial.vault = .ok .trial := rfl

namespace Intake.Saved

variable {v : Vault} {fresh : Fresh} {i : Intake} {t now : Instant} {m : Message}
variable {before after : Store} {k : SecretCipher}

/-- A message is revealed with its pin, before its deadline, to the secret that its bytes tell, and
is gone. -/
theorem run_reveal (h : i.Saved v fresh t m before after) (hcipher : v.cipher = .secret k)
    (hhasher : v.hasher.Recognizes fresh.salt)
    (hnonce : fresh.nonce.length = XChaCha20Poly1305.nonceSize)
    (hmarker : i.isFile = false → i.clientEncrypted = false →
      Framing.marker.isPrefixOf fresh.nonce = false)
    (hfits : m.Fits) (hnow : m.isExpired now = false) :
    ∃ c : Contents, (v.reveal m.key i.pin).run Store.answer now after =
        ((Vault.secretOf { m with data := i.content }).map fun secret => ⟨m.key, secret⟩,
          ⟨c, false⟩) ∧ (c.answer (.load m.key)).1 = .error .loadRejected := by
  obtain ⟨u, hle, -, hkeeps⟩ := h.keeps_after hfits
  have hexpired := Message.isExpired_eq_false_of_le hle hnow
  have hverify : v.hasher.verify m.pinHash i.pin = true := hhasher _ _ h.hash
  have hload : (v.load m.key i.pin).run Store.answer now ⟨after.contents, false⟩ =
      (.ok { m with expiresAt := u, data := i.content },
        ⟨(after.contents.answer (.remove m.key)).2, false⟩) := by
    rw [Vault.run_load_of_keeps h.serves_after hkeeps, hexpired, if_neg Bool.false_ne_true,
      if_pos hverify, h.openPayload (n := { m with expiresAt := u }) hcipher hnonce hmarker rfl rfl]
  have hreveal : v.reveal m.key i.pin = (v.load m.key i.pin).map Vault.revealedOf := rfl
  refine ⟨(after.contents.answer (.remove m.key)).2, ?_, ?_⟩
  · rw [hreveal, Program.run_map, h.eq_after]
    exact congrArg (fun r => (Vault.revealedOf r.1, r.2)) hload
  · exact Contents.answer_load_of_missing (h.serves_after.answer _).load
      (Contents.answer_remove h.serves_after).2

end Intake.Saved

namespace Vault

theorem checkFile_eq_ok {v : Vault} {r : FileRequest} (h : v.checkFile r = .ok ()) :
    Framing.isValidName r.name = true ∧ Framing.isValidContentType r.contentType = true := by
  obtain ⟨hname, h⟩ := ite_error_eq_ok_iff.1 h
  obtain ⟨htype, -⟩ := ite_error_eq_ok_iff.1 h
  exact ⟨by simpa using hname, by simpa using htype⟩

theorem revealed_eq_ok_iff {x : Except VaultError Secret} {key : Key} {secret : Secret} :
    (x.map fun secret => (⟨key, secret⟩ : Revealed)) = .ok ⟨key, secret⟩ ↔ x = .ok secret := by
  cases x <;> simp [Except.map]

theorem secretOf_of_isFile {m : Message} {data : Bytes} (hserver : m.clientEncrypted = false)
    (hfile : Framing.isFile data = true) :
    secretOf { m with data } = match Framing.parse? data with
      | some h => .ok (.file h.name h.contentType (data.drop h.dataOffset))
      | none => .error (.internal "malformed file header") := by
  cases hparse : Framing.parse? data <;> simp [secretOf, hserver, hfile, hparse]

/-- The secret of framed data is the file that was framed, if its header reads as it was written. -/
theorem secretOf_framed {name contentType : String} (hname : Framing.isValidName name = true)
    (htype : Framing.isValidContentType contentType = true) (data : Bytes) {m : Message}
    (hserver : m.clientEncrypted = false) :
    let secret := secretOf
      { m with data := Framing.marker ++ (Framing.encodeHeader name contentType ++ data) }
    let lineLength := (Text.utf8 name).length + (Text.utf8 contentType).length + 4
    (secret = .ok (.file name contentType data) ↔
        Framing.runsOn name = false ∧ Framing.runsOn contentType = false ∧
          lineLength < Framing.window) ∧
      (Framing.window ≤ lineLength → secret = .error (.internal "malformed file header")) := by
  obtain ⟨name', contentType', hsame, hparse⟩ := Framing.parse?_framed hname htype
  have hfile := Framing.isFile_marker_append (b := Framing.encodeHeader name contentType ++ data)
    (by simp [Framing.utf8_encodeHeader])
  rw [secretOf_of_isFile hserver hfile, hparse]
  by_cases hshort : (Text.utf8 name).length + (Text.utf8 contentType).length + 4 < Framing.window
  · simp only [if_pos hshort]
    rw [← List.append_assoc, List.drop_left]
    refine ⟨?_, fun hlong => absurd hshort (Nat.not_lt.2 hlong)⟩
    simpa [hshort] using hsame
  · simp only [if_neg hshort]
    simp [hshort]

/-- A text is revealed as it was taken in, exactly if it does not look like a file. One that does
is revealed as the file that it looks like, or not at all if its header does not read; and it is
gone in any case. -/
theorem reveal_text_iff {c : Config} {v : Vault} {fresh : Fresh} {r : TextRequest} {t now : Instant}
    {m : Message} {before after : Store} (hv : c.vault = .ok v)
    (hsalt : fresh.salt.length = PinHash.saltSize)
    (hnonce : fresh.nonce.length = XChaCha20Poly1305.nonceSize)
    (hmarker : Framing.marker.isPrefixOf fresh.nonce = false) (hserver : r.clientEncrypted = false)
    (hsaved : (v.create r fresh).run Store.answer t before = (.ok m, after)) (hfits : m.Fits)
    (hnow : m.isExpired now = false) :
    let revealed := (v.reveal m.key r.pin).run Store.answer now after
    (revealed.1 = .ok ⟨m.key, .text r.payload⟩ ↔ Framing.isFile r.payload = false) ∧
      (Framing.isFile r.payload = true → revealed.1 =
        match Framing.parse? r.payload with
        | some h => .ok ⟨m.key, .file h.name h.contentType (r.payload.drop h.dataOffset)⟩
        | none => .error (.internal "malformed file header")) ∧
      (revealed.2.answer (.load m.key)).1 = .error .loadRejected := by
  obtain ⟨hcost, k, rfl⟩ := c.vault_eq_ok hv
  have hsaved := Intake.saved_of_run (i := .text r) hsaved
  have hflag : m.clientEncrypted = false := hsaved.clientEncrypted.trans hserver
  obtain ⟨c', hrun, hgone⟩ := hsaved.run_reveal rfl (PinHasher.argon2_recognizes hcost hsalt) hnonce
    (fun _ _ => hmarker) hfits hnow
  intro revealed
  have hrevealed : revealed = ((secretOf { m with data := r.payload }).map fun secret =>
      ⟨m.key, secret⟩, ⟨c', false⟩) := hrun
  rw [hrevealed, revealed_eq_ok_iff]
  refine ⟨?_, ?_, hgone⟩
  · cases hfile : Framing.isFile r.payload with
    | false => simp [secretOf, hflag, hfile]
    | true =>
        rw [secretOf_of_isFile hflag hfile]
        split <;> simp
  · intro hfile
    rw [secretOf_of_isFile hflag hfile]
    split <;> rfl

/-- A text of two letters is revealed, and a text that starts with the marker is lost. -/
theorem reveal_trial_texts :
    let m (payload : Bytes) : Message := .trial (Fresh.sealedTrial payload) Fresh.pinHashTrial
    let marked := Text.utf8 "!!FILE!!x"
    ((Vault.trial.reveal ⟨"k"⟩ "1234").run Store.answer .epoch (.trial (m [104, 105]))).1 =
        .ok ⟨⟨"k"⟩, .text [104, 105]⟩ ∧
      ((Vault.trial.reveal ⟨"k"⟩ "1234").run Store.answer .epoch (.trial (m marked))).1 =
        .error (.internal "malformed file header") := by
  intro m marked
  have hfits (payload : Bytes) (h : payload.length < 100) : (m payload).Fits :=
    Message.fits_trial ((Fresh.length_sealedTrial payload).trans_le (by omega))
      Fresh.length_pinHashTrial_le
  have hsaved (payload : Bytes) : (Vault.trial.create (.trial payload) .trial).run Store.answer
      .epoch ⟨.shelf .empty, false⟩ = (.ok (m payload), .trial (m payload)) :=
    Intake.run_of_prepared (i := .text (.trial payload)) rfl Instant.after?_trial rfl
  have hnow (payload : Bytes) : (m payload).isExpired .epoch = false := rfl
  have hreveal (payload : Bytes) (h : payload.length < 100) :=
    reveal_text_iff Config.vault_trial (by decide) (by decide) (by decide) rfl (hsaved payload)
      (hfits payload h) (hnow payload)
  refine ⟨(hreveal _ (by decide)).1.2 (by decide), ?_⟩
  exact ((hreveal marked (by decide)).2.1 (by decide)).trans rfl

/-- A file is revealed as it was taken in, exactly if neither its name nor its content type ends in
the character that delimiters are made of, and its header line ends inside the window. Where the
line is too long nothing is revealed; and the file is gone in any case. -/
theorem reveal_file_iff {c : Config} {v : Vault} {fresh : Fresh} {r : FileRequest} {t now : Instant}
    {m : Message} {before after : Store} (hv : c.vault = .ok v)
    (hsalt : fresh.salt.length = PinHash.saltSize)
    (hnonce : fresh.nonce.length = XChaCha20Poly1305.nonceSize)
    (hsaved : (v.createFile r fresh).run Store.answer t before = (.ok m, after)) (hfits : m.Fits)
    (hnow : m.isExpired now = false) :
    let revealed := (v.reveal m.key r.pin).run Store.answer now after
    let lineLength := (Text.utf8 r.name).length + (Text.utf8 r.contentType).length + 4
    (revealed.1 = .ok ⟨m.key, .file r.name r.contentType r.data⟩ ↔
        Framing.runsOn r.name = false ∧ Framing.runsOn r.contentType = false ∧
          lineLength < Framing.window) ∧
      (Framing.window ≤ lineLength →
        revealed.1 = .error (.internal "malformed file header")) ∧
      (revealed.2.answer (.load m.key)).1 = .error .loadRejected := by
  obtain ⟨hcost, k, rfl⟩ := c.vault_eq_ok hv
  have hsaved := Intake.saved_of_run (i := .file r) hsaved
  have hvalid := checkFile_eq_ok (prepareFile_eq_ok hsaved.prepared).1
  obtain ⟨c', hrun, hgone⟩ := hsaved.run_reveal rfl (PinHasher.argon2_recognizes hcost hsalt) hnonce
    nofun hfits hnow
  obtain ⟨hsame, hlong⟩ := secretOf_framed hvalid.1 hvalid.2 r.data hsaved.clientEncrypted
  intro revealed lineLength
  have hrevealed : revealed = _ := hrun
  rw [hrevealed, revealed_eq_ok_iff]
  refine ⟨hsame, ?_, hgone⟩
  intro h
  exact congrArg (Except.map _) (hlong h)

/-- A file is revealed under a plain name, and not under one that ends like a delimiter. -/
theorem reveal_trial_files :
    let m (name : String) : Message := .trial (Framing.marker ++ Fresh.sealedTrial
      (Framing.encodeHeader name "text/plain" ++ [1, 2])) Fresh.pinHashTrial
    let revealed (name : String) :=
      ((Vault.trial.reveal ⟨"k"⟩ "1234").run Store.answer .epoch (.trial (m name))).1
    revealed "a.txt" = .ok ⟨⟨"k"⟩, .file "a.txt" "text/plain" [1, 2]⟩ ∧
      revealed "a!" ≠ .ok ⟨⟨"k"⟩, .file "a!" "text/plain" [1, 2]⟩ := by
  intro m revealed
  have hfits (name : String) (h : (Framing.encodeHeader name "text/plain").length < 100) :
      (m name).Fits := by
    refine Message.fits_trial ?_ Fresh.length_pinHashTrial_le
    have hmarker : Framing.marker.length = 8 := by decide
    simp only [List.length_append, Fresh.length_sealedTrial, hmarker, List.length_cons,
      List.length_nil]
    omega
  have hsaved (name : String) (h : Vault.trial.checkFile (.trial name) = .ok ()) :
      (Vault.trial.createFile (.trial name) .trial).run Store.answer .epoch
        ⟨.shelf .empty, false⟩ = (.ok (m name), .trial (m name)) := by
    refine Intake.run_of_prepared (i := .file (.trial name)) ?_ Instant.after?_trial rfl
    rw [Intake.prepared, prepareFile, h]
    rfl
  have hnow (name : String) : (m name).isExpired .epoch = false := rfl
  have hreveal (name : String) (hcheck : Vault.trial.checkFile (.trial name) = .ok ())
      (h : (Framing.encodeHeader name "text/plain").length < 100) :=
    reveal_file_iff Config.vault_trial (by decide) (by decide) (hsaved name hcheck) (hfits name h)
      (hnow name)
  refine ⟨(hreveal "a.txt" (by decide) (by decide)).1.2 (by decide), ?_⟩
  intro h
  exact absurd ((hreveal "a!" (by decide) (by decide)).1.1 h) (by decide)

end Vault

end ReadOnce
