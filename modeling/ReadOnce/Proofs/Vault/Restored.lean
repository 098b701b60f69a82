import ReadOnce.Proofs.PinHash.Salted
import ReadOnce.Proofs.Vault.Life

/-!
# What is loaded is what was taken in

Calls with wrong pins leave a stored record as it is but for its count, as long as there is time and
a try left. A load with the pin that the message was taken in with then answers this record, with
its payload replaced by what was taken in: the bytes of a text, the caller's own ciphertext, or the
marker, the header and the bytes of a file. Which of the three layouts a payload has is told from a
flag and from its first bytes; the content may begin with anything.

A message that the caller encrypted needs no cipher, and its payload may even begin with the marker.
-/

namespace ReadOnce

namespace Vault

/-- A call on a message with a wrong pin, before its deadline. -/
def Misses (v : Vault) (m : Message) (c : Instant × Call) : Prop :=
  m.isExpired c.1 = false ∧ ∃ pin, c.2.pin? = some pin ∧ v.hasher.verify m.pinHash pin = false

variable {v : Vault} {m : Message} {c : Contents}

/-- A wrong pin that is not the last one allowed is counted, and nothing else is changed; where the
store does not count it, nothing is. -/
theorem run_program_of_misses (hfits : m.Fits) (hserves : c.Serves m.key) (hkeeps : c.Keeps m.key m)
    (hcount : m.errors.toNat + 1 < v.limits.maxPinAttempts.toNat) {now : Instant} {call : Call}
    (hmisses : v.Misses m (now, call)) :
    ∃ c', ((call.program v m.key).run Store.answer now ⟨c, false⟩).2 = ⟨c', false⟩ ∧
      (c'.Keeps m.key { m with errors := m.errors + 1 } ∨ c'.Keeps m.key m ∧
        c.isTable = true ∧ ∃ e, ((call.program v m.key).run Store.answer now
          ⟨c, false⟩).1.refusal? = some (.store e)) := by
  obtain ⟨hnow, pin, hpin, hwrong⟩ := hmisses
  have hnow : m.isExpired now = false := hnow
  have hmax := v.limits.maxPinAttempts.toNat_lt
  have hroom : m.errors.toNat + 1 < 4294967296 := by omega
  have hmore : ¬ v.limits.maxPinAttempts ≤ m.errors + 1 := by
    rw [UInt32.le_iff_toNat_le, toNat_succ_count hroom]
    omega
  rw [Call.program_of_pin? hpin, Program.run_map, run_load_of_keeps hserves hkeeps, hnow,
    if_neg Bool.false_ne_true, hwrong, if_neg Bool.false_ne_true]
  cases hrefusal : c.refusal? (.increment m.key) with
  | none =>
      refine ⟨_, ?_, .inl (Contents.keeps_increment hrefusal rfl hfits hroom hkeeps).2⟩
      rw [run_recordBadPin hrefusal hkeeps hfits hroom, if_neg hmore]
  | some e =>
      rw [run_recordBadPin_of_refused hrefusal]
      refine ⟨c, rfl, .inr ⟨hkeeps, ?_, e, Call.refusal?_outcome_of_pin? hpin _⟩⟩
      cases htable : c.isTable with
      | true => rfl
      | false => simp [Contents.refusal?_of_isTable_eq_false htable] at hrefusal

/-- So are wrong pins in turn, as long as a try is left. -/
theorem attend_of_misses {wrong : List (Instant × Call)} (hfits : m.Fits)
    (hserves : c.Serves m.key) (hkeeps : c.Keeps m.key m)
    (hcount : m.errors.toNat + wrong.length < v.limits.maxPinAttempts.toNat)
    (hmisses : ∀ w ∈ wrong, v.Misses m w) :
    ∃ c' counted, (v.attend m.key wrong ⟨c, false⟩).2 = ⟨c', false⟩ ∧ c'.Serves m.key ∧
      counted ≤ wrong.length ∧
      (v.Unfailing m.key wrong ⟨c, false⟩ → counted = wrong.length) ∧
      c'.Keeps m.key { m with errors := m.errors + UInt32.ofNat counted } := by
  induction wrong generalizing c m with
  | nil =>
      have hsame : m.errors + UInt32.ofNat 0 = m.errors := by simp
      exact ⟨c, 0, rfl, hserves, Nat.le_refl _, fun _ => rfl, by rwa [hsame]⟩
  | cons w wrong ih =>
      obtain ⟨now, call⟩ := w
      obtain ⟨hfirst, hrest⟩ := List.forall_mem_cons.1 hmisses
      rw [List.length_cons] at hcount
      have hmax := v.limits.maxPinAttempts.toNat_lt
      have hnext := toNat_succ_count (n := m.errors) (by omega)
      have hserves₁ := Program.serves_run now (call.program v m.key) (s := ⟨c, false⟩) hserves
      obtain ⟨c₁, hrun, hkeeps | ⟨hkeeps, htable, e, hfailed⟩⟩ :=
        run_program_of_misses hfits hserves hkeeps (by omega) hfirst
      · rw [hrun] at hserves₁
        obtain ⟨c₂, counted, hattend, hserves₂, hle, hall, hkeeps⟩ :=
          ih (m := { m with errors := m.errors + 1 }) (hfits.recounted _) hserves₁ hkeeps
            (by show (m.errors + 1).toNat + _ < _; omega) hrest
        refine ⟨c₂, counted + 1, ?_, hserves₂, by simpa using hle, ?_, ?_⟩
        · simp only [attend, hrun]
          exact hattend
        · intro hunfailing
          have hunfailing := (unfailing_cons hunfailing).2
          rw [hrun] at hunfailing
          rw [hall hunfailing, List.length_cons]
        · have hsum : m.errors + 1 + UInt32.ofNat counted =
              m.errors + UInt32.ofNat (counted + 1) := by
            rw [UInt32.ofNat_add, UInt32.add_assoc, UInt32.add_comm 1]
            rfl
          rw [← hsum]
          exact hkeeps
      · rw [hrun] at hserves₁
        obtain ⟨c₂, counted, hattend, hserves₂, hle, -, hkeeps⟩ :=
          ih hfits hserves₁ hkeeps (by omega) hrest
        refine ⟨c₂, counted, ?_, hserves₂, hle.trans (Nat.le_succ _), ?_, hkeeps⟩
        · simp only [attend, hrun]
          exact hattend
        · intro hunfailing
          exact absurd hfailed ((unfailing_cons hunfailing).1 htable e)

/-- What the caller encrypted is answered as it is, whatever the cipher. -/
theorem openPayload_of_clientEncrypted (v : Vault) (hclient : m.clientEncrypted = true)
    (pin : String) : v.openPayload m pin = .ok m :=
  if_pos hclient

end Vault

namespace Intake

/-- What is sealed is sealed with the server's secret, and a sealed text does not look like a
file. -/
structure IsSealedBy (v : Vault) (fresh : Fresh) (i : Intake) : Prop where
  cipher : ∃ k, v.cipher = .secret k
  nonce : fresh.nonce.length = XChaCha20Poly1305.nonceSize
  marker : i.isFile = false → Framing.marker.isPrefixOf fresh.nonce = false

variable {v : Vault} {fresh : Fresh} {i : Intake} {t : Instant} {m : Message}
variable {before after : Store}

namespace Saved

theorem data_of_clientEncrypted (h : i.Saved v fresh t m before after)
    (hclient : i.clientEncrypted = true) : m.data = i.content := by
  cases i with
  | text r =>
      have hclient : r.clientEncrypted = true := hclient
      have hdata := (Vault.prepareText_eq_ok h.prepared).2
      rwa [if_pos hclient] at hdata
  | file r => contradiction

/-- A message opens to what was taken in, with any cipher if the caller encrypted it. -/
theorem openPayload_with (h : i.Saved v fresh t m before after)
    (hsealed : i.clientEncrypted = false → i.IsSealedBy v fresh) {cipher : Cipher}
    (hcipher : i.clientEncrypted = true ∨ cipher = v.cipher) {n : Message}
    (hdata : n.data = m.data) (hflag : n.clientEncrypted = m.clientEncrypted) :
    { v with cipher }.openPayload n i.pin = .ok { n with data := i.content } := by
  cases hclient : i.clientEncrypted with
  | true =>
      have hopen : n.clientEncrypted = true := by rw [hflag, h.clientEncrypted, hclient]
      rw [Vault.openPayload_of_clientEncrypted _ hopen, ← h.data_of_clientEncrypted hclient,
        ← hdata]
  | false =>
      obtain rfl : cipher = v.cipher := by simpa [hclient] using hcipher
      obtain ⟨⟨k, hk⟩, hnonce, hmarker⟩ := hsealed hclient
      exact h.openPayload hk hnonce (fun hfile _ => hmarker hfile) hdata hflag

end Saved

end Intake

/-- The record of a message that was taken in is stored as the message, except that a deadline that
the form of the store shifts becomes another instant with the same nanoseconds. After any calls with
wrong pins that leave a try, it has the number of those that were counted, which are all of them
unless the store failed, and is otherwise as it was. The pin that the message was taken in with then
loads the record as it stands, with what was taken in for its payload. What the caller encrypted is
loaded so with any cipher. -/
theorem Intake.loaded_as_taken_in {v : Vault} {fresh : Fresh} {i : Intake} {t : Instant}
    {m : Message} {before after : Store} (hhasher : v.hasher.Recognizes fresh.salt)
    (hsealed : i.clientEncrypted = false → i.IsSealedBy v fresh)
    (hsaved : (i.program v fresh).run Store.answer t before = (.ok m, after)) (hfits : m.Fits) :
    ∃ deadline : Instant, deadline.unixNanos = m.expiresAt.unixNanos ∧
      (deadline = m.expiresAt ↔ before.contents.shifts m.expiresAt = false) ∧
      ∀ wrong : List (Instant × Call), wrong.length < v.limits.maxPinAttempts.toNat →
        let stored (errors : UInt32) : Message := { m with expiresAt := deadline, errors }
        (∀ w ∈ wrong, v.Misses (stored 0) w) →
        let store := (v.attend m.key wrong after).2
        ∃ counted ≤ wrong.length,
        (v.Unfailing m.key wrong after → counted = wrong.length) ∧
        let record := stored (UInt32.ofNat counted)
        (store.answer (.load m.key)).1 = .ok record ∧
        ∀ now cipher, record.isExpired now = false →
          (i.clientEncrypted = true ∨ cipher = v.cipher) →
          (({ v with cipher }.load m.key i.pin).run Store.answer now store).1 =
            .ok { record with data := i.content } := by
  have hsaved := Intake.saved_of_run hsaved
  obtain ⟨deadline, -, hnanos, hexact, hkeeps⟩ := Contents.keeps_save hfits hsaved.accepted
  refine ⟨deadline, hnanos, hexact, ?_⟩
  intro wrong hlength stored hmisses store
  have hfirst : after.contents.Keeps m.key (stored 0) := by
    have hzero : stored 0 = stored m.errors := congrArg stored hsaved.errors.symm
    rw [hsaved.contents, hzero]
    exact hkeeps
  have hstored : (stored 0).Fits := (hfits.redated deadline).recounted 0
  obtain ⟨c, counted, hattend, hserves, hle, hall, hkept⟩ := Vault.attend_of_misses hstored
    hsaved.serves_after hfirst ((Nat.zero_add _).trans_lt hlength) hmisses
  have hstore : store = ⟨c, false⟩ := by
    show (v.attend m.key wrong after).2 = _
    rw [hsaved.eq_after]
    exact hattend
  refine ⟨counted, hle, ?_, ?_⟩
  · rw [hsaved.eq_after]
    exact hall
  intro record
  have hrecord : c.Keeps m.key record := by
    have hcount : record = stored (0 + UInt32.ofNat counted) := by
      rw [UInt32.zero_add]
    rw [hcount]
    exact hkept
  rw [hstore]
  refine ⟨Contents.answer_load_of_keeps hserves.load hrecord, ?_⟩
  intro now cipher hnow hcipher
  have hverify : v.hasher.verify record.pinHash i.pin = true := hhasher _ _ hsaved.hash
  rw [Vault.run_load_of_keeps hserves hrecord, hnow, if_neg Bool.false_ne_true, if_pos hverify]
  exact hsaved.openPayload_with hsealed hcipher rfl rfl

/-- A file is loaded with its header after a wrong pin. What the caller encrypted is loaded although
it begins with the marker and the cipher does not open anything. -/
theorem Intake.loaded_as_taken_in_trial :
    let v : Vault := { Vault.trial with hasher := .plain }
    let framed := Framing.encodeHeader "a.txt" "text/plain" ++ [1, 2]
    let m : Message := .trial (Framing.marker ++ Fresh.sealedTrial framed) "hash:1234"
    let blob := Text.utf8 "!!FILE!!x"
    let n : Message := { Message.trial blob "hash:1234" with clientEncrypted := true }
    let missed := (v.attend m.key [(.epoch, .load "1")] (.trial m)).2
    ((v.load m.key "1234").run Store.answer .epoch missed).1 =
        .ok { m with data := Framing.marker ++ framed, errors := 1 } ∧
      (({ v with cipher := .broken "" }.load n.key "1234").run Store.answer .epoch (.trial n)).1 =
        .ok n := by
  intro v framed m blob n missed
  have hhasher : v.hasher.Recognizes Fresh.trial.salt := by
    intro pin hash hhash
    rw [PinHasher.plain_faithful _ _ _ hhash, beq_self_eq_true]
  have hfits : m.Fits := by
    refine Message.fits_trial ?_ (by decide)
    rw [List.length_append, Fresh.length_sealedTrial]
    decide
  have hfile : ((file (.trial "a.txt")).program v .trial).run Store.answer .epoch
      ⟨.shelf .empty, false⟩ = (.ok m, .trial m) := by
    have hcheck : v.checkFile (.trial "a.txt") = .ok () := by decide
    refine run_of_prepared ?_ Instant.after?_trial rfl
    rw [prepared, Vault.prepareFile, hcheck]
    rfl
  have hblob : ((text { TextRequest.trial blob with clientEncrypted := true }).program v
      .trial).run Store.answer .epoch ⟨.shelf .empty, false⟩ = (.ok n, .trial n) := by
    have hprepared : (text { TextRequest.trial blob with clientEncrypted := true }).prepared v
        .trial = .ok (blob, "hash:1234") := rfl
    exact run_of_prepared hprepared Instant.after?_trial rfl
  obtain ⟨deadline, -, hexact, hloaded⟩ := loaded_as_taken_in hhasher
    (fun _ => ⟨⟨.trial, rfl⟩, by decide, fun hform => absurd hform (by decide)⟩) hfile hfits
  obtain rfl := hexact.2 rfl
  obtain ⟨counted, -, hall, -, hopened⟩ := hloaded [(.epoch, .load "1")] (by decide)
    (List.forall_mem_singleton.2 ⟨rfl, "1", rfl, by decide⟩)
  obtain rfl := hall fun htable => absurd htable Bool.false_ne_true
  obtain ⟨deadline, -, hexact, hloaded⟩ := loaded_as_taken_in hhasher
    (fun hserver => absurd hserver (by decide)) hblob ⟨by decide, by decide, by decide⟩
  obtain rfl := hexact.2 rfl
  obtain ⟨counted, hnone, -, -, hsame⟩ :=
    hloaded [] (by decide) (fun _ hw => absurd hw List.not_mem_nil)
  obtain rfl := Nat.le_zero.1 hnone
  exact ⟨hopened .epoch v.cipher rfl (.inr rfl), hsame .epoch (.broken "") rfl (.inl rfl)⟩

end ReadOnce
