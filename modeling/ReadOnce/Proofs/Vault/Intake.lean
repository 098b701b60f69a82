import ReadOnce.Proofs.Store.Record
import ReadOnce.Vault.Basic

/-!
# Messages that were taken in

A text and a file are taken in by the same program, which differs in what is prepared for the store.
`saved_of_run` says all there is to know when it succeeds: the store was open, the message is made
of what was prepared, and saving it was the only thing the store was asked.
-/

namespace ReadOnce

/-- What is taken in. -/
inductive Intake where
  | text (r : TextRequest)
  | file (r : FileRequest)

namespace Intake

def duration : Intake → Span
  | text r => r.duration
  | file r => r.duration

def pin : Intake → String
  | text r => r.pin
  | file r => r.pin

/-- Whether the caller encrypted it. -/
def clientEncrypted : Intake → Bool
  | text r => r.clientEncrypted
  | file _ => false

/-- What is stored for it, and the hash of its pin. -/
def prepared (v : Vault) (fresh : Fresh) : Intake → Except VaultError (Bytes × String)
  | text r => v.prepareText r fresh
  | file r => v.prepareFile r fresh

/-- The program that takes it in. -/
def program (v : Vault) (fresh : Fresh) : Intake → Program (Except VaultError Message)
  | text r => v.create r fresh
  | file r => v.createFile r fresh

variable {v : Vault} {fresh : Fresh} {i : Intake} {t : Instant} {m : Message}
variable {before after : Store}

theorem program_eq_persist (v : Vault) (fresh : Fresh) (i : Intake) :
    i.program v fresh = v.persist i.duration i.clientEncrypted fresh.key (i.prepared v fresh) := by
  cases i <;> rfl

/-- A message was taken in: it was saved, and is made of what was prepared for it. -/
structure Saved (v : Vault) (fresh : Fresh) (i : Intake) (t : Instant) (m : Message)
    (before after : Store) : Prop where
  open_before : before.isClosed = false
  open_after : after.isClosed = false
  accepted : (before.contents.answer (.save m)).1 = .ok ()
  contents : after.contents = (before.contents.answer (.save m)).2
  prepared : i.prepared v fresh = .ok (m.data, m.pinHash)
  key : m.key = fresh.key
  expiresAt : t.after? i.duration = some m.expiresAt
  errors : m.errors = 0
  clientEncrypted : m.clientEncrypted = i.clientEncrypted

section Run

variable {data : Bytes} {pinHash : String} {expiresAt : Instant}

/-- What is not prepared is refused before the store is asked. -/
theorem run_of_error {e : VaultError} (hprepared : i.prepared v fresh = .error e) (s : Store) :
    (i.program v fresh).run Store.answer t s = (.error e, s) := by
  simp [program_eq_persist, Vault.persist, hprepared]

/-- So is what would be kept beyond the calendar. -/
theorem run_of_beyond {p : Bytes × String} (hprepared : i.prepared v fresh = .ok p)
    (hexpires : t.after? i.duration = none) (s : Store) :
    (i.program v fresh).run Store.answer t s =
      (.error (.badDuration i.duration v.limits.maxDuration), s) := by
  simp [program_eq_persist, Vault.persist, hprepared, hexpires]

/-- What was prepared is saved with a deadline, if the clock can hold one. -/
theorem run_of_prepared {c : Contents} (hprepared : i.prepared v fresh = .ok (data, pinHash))
    (hexpires : t.after? i.duration = some expiresAt)
    (hsave : (c.answer (.save ⟨fresh.key, expiresAt, data, pinHash, 0, i.clientEncrypted⟩)).1 =
      .ok ()) :
    (i.program v fresh).run Store.answer t ⟨c, false⟩ =
      (.ok ⟨fresh.key, expiresAt, data, pinHash, 0, i.clientEncrypted⟩,
        ⟨(c.answer (.save ⟨fresh.key, expiresAt, data, pinHash, 0, i.clientEncrypted⟩)).2,
          false⟩) := by
  simp [program_eq_persist, Vault.persist, hprepared, hexpires, hsave]

/-- It is refused if the store does not save it. -/
theorem run_of_not_saved {s : Store} {e : StoreError}
    (hprepared : i.prepared v fresh = .ok (data, pinHash))
    (hexpires : t.after? i.duration = some expiresAt)
    (hsave : (s.answer (.save ⟨fresh.key, expiresAt, data, pinHash, 0, i.clientEncrypted⟩)).1 =
      .error e) :
    (i.program v fresh).run Store.answer t s = (.error (.store e),
      (s.answer (.save ⟨fresh.key, expiresAt, data, pinHash, 0, i.clientEncrypted⟩)).2) := by
  simp [program_eq_persist, Vault.persist, hprepared, hexpires, hsave]

end Run

theorem saved_of_run (h : (i.program v fresh).run Store.answer t before = (.ok m, after)) :
    i.Saved v fresh t m before after := by
  cases hprepared : i.prepared v fresh with
  | error e =>
      rw [run_of_error hprepared] at h
      simp at h
  | ok prepared =>
      obtain ⟨data, pinHash⟩ := prepared
      cases hexpires : t.after? i.duration with
      | none =>
          rw [run_of_beyond hprepared hexpires] at h
          simp at h
      | some expiresAt =>
          cases hsave : (before.answer (.save
              ⟨fresh.key, expiresAt, data, pinHash, 0, i.clientEncrypted⟩)).1 with
          | error e =>
              rw [run_of_not_saved hprepared hexpires hsave] at h
              simp at h
          | ok u =>
              obtain ⟨c, isClosed⟩ := before
              cases isClosed with
              | true => contradiction
              | false =>
                  rw [run_of_prepared hprepared hexpires hsave] at h
                  obtain ⟨hm, rfl⟩ := Prod.mk.inj h
                  obtain rfl := Except.ok.inj hm
                  exact ⟨rfl, rfl, hsave, rfl, hprepared, rfl, hexpires, rfl, rfl⟩

namespace Saved

theorem eq_after (h : i.Saved v fresh t m before after) : after = ⟨after.contents, false⟩ := by
  rw [← h.open_after]

theorem serves_after (h : i.Saved v fresh t m before after) : after.contents.Serves m.key := by
  rw [h.contents]
  exact (Contents.serves_of_saved h.accepted).answer _

/-- The store keeps what it was given, up to a deadline in a leap second. -/
theorem keeps_after (h : i.Saved v fresh t m before after) (hfits : m.Fits) :
    ∃ t, m.expiresAt ≤ t ∧ (m.expiresAt.isLeap = false → t = m.expiresAt) ∧
      after.contents.Keeps m.key { m with expiresAt := t } := by
  rw [h.contents]
  obtain ⟨t, hle, -, hexact, hkeeps⟩ := Contents.keeps_save hfits h.accepted
  exact ⟨t, hle, fun hleap => hexact.2 (Contents.shifts_of_isLeap_eq_false _ hleap), hkeeps⟩

end Saved

end Intake

/-- Random values for one message. -/
def Fresh.trial : Fresh where
  salt := List.replicate 16 5
  nonce := List.replicate 24 9
  key := ⟨"k"⟩

/-- A text that is kept for a minute. -/
def TextRequest.trial (payload : Bytes) : TextRequest where
  duration := .ofSeconds 60
  pin := "1234"
  payload
  clientEncrypted := false

/-- A file of two bytes that is kept for a minute. -/
def FileRequest.trial (name : String) : FileRequest where
  duration := .ofSeconds 60
  pin := "1234"
  name
  contentType := "text/plain"
  data := [1, 2]

/-- A message that is taken in at the epoch for a minute. -/
def Message.trial (data : Bytes) (pinHash : String) : Message where
  key := Fresh.trial.key
  expiresAt := ⟨60, 0, by decide, by decide, Instant.epoch.nanos_lt⟩
  data
  pinHash
  errors := 0
  clientEncrypted := false

/-- A store with one message. -/
def Store.trial (m : Message) : Store :=
  ⟨.shelf ⟨[m], by simp⟩, false⟩

theorem Instant.after?_trial : Instant.epoch.after? (.ofSeconds 60) =
    some ⟨60, 0, by decide, by decide, by decide⟩ := rfl

theorem Message.fits_trial {data : Bytes} {pinHash : String} (hdata : data.length ≤ 1000)
    (hhash : (Text.utf8 pinHash).length ≤ 1000) : (Message.trial data pinHash).Fits :=
  have hlt : 1000 < Nat.pow 256 8 := by decide
  ⟨(by decide : (Text.utf8 "k").length < Nat.pow 256 8), hdata.trans_lt hlt, hhash.trans_lt hlt⟩

/-- A vault that hides nothing, with a number of wrong pins allowed. -/
def Vault.plainTrial (maxPinAttempts : UInt32) : Vault where
  limits := { Limits.default with maxPinAttempts }
  cipher := .plain
  hasher := .plain

/-- What such a vault makes of a text of two bytes. -/
def Message.plainTrial : Message :=
  .trial (Text.utf8 "1234" ++ [1, 2]) "hash:1234"

/-- The message once it has been opened. -/
def Message.openedTrial : Message :=
  .trial [1, 2] "hash:1234"

theorem Message.fits_plainTrial : Message.plainTrial.Fits :=
  Message.fits_trial (by decide) (by decide)

theorem Intake.prepared_plainTrial (maxPinAttempts : UInt32) :
    (text (.trial [1, 2])).prepared (.plainTrial maxPinAttempts) .trial =
      .ok (Text.utf8 "1234" ++ [1, 2], "hash:1234") := by
  have hlong : ¬ Limits.default.maxDuration < Span.ofSeconds 60 := by decide
  simp only [prepared, Vault.prepareText, Vault.check, TextRequest.trial, Vault.plainTrial, hlong,
    if_false]
  rfl

theorem Intake.run_plainTrial (maxPinAttempts : UInt32) {c : Contents}
    (hsave : (c.answer (.save .plainTrial)).1 = .ok ()) :
    ((text (.trial [1, 2])).program (.plainTrial maxPinAttempts) .trial).run Store.answer .epoch
      ⟨c, false⟩ = (.ok .plainTrial, ⟨(c.answer (.save .plainTrial)).2, false⟩) :=
  run_of_prepared (prepared_plainTrial maxPinAttempts) Instant.after?_trial hsave

end ReadOnce
