import ReadOnce.Proofs.Store.Alike
import ReadOnce.Proofs.Vault.Readable
import ReadOnce.Proofs.Vault.Sealed

/-!
# What is taken in and what is refused

A text or a file is refused for the first of several reasons, in a fixed order, and then nothing has
changed. `Intake.obstacles` lists all that stands in the way before the store is asked, each by its
own condition; `taken_in_or_refused` says that the first of them is the answer, that a store which
refuses comes after all of them, and that otherwise one message has been added, which is made of
what was taken in.
-/

namespace ReadOnce

namespace Contents

/-- One message has been added under a key that was missing, and nothing else has changed. -/
structure Adds (c : Contents) (m : Message) (c' : Contents) : Prop where
  missing : (c.answer (.load m.key)).1 = .error .loadRejected
  loaded : (c'.answer (.load m.key)).1 = .ok m
  others : ∀ key, key ≠ m.key → c'.slot key = c.slot key
  records : c'.records.Perm (some m :: c.records)

variable {c : Contents} {m : Message}

/-- A record is added as what it is loaded as. -/
theorem records_save (hfits : m.Fits) (hleap : m.expiresAt.isLeap = false)
    (h : (c.answer (.save m)).1 = .ok ()) :
    (c.answer (.save m)).2.records.Perm (some m :: c.records) := by
  obtain ⟨hnew, -⟩ := slot_save h
  cases c with
  | shelf s =>
      have hfind := shelf_has_eq_false_iff.1 hnew
      simp only [answer, s.answer_save_of_missing hfind]
      exact .refl _
  | trees t =>
      have hget : t.messages.get? (Text.utf8 m.key.text) = none := trees_has_eq_false_iff.1 hnew
      simp only [answer_trees, Trees.answer_save, Trees.save, hget]
      refine ((Tree.entries_insert_perm_of_missing hget _).map _).trans ?_
      rw [List.map_cons, Message.decode_encode (hfits.isExact hleap)]
      exact .refl _
  | table t =>
      obtain ⟨e, -, heq⟩ | ⟨-, heq⟩ := t.answer_cases (.save m)
      · simp [heq] at h
      cases hexp : Table.nanos? m.expiresAt with
      | none => simp [heq, Table.save, hexp] at h
      | some exp =>
          have hfind : t.find? m.key = none := by
            rw [Table.find?_eq_head?, table_has_eq_false_iff.1 hnew, List.head?_nil]
          simp only [answer_table, heq, Table.perform_save, Table.save, hexp, hfind]
          refine ((List.perm_append_singleton _ _).map _).trans ?_
          have hread : (Table.Row.ofMessage m exp).message ⟨m.key.text⟩ = _ :=
            Table.message_ofMessage m exp
          rw [(Table.instantOf_eq_iff hexp).2 hleap] at hread
          have hrecord : (Table.Row.ofMessage m exp).record? = some m :=
            congrArg Except.toOption hread
          rw [List.map_cons, hrecord]
          exact .refl _

theorem adds_of_saved (hfits : m.Fits) (hleap : m.expiresAt.isLeap = false)
    (h : (c.answer (.save m)).1 = .ok ()) : c.Adds m (c.answer (.save m)).2 where
  missing := answer_load_of_missing (serves_of_saved h).load (slot_save h).1
  loaded := by
    obtain ⟨t, -, -, hexact, hkeeps⟩ := keeps_save hfits h
    rw [hexact.2 (shifts_of_isLeap_eq_false _ hleap)] at hkeeps
    exact answer_load_of_keeps ((serves_of_saved h).answer _).load hkeeps
  others _ hne := slot_answer_of_ne rfl hne.symm
  records := records_save hfits hleap h

end Contents

/-- Why something fails, if it does. -/
def reasons {α : Type} : Except VaultError α → List VaultError
  | .ok _ => []
  | .error e => [e]

section Reasons

variable {α β : Type} {x : Except VaultError α} {f : α → Except VaultError β}
variable {l l' : List VaultError}

theorem eq_error_of_head?_reasons {e : VaultError} (h : (reasons x).head? = some e) :
    x = .error e := by
  cases x with
  | ok a => contradiction
  | error e' => exact congrArg Except.error (Option.some.inj h)

theorem exists_eq_ok_of_reasons (h : (reasons x).head? = none) : ∃ a, x = .ok a := by
  cases x with
  | ok a => exact ⟨a, rfl⟩
  | error e => contradiction

/-- A check that is made first gives the first reason. -/
theorem head?_reasons_ite {p : Prop} [Decidable p] {e : VaultError}
    (h : (reasons x).head? = l.head?) :
    (reasons (if p then .error e else x)).head? = ((if p then [e] else []) ++ l).head? := by
  split
  · rfl
  · exact h

/-- What fails in two parts fails for the first reason of the first part that has one. -/
theorem head?_reasons_bind (hx : (reasons x).head? = l.head?)
    (hf : ∀ a, x = .ok a → (reasons (f a)).head? = l'.head?) :
    (reasons (x >>= f)).head? = (l ++ l').head? := by
  cases x with
  | ok a =>
      obtain rfl : l = [] := List.head?_eq_none_iff.1 hx.symm
      exact hf a rfl
  | error e =>
      rw [List.head?_append, ← hx]
      rfl

end Reasons

namespace Intake

/-- What is sealed of it: a file goes with its header. -/
def plain : Intake → Bytes
  | text r => r.payload
  | file r => Framing.encodeHeader r.name r.contentType ++ r.data

/-- What stands in the way of texts and files. -/
def commonFlaws (v : Vault) (i : Intake) : List VaultError :=
  (if i.pin = "" then [.badPin] else []) ++
  (if v.limits.maxDuration < i.duration then
    [.badDuration i.duration v.limits.maxDuration] else [])

/-- What stands in the way of files only. -/
def fileFlaws (v : Vault) : Intake → List VaultError
  | text _ => []
  | file r =>
    (if ¬ Framing.isValidName r.name then [.badFileName] else []) ++
    (if ¬ Framing.isValidContentType r.contentType then [.badContentType] else []) ++
    (if v.limits.maxFileSize < r.data.length then
      [.fileTooLarge r.data.length v.limits.maxFileSize] else [])

/-- What stands in the way of preparing it for the store, each flaw by itself, in the order in which
they count. -/
def flaws (v : Vault) (fresh : Fresh) (i : Intake) : List VaultError :=
  i.commonFlaws v ++ i.fileFlaws v ++ reasons (v.hashPin fresh.salt i.pin) ++
  (if i.clientEncrypted then [] else reasons (v.sealPayload fresh.nonce i.plain i.pin))

/-- All that stands in its way before the store is asked: last, a deadline beyond the calendar. -/
def obstacles (v : Vault) (fresh : Fresh) (now : Instant) (i : Intake) : List VaultError :=
  i.flaws v fresh ++
  (if Instant.calendarEnd ≤ now.unixNanos + i.duration.nanoseconds then
    [.badDuration i.duration v.limits.maxDuration] else [])

/-- The payload that is stored for it: the caller's own, or what was sealed, after the marker if it
is a file. -/
def IsStoredAs (v : Vault) (fresh : Fresh) (data : Bytes) : Intake → Prop
  | text r =>
    if r.clientEncrypted then data = r.payload
    else v.cipher.encrypt fresh.nonce r.payload r.pin = .ok data
  | file r =>
    ∃ sealed, data = Framing.marker ++ sealed ∧
      v.cipher.encrypt fresh.nonce (Framing.encodeHeader r.name r.contentType ++ r.data) r.pin =
        .ok sealed

/-- A message is what a vault makes of it at an instant. -/
structure Becomes (v : Vault) (fresh : Fresh) (now : Instant) (i : Intake) (m : Message) :
    Prop where
  key : m.key = fresh.key
  deadline : m.expiresAt.unixNanos = now.unixNanos + i.duration.nanoseconds
  isLeap : m.expiresAt.isLeap = false
  data : i.IsStoredAs v fresh m.data
  pinHash : v.hasher.hash fresh.salt i.pin = .ok m.pinHash
  errors : m.errors = 0
  clientEncrypted : m.clientEncrypted = i.clientEncrypted

variable {v : Vault} {fresh : Fresh} {i : Intake} {now : Instant}

theorem head?_reasons_check (v : Vault) (i : Intake) :
    (reasons (v.check i.pin i.duration)).head? = (i.commonFlaws v).head? := by
  rw [Vault.check, commonFlaws, ← List.append_nil (if v.limits.maxDuration < _ then _ else _)]
  exact head?_reasons_ite (head?_reasons_ite rfl)

theorem head?_reasons_checkFile (v : Vault) (r : FileRequest) :
    (reasons (v.checkFile r)).head? = ((file r).fileFlaws v).head? := by
  rw [Vault.checkFile, fileFlaws, List.append_assoc,
    ← List.append_nil (if v.limits.maxFileSize < _ then _ else _)]
  exact head?_reasons_ite (head?_reasons_ite (head?_reasons_ite rfl))

/-- Preparing it fails for its first flaw. -/
theorem head?_reasons_prepared (v : Vault) (fresh : Fresh) (i : Intake) :
    (reasons (i.prepared v fresh)).head? = (i.flaws v fresh).head? := by
  have hcheck := head?_reasons_check v i
  cases i with
  | text r =>
      rw [flaws, fileFlaws, List.append_nil, List.append_assoc]
      refine head?_reasons_bind hcheck fun _ _ => head?_reasons_bind rfl fun hash _ => ?_
      cases hclient : r.clientEncrypted with
      | true =>
          simp only [clientEncrypted, hclient]
          rfl
      | false =>
          simp only [clientEncrypted, hclient]
          rw [← List.append_nil (if false then _ else _)]
          exact head?_reasons_bind rfl fun _ _ => rfl
  | file r =>
      rw [flaws, List.append_assoc, List.append_assoc]
      refine head?_reasons_bind hcheck fun _ _ => ?_
      refine head?_reasons_bind (head?_reasons_checkFile v r) fun _ _ => ?_
      refine head?_reasons_bind rfl fun hash _ => ?_
      rw [← List.append_nil (if clientEncrypted _ then _ else _)]
      exact head?_reasons_bind rfl fun _ _ => rfl

theorem isStoredAs_of_prepared {data : Bytes} {pinHash : String}
    (h : i.prepared v fresh = .ok (data, pinHash)) : i.IsStoredAs v fresh data := by
  cases i with
  | text r => exact (Vault.prepareText_eq_ok h).2
  | file r => exact (Vault.prepareFile_eq_ok h).2.2

theorem becomes_of_prepared {data : Bytes} {pinHash : String} {expiresAt : Instant}
    (hnow : now.isLeap = false) (hprepared : i.prepared v fresh = .ok (data, pinHash))
    (hexpires : now.after? i.duration = some expiresAt) :
    i.Becomes v fresh now ⟨fresh.key, expiresAt, data, pinHash, 0, i.clientEncrypted⟩ where
  key := rfl
  deadline := Instant.unixNanos_after? hnow hexpires
  isLeap := Instant.isLeap_after? hnow hexpires
  data := isStoredAs_of_prepared hprepared
  pinHash := hash_of_prepared hprepared
  errors := rfl
  clientEncrypted := rfl

end Intake

/-- Outside leap seconds, whatever is to be taken in is refused for the first obstacle in its way;
if there is none, but the store does not accept the message that it becomes, for that. In both cases
the store is as it was. Otherwise the answer is this message, and it has been added to the store. -/
theorem Intake.taken_in_or_refused {v : Vault} {fresh : Fresh} {i : Intake} {now : Instant}
    (hnow : now.isLeap = false) (hfits : i.Fits v fresh) (before : Store) :
    let result := (i.program v fresh).run Store.answer now before
    (∀ e, (i.obstacles v fresh now).head? = some e → result = (.error e, before)) ∧
    (i.obstacles v fresh now = [] → ∃ m, i.Becomes v fresh now m ∧
      ((∃ e, (before.answer (.save m)).1 = .error e ∧ result = (.error (.store e), before)) ∨
        result.1 = .ok m ∧ before.isClosed = false ∧ result.2.isClosed = false ∧
          before.contents.Adds m result.2.contents)) := by
  have hflaws := head?_reasons_prepared v fresh i
  have hbeyond := Instant.after?_eq_none_iff (s := i.duration) hnow
  intro result
  constructor
  · intro e he
    rw [obstacles, List.head?_append, ← hflaws, Option.or_eq_some_iff] at he
    rcases he with he | ⟨hnone, he⟩
    · exact run_of_error (eq_error_of_head?_reasons he) before
    · obtain ⟨p, hp⟩ := exists_eq_ok_of_reasons hnone
      split at he
      · rename_i hend
        obtain rfl := Option.some.inj he
        exact run_of_beyond hp (hbeyond.2 hend) before
      · contradiction
  · intro hclear
    obtain ⟨hnone, hend⟩ := List.append_eq_nil_iff.1 hclear
    rw [hnone] at hflaws
    obtain ⟨⟨data, pinHash⟩, hp⟩ := exists_eq_ok_of_reasons hflaws
    obtain ⟨expiresAt, hexpires⟩ : ∃ expiresAt, now.after? i.duration = some expiresAt := by
      rw [← Option.ne_none_iff_exists', ne_eq, hbeyond]
      simpa using hend
    have hbecomes := becomes_of_prepared hnow hp hexpires
    refine ⟨_, hbecomes, ?_⟩
    obtain ⟨c, isClosed⟩ := before
    cases isClosed with
    | true => exact .inl ⟨.closed, rfl, run_of_not_saved hp hexpires rfl⟩
    | false =>
        cases hsave : (c.answer (.save
            ⟨fresh.key, expiresAt, data, pinHash, 0, i.clientEncrypted⟩)).1 with
        | error e => exact .inl ⟨e, hsave, run_of_refused hp hexpires hsave⟩
        | ok u =>
            have hrun : result = _ := run_of_prepared hp hexpires hsave
            rw [hrun]
            exact .inr ⟨rfl, rfl, rfl,
              Contents.adds_of_saved (hfits _ _ hp expiresAt) hbecomes.isLeap hsave⟩

/-- A file is refused for its lifetime though its name is no better. A text is added to an empty
store. -/
theorem Intake.taken_in_or_refused_trial :
    let v : Vault := .plainTrial 3
    let store : Store := ⟨.shelf .empty, false⟩
    let long : FileRequest :=
      { FileRequest.trial "a/b" with duration := .ofSeconds (32 * 24 * 3600) }
    let refused := ((file long).program v .trial).run Store.answer .epoch store
    let taken := ((text (.trial [1, 2])).program v .trial).run Store.answer .epoch store
    (file long).obstacles v .trial .epoch =
        [.badDuration long.duration v.limits.maxDuration, .badFileName] ∧
      refused = (.error (.badDuration long.duration v.limits.maxDuration), store) ∧
      ∃ m, taken.1 = .ok m ∧ store.contents.Adds m taken.2.contents := by
  intro v store long refused taken
  have hobstacles : (file long).obstacles v .trial .epoch =
      [.badDuration long.duration v.limits.maxDuration, .badFileName] := by decide +kernel
  have hlong : Fits v .trial (file long) := by
    intro data pinHash hprepared
    have hflaws := head?_reasons_prepared v .trial (file long)
    rw [hprepared] at hflaws
    have hflawed : (flaws v .trial (file long)).head? ≠ none := by decide +kernel
    exact absurd hflaws.symm hflawed
  have htext : Fits v .trial (text (.trial [1, 2])) := by
    intro data pinHash hprepared t
    rw [prepared_plainTrial 3] at hprepared
    obtain ⟨rfl, rfl⟩ := Prod.mk.inj (Except.ok.inj hprepared)
    exact Message.fits_plainTrial.redated t
  have hnow : Instant.epoch.isLeap = false := rfl
  have hrefused := (taken_in_or_refused hnow hlong store).1 _ (congrArg List.head? hobstacles)
  obtain ⟨m, -, htaken⟩ := (taken_in_or_refused hnow htext store).2 (by decide +kernel)
  refine ⟨hobstacles, hrefused, m, ?_⟩
  rcases htaken with ⟨e, hsave, -⟩ | ⟨hm, -, -, hadds⟩
  · have haccepted : (store.answer (.save m)).1 = .ok () := rfl
    rw [haccepted] at hsave
    contradiction
  · exact ⟨hm, hadds⟩

end ReadOnce
