import ReadOnce.Store.Contents

/-!
# What a table refuses

A request that something stands against fails and changes nothing; any other is carried out
(`Table.answer_cases`). Whether something does depends on the request, on the row under its key, and
on whether the table is only read, which never changes. A refusal is never taken for a missing
message, nor for a closed store.

Memory and trees refuse nothing. Contents serve a key if they do not refuse to drop what is under
it: the key is not too long and they are not only read. They do not refuse to load what is under
such a key either, and they serve every key at which something was saved
(`Contents.serves_of_saved`).
-/

namespace ReadOnce

namespace Table

variable {t : Table} {r : Request} {e : StoreError} {key : Key}

theorem answer_of_refused (h : t.refusal? r = some e) : t.answer r = (.error e, t) := by
  simp only [answer, h]

theorem answer_of_taken (h : t.refusal? r = none) : t.answer r = t.perform r := by
  simp only [answer, h]

/-- A request is refused or carried out. -/
theorem answer_cases (t : Table) (r : Request) :
    (∃ e, t.refusal? r = some e ∧ t.answer r = (.error e, t)) ∨
      t.refusal? r = none ∧ t.answer r = t.perform r := by
  cases h : t.refusal? r with
  | none => exact .inr ⟨rfl, answer_of_taken h⟩
  | some e => exact .inl ⟨e, rfl, answer_of_refused h⟩

/-- What holds of a table and stays so when a request is carried out holds once it is answered. -/
theorem answer_snd_of {P : Table → Prop} (h : P t) (hperform : P (t.perform r).2) :
    P (t.answer r).2 := by
  obtain ⟨e, -, heq⟩ | ⟨-, heq⟩ := t.answer_cases r
  · rwa [heq]
  · rwa [heq]

/-! ### What stays -/

@[simp] theorem version_perform (t : Table) (r : Request) :
    (t.perform r).2.version = t.version := by
  cases r with
  | save m =>
      simp only [perform_save, save]
      split
      · rfl
      · split <;> rfl
  | load key => rfl
  | increment key =>
      simp only [perform_increment, increment]
      split <;> rfl
  | remove key => rfl
  | purge now => rfl

@[simp] theorem isReadOnly_perform (t : Table) (r : Request) :
    (t.perform r).2.isReadOnly = t.isReadOnly := by
  cases r with
  | save m =>
      simp only [perform_save, save]
      split
      · rfl
      · split <;> rfl
  | load key => rfl
  | increment key =>
      simp only [perform_increment, increment]
      split <;> rfl
  | remove key => rfl
  | purge now => rfl

@[simp] theorem version_answer (t : Table) (r : Request) : (t.answer r).2.version = t.version :=
  answer_snd_of (P := fun t' => t'.version = t.version) rfl (t.version_perform r)

@[simp] theorem isReadOnly_answer (t : Table) (r : Request) :
    (t.answer r).2.isReadOnly = t.isReadOnly :=
  answer_snd_of (P := fun t' => t'.isReadOnly = t.isReadOnly) rfl (t.isReadOnly_perform r)

@[simp] theorem answer_load_snd (t : Table) (key : Key) : (t.answer (.load key)).2 = t :=
  answer_snd_of (P := (· = t)) rfl rfl

/-! ### What stands against a request -/

theorem obstacle?_of_readOnly (h : t.isReadOnly = true) (hr : r.isChange = true) :
    ∃ why, t.obstacle? r = some why := by
  unfold obstacle?
  cases r.valueSizes.findSome? overlong? with
  | none => exact ⟨readOnly, by simp [h, hr]⟩
  | some why => exact ⟨why, rfl⟩

/-- A table that is only read stays as it is. -/
theorem answer_snd_of_readOnly (h : t.isReadOnly = true) (r : Request) : (t.answer r).2 = t := by
  obtain ⟨e, -, heq⟩ | ⟨htaken, heq⟩ := t.answer_cases r
  · rw [heq]
  · rw [heq]
    cases r with
    | load key => rfl
    | save m =>
        -- Only a deadline that cannot be kept is found out before.
        obtain ⟨why, hwhy⟩ := obstacle?_of_readOnly h (r := .save m) rfl
        cases hexp : nanos? m.expiresAt with
        | none => simp only [perform_save, save, hexp]
        | some exp => simp [refusal?, hexp, hwhy] at htaken
    | increment key =>
        obtain ⟨why, hwhy⟩ := obstacle?_of_readOnly h (r := .increment key) rfl
        simp [refusal?, hwhy] at htaken
    | remove key =>
        obtain ⟨why, hwhy⟩ := obstacle?_of_readOnly h (r := .remove key) rfl
        simp [refusal?, hwhy] at htaken
    | purge now =>
        obtain ⟨why, hwhy⟩ := obstacle?_of_readOnly h (r := .purge now) rfl
        simp [refusal?, hwhy] at htaken

/-- Nothing but a key that is too long stands against a load. -/
theorem refusal?_load (t : Table) (key : Key) :
    t.refusal? (.load key) = (overlong? key.text.utf8ByteSize).map failure := by
  simp [refusal?, obstacle?, Request.valueSizes, Request.isChange, written?]

theorem refusal?_load_eq_none_iff :
    t.refusal? (.load key) = none ↔ overlong? key.text.utf8ByteSize = none := by
  simp [refusal?_load]

theorem refusal?_remove_eq_none_iff :
    t.refusal? (.remove key) = none ↔
      overlong? key.text.utf8ByteSize = none ∧ t.isReadOnly = false := by
  simp [refusal?, obstacle?, Request.valueSizes, Request.isChange, written?]

/-- What is not refused to be dropped is not refused to be counted on either, unless its row would
be too big. -/
theorem refusal?_increment_eq_none_iff :
    t.refusal? (.increment key) = none ↔
      t.refusal? (.remove key) = none ∧
        ∀ row, t.find? key = some row → row.increment.isTooBig = false := by
  rw [refusal?_remove_eq_none_iff]
  cases hrow : t.find? key <;>
    simp [refusal?, obstacle?, Request.valueSizes, Request.isChange, written?, hrow, and_assoc]

theorem refusal?_purge_eq_none_iff {now : Instant} :
    t.refusal? (.purge now) = none ↔ t.isReadOnly = false := by
  simp [refusal?, obstacle?, Request.valueSizes, Request.isChange, written?]

theorem refusal?_remove_of_saved {m : Message} (h : (t.answer (.save m)).1 = .ok ()) :
    t.refusal? (.remove m.key) = none := by
  obtain ⟨e, -, heq⟩ | ⟨htaken, heq⟩ := t.answer_cases (.save m)
  · simp [heq] at h
  · cases hexp : nanos? m.expiresAt with
    | none => simp [heq, save, hexp] at h
    | some exp =>
        rw [refusal?_remove_eq_none_iff]
        simp [refusal?, hexp, obstacle?, Request.valueSizes, Request.isChange] at htaken
        exact ⟨htaken.1.1, htaken.2.1⟩

/-- A row that is added is not too big. -/
theorem size_of_saved {m : Message} {exp : Int64} (h : t.refusal? (.save m) = none)
    (hexp : nanos? m.expiresAt = some exp) (new : t.find? m.key = none) :
    (Row.ofMessage m exp).isTooBig = false := by
  simp [refusal?, hexp, obstacle?, written?, new] at h
  exact h.2.2

theorem answer_snd_of_error_of_remove (h : (t.answer (.remove key)).1 = .error e) :
    (t.answer (.remove key)).2 = t := by
  obtain ⟨e, -, heq⟩ | ⟨-, heq⟩ := t.answer_cases (.remove key)
  · rw [heq]
  · simp [heq] at h

theorem answer_snd_of_error_of_purge {now : Instant} (h : (t.answer (.purge now)).1 = .error e) :
    (t.answer (.purge now)).2 = t := by
  obtain ⟨e, -, heq⟩ | ⟨-, heq⟩ := t.answer_cases (.purge now)
  · rw [heq]
  · simp [heq] at h

/-- A hash of so many bytes is not kept. -/
theorem refusal?_save_of_long_hash {m : Message} (hexp : (nanos? m.expiresAt).isSome = true)
    (hlong : maxSize < m.pinHash.utf8ByteSize) : ∃ e, t.refusal? (.save m) = some e := by
  have hoverlong : (overlong? m.pinHash.utf8ByteSize).isSome = true := by
    unfold overlong?
    rw [if_pos hlong]
    split <;> rfl
  obtain ⟨why, hwhy⟩ : ∃ why, t.obstacle? (.save m) = some why := by
    obtain ⟨why, hwhy⟩ : ∃ why, (Request.save m).valueSizes.findSome? overlong? = some why := by
      rw [← Option.isSome_iff_exists, List.findSome?_isSome_iff]
      exact ⟨_, by simp [Request.valueSizes], hoverlong⟩
    exact ⟨why, by simp [obstacle?, hwhy]⟩
  obtain ⟨exp, hexp⟩ := Option.isSome_iff_exists.1 hexp
  exact ⟨.saveRejected why, by simp [refusal?, hexp, hwhy]⟩

theorem refusal?_save_eq_some {m : Message} (h : t.refusal? (.save m) = some e) :
    ∃ why, e = .saveRejected why := by
  simp only [refusal?] at h
  split at h
  · contradiction
  · obtain ⟨why, -, rfl⟩ := Option.map_eq_some_iff.1 h
    exact ⟨why, rfl⟩

theorem refusal?_eq_some_of_ne_save (h : t.refusal? r = some e) (hr : ∀ m, r ≠ .save m) :
    ∃ why, e = failure why := by
  cases r with
  | save m => exact absurd rfl (hr m)
  | _ =>
      obtain ⟨why, -, rfl⟩ := Option.map_eq_some_iff.1 h
      exact ⟨why, rfl⟩

theorem refusal?_ne_loadRejected : t.refusal? r ≠ some .loadRejected := by
  intro h
  cases r with
  | save m =>
      obtain ⟨why, hwhy⟩ := refusal?_save_eq_some h
      contradiction
  | _ =>
      obtain ⟨why, hwhy⟩ := refusal?_eq_some_of_ne_save h (by simp)
      contradiction

end Table

namespace Contents

/-- The failure of a request that something stands against. -/
def refusal? : Contents → Request → Option StoreError
  | table t, r => t.refusal? r
  | _, _ => none

/-- Whether messages are kept in a table. -/
def isTable : Contents → Bool
  | table _ => true
  | _ => false

/-- Whether messages are only read. -/
def isReadOnly : Contents → Bool
  | table t => t.isReadOnly
  | _ => false

/-- Contents do not refuse to drop what is under a key. -/
def Serves (c : Contents) (key : Key) : Prop :=
  c.refusal? (.remove key) = none

section Forms

variable (s : Shelf) (tr : Trees) (t : Table) (r : Request)

@[simp] theorem refusal?_shelf : (shelf s).refusal? r = none := rfl

@[simp] theorem refusal?_trees : (trees tr).refusal? r = none := rfl

@[simp] theorem refusal?_table : (table t).refusal? r = t.refusal? r := rfl

@[simp] theorem isReadOnly_shelf : (shelf s).isReadOnly = false := rfl

@[simp] theorem isReadOnly_trees : (trees tr).isReadOnly = false := rfl

@[simp] theorem isReadOnly_table : (table t).isReadOnly = t.isReadOnly := rfl

end Forms

variable {c : Contents} {r : Request} {e : StoreError} {key : Key} {m : Message}

@[simp] theorem isTable_answer (c : Contents) (r : Request) :
    (c.answer r).2.isTable = c.isTable := by
  cases c <;> rfl

/-- Only a table refuses anything. -/
theorem refusal?_of_isTable_eq_false (h : c.isTable = false) (r : Request) :
    c.refusal? r = none := by
  cases c with
  | table t => contradiction
  | _ => rfl

theorem answer_of_refused (h : c.refusal? r = some e) : c.answer r = (.error e, c) := by
  cases c with
  | table t => rw [answer_table, Table.answer_of_refused h]
  | _ => contradiction

/-- A table carries out what it does not refuse. -/
theorem answer_table_of_taken {t : Table} (h : (table t).refusal? r = none) :
    (table t).answer r = ((t.perform r).1, table (t.perform r).2) := by
  rw [answer_table, Table.answer_of_taken h]

@[simp] theorem isReadOnly_answer (c : Contents) (r : Request) :
    (c.answer r).2.isReadOnly = c.isReadOnly := by
  cases c with
  | table t => exact t.isReadOnly_answer r
  | _ => rfl

/-- Contents that are only read stay as they are. -/
theorem answer_snd_of_readOnly (h : c.isReadOnly = true) (r : Request) : (c.answer r).2 = c := by
  cases c with
  | table t => rw [answer_table, Table.answer_snd_of_readOnly h]
  | _ => contradiction

theorem refusal?_ne_loadRejected : c.refusal? r ≠ some .loadRejected := by
  cases c with
  | table t => exact Table.refusal?_ne_loadRejected
  | _ => simp

/-! ### The keys that are served -/

/-- Which keys are served stays the same. -/
@[simp] theorem serves_answer_iff : (c.answer r).2.Serves key ↔ c.Serves key := by
  cases c with
  | table t => simp [Serves, Table.refusal?_remove_eq_none_iff]
  | _ => exact iff_of_true rfl rfl

theorem Serves.answer (h : c.Serves key) (r : Request) : (c.answer r).2.Serves key :=
  serves_answer_iff.2 h

theorem serves_of_saved (h : (c.answer (.save m)).1 = .ok ()) : c.Serves m.key := by
  cases c with
  | table t => exact Table.refusal?_remove_of_saved h
  | _ => rfl

theorem Serves.load (h : c.Serves key) : c.refusal? (.load key) = none := by
  cases c with
  | table t => exact Table.refusal?_load_eq_none_iff.2 (Table.refusal?_remove_eq_none_iff.1 h).1
  | _ => rfl

/-- A key that is not served is too long even to be loaded, or everything is only read. -/
theorem refusal?_load_or_isReadOnly (h : ¬ c.Serves key) :
    (∃ e, c.refusal? (.load key) = some e) ∨ c.isReadOnly = true := by
  cases c with
  | table t =>
      rw [Serves, refusal?_table, Table.refusal?_remove_eq_none_iff] at h
      rw [refusal?_table, Table.refusal?_load, isReadOnly_table]
      cases hlong : Table.overlong? key.text.utf8ByteSize with
      | some why => exact .inl ⟨_, rfl⟩
      | none => exact .inr (by simpa [hlong] using h)
  | _ => exact absurd rfl h

theorem serves_of_increment (h : c.refusal? (.increment key) = none) : c.Serves key := by
  cases c with
  | table t => exact (Table.refusal?_increment_eq_none_iff.1 h).1
  | _ => rfl

end Contents

end ReadOnce
