import ReadOnce.Proofs.Message.Codec
import ReadOnce.Proofs.Store.Lookup
import ReadOnce.Proofs.Store.Row
import ReadOnce.Proofs.Time.Instant

/-!
# The record under a key

What a store of any of the three forms says about one key. A `Slot` is what is kept under the key,
in the form of the store. `Contents.has` tells whether there is anything in it, and `Contents.Keeps`
that there is exactly one record, which reads as a given message. Every operation is described by
what it does to these, so that nothing that is proved of a vault has to look into the forms again.

A table keeps deadlines in nanoseconds. An instant within a leap second has no number of its own
there and comes back as a later one, and so does one from trees in a leap second that the calendar
does not have. Every other deadline that is accepted comes back as it was.

A purge is not one step everywhere: in memory each message is looked at and dropped by itself, and
so is each entry of an index. `Contents.purgeStep` is one such step.
-/

namespace ReadOnce

/-- What is kept under a key. -/
inductive Slot where
  | message (m : Option Message)
  | bytes (b : Option Bytes)
  | rows (rows : List Table.Row)

namespace Slot

/-- Whether there is anything in a slot. -/
def isFull : Slot → Bool
  | message m => m.isSome
  | bytes b => b.isSome
  | rows rs => !rs.isEmpty

/-- The slot of the same form with nothing in it. -/
def emptied : Slot → Slot
  | message _ => message none
  | bytes _ => bytes none
  | rows _ => rows []

/-- A slot holds one record, which reads as the message. -/
def Reads (key : Key) (m : Message) : Slot → Prop
  | message n => n = some m
  | bytes b => ∃ b', b = some b' ∧ Message.decode b' = .ok m
  | rows rs => ∃ row, rs = [row] ∧ row.message key = .ok m

/-- What dropping some of a slot may leave of it. -/
inductive Drops : Slot → Slot → Prop where
  | message {m m' : Option Message} (h : m' = m ∨ m' = none) : Drops (message m) (message m')
  | bytes {b b' : Option Bytes} (h : b' = b ∨ b' = none) : Drops (bytes b) (bytes b')
  | rows {rs rs' : List Table.Row} (h : rs'.Sublist rs) : Drops (rows rs) (rows rs')

variable {s s' : Slot} {key : Key} {m : Message}

@[simp] theorem isFull_emptied (s : Slot) : s.emptied.isFull = false := by
  cases s <;> rfl

theorem eq_emptied (h : s.isFull = false) : s = s.emptied := by
  cases s <;> simp_all [isFull, emptied]

theorem Reads.isFull (h : s.Reads key m) : s.isFull = true := by
  cases s with
  | message n =>
      obtain rfl : n = some m := h
      rfl
  | bytes b =>
      obtain ⟨b', rfl, -⟩ := h
      rfl
  | rows rs =>
      obtain ⟨row, rfl, -⟩ := h
      rfl

theorem Drops.isFull_eq_false (h : Drops s s') (hs : s.isFull = false) : s'.isFull = false := by
  cases h with
  | message h => rcases h with rfl | rfl <;> simp_all [isFull]
  | bytes h => rcases h with rfl | rfl <;> simp_all [isFull]
  | rows h => simp_all [isFull]

/-- One record is left as it is, or nothing is left. -/
theorem Drops.eq_or (h : Drops s s') (hs : s.Reads key m) : s' = s ∨ s' = s.emptied := by
  cases h with
  | message h =>
      rcases h with rfl | rfl
      · exact .inl rfl
      · exact .inr rfl
  | bytes h =>
      rcases h with rfl | rfl
      · exact .inl rfl
      · exact .inr rfl
  | rows h =>
      obtain ⟨row, rfl, -⟩ := hs
      cases h with
      | cons _ h => exact .inr (by rw [List.sublist_nil.1 h]; rfl)
      | cons_cons _ h => exact .inl (by rw [List.sublist_nil.1 h])

theorem Drops.reads_or (h : Drops s s') (hs : s.Reads key m) :
    s'.Reads key m ∨ s'.isFull = false := by
  rcases h.eq_or hs with rfl | rfl
  · exact .inl hs
  · exact .inr s.isFull_emptied

end Slot

namespace Contents

/-- Whether a deadline that is given to contents comes back as another one. -/
def shifts : Contents → Instant → Bool
  | shelf _, _ => false
  | trees _, t => !decide t.IsOnCalendar
  | table _, t => t.isLeap

/-- What is kept under a key. -/
def slot : Contents → Key → Slot
  | shelf s, key => .message (s.find? key)
  | trees t, key => .bytes (t.bytesAt key)
  | table t, key => .rows (t.rowsAt key)

/-- Whether there is anything under a key. -/
def has (c : Contents) (key : Key) : Bool :=
  (c.slot key).isFull

/-- There is one record under a key, and it reads as the message. -/
def Keeps (c : Contents) (key : Key) (m : Message) : Prop :=
  (c.slot key).Reads key m

/-- One step of a purge that lets other callers in between: a message in memory or an entry of an
index is looked at, and dropped if it has to go. A table is purged at once. -/
def purgeStep (c : Contents) (now : Instant) (place : Bytes) : Contents :=
  match c with
  | shelf s => shelf (s.filter fun m => !(Text.utf8 m.key.text == place && m.isExpired now))
  | trees t => trees (t.purgeEntry now place).2
  | table t => table t

section Forms

variable (s : Shelf) (tr : Trees) (t : Table) (key : Key)

@[simp] theorem slot_shelf : (shelf s).slot key = .message (s.find? key) := rfl

@[simp] theorem slot_trees : (trees tr).slot key = .bytes (tr.bytesAt key) := rfl

@[simp] theorem slot_table : (table t).slot key = .rows (t.rowsAt key) := rfl

@[simp] theorem has_shelf : (shelf s).has key = (s.find? key).isSome := rfl

@[simp] theorem has_trees : (trees tr).has key = (tr.bytesAt key).isSome := rfl

@[simp] theorem has_table : (table t).has key = !(t.rowsAt key).isEmpty := rfl

end Forms

variable {c : Contents} {key : Key} {m : Message}

theorem shelf_has_eq_false_iff {s : Shelf} : (shelf s).has key = false ↔ s.find? key = none := by
  simp

theorem trees_has_eq_false_iff {t : Trees} : (trees t).has key = false ↔ t.bytesAt key = none := by
  simp

theorem table_has_eq_false_iff {t : Table} : (table t).has key = false ↔ t.rowsAt key = [] := by
  simp

/-- Outside leap seconds every deadline comes back as it was. -/
theorem shifts_of_isLeap_eq_false (c : Contents) {t : Instant} (h : t.isLeap = false) :
    c.shifts t = false := by
  cases c with
  | shelf s => rfl
  | trees tr => simp [shifts, Instant.isOnCalendar_of_isLeap_eq_false h]
  | table tb => exact h

theorem has_of_keeps (h : c.Keeps key m) : c.has key = true :=
  Slot.Reads.isFull h

@[simp] theorem answer_load_snd (c : Contents) (key : Key) : (c.answer (.load key)).2 = c := by
  cases c with
  | shelf s => cases h : s.find? key <;> simp [h]
  | trees t => simp
  | table t => simp

theorem answer_load_of_keeps (htaken : c.refusal? (.load key) = none) (h : c.Keeps key m) :
    (c.answer (.load key)).1 = .ok m := by
  cases c with
  | shelf s =>
      have h : s.find? key = some m := h
      simp [h]
  | trees t =>
      obtain ⟨b, hb, hm⟩ := h
      simp [Trees.load_of_bytesAt hb, hm]
  | table t =>
      obtain ⟨row, hrow, hm⟩ := h
      have hrow : t.rowsAt key = [row] := hrow
      rw [answer_table_of_taken htaken]
      simp [Table.load_of_rowsAt hrow, hm]

/-- A key is missing if loading it says so; a record that does not read fails otherwise. -/
theorem has_eq_false_of_load (h : (c.answer (.load key)).1 = .error .loadRejected) :
    c.has key = false := by
  cases c with
  | shelf s =>
      cases hfind : s.find? key with
      | none => simp [hfind]
      | some m => simp [hfind] at h
  | trees t =>
      cases hb : t.bytesAt key with
      | none => simp [hb]
      | some b =>
          cases hm : Message.decode b <;>
            simp [Trees.load_of_bytesAt hb, hm, Trees.unreadable] at h
  | table t =>
      obtain ⟨e, hrefused, heq⟩ | ⟨-, heq⟩ := t.answer_cases (.load key)
      · obtain rfl : e = .loadRejected := by simpa [heq] using h
        exact absurd hrefused Table.refusal?_ne_loadRejected
      · cases hrows : t.rowsAt key with
        | nil => simp [hrows]
        | cons row rows =>
            simp [heq, Table.load_of_rowsAt hrows, Table.message_ne_loadRejected] at h

theorem answer_load_of_missing (htaken : c.refusal? (.load key) = none) (h : c.has key = false) :
    (c.answer (.load key)).1 = .error .loadRejected := by
  cases c with
  | shelf s => simp [shelf_has_eq_false_iff.1 h]
  | trees t => simp [Trees.load_of_missing (trees_has_eq_false_iff.1 h)]
  | table t =>
      rw [answer_table_of_taken htaken]
      simp [Table.load_of_missing (table_has_eq_false_iff.1 h)]

/-- A key that is served is missing exactly if loading it says so. -/
theorem answer_load_eq_loadRejected_iff (hserves : c.Serves key) :
    (c.answer (.load key)).1 = .error .loadRejected ↔ c.has key = false :=
  ⟨has_eq_false_of_load, answer_load_of_missing hserves.load⟩

theorem has_of_load (h : (c.answer (.load key)).1 = .ok m) : c.has key = true := by
  cases hhas : c.has key with
  | true => rfl
  | false =>
      cases hrefusal : c.refusal? (.load key) with
      | none => simp [answer_load_of_missing hrefusal hhas] at h
      | some e => simp [answer_of_refused hrefusal] at h

/-- Dropping a message tells whether there was one, and nothing is left of it. -/
theorem answer_remove (hserves : c.Serves key) :
    (c.answer (.remove key)).1 = .ok (c.has key) ∧
      (c.answer (.remove key)).2.has key = false := by
  cases c with
  | shelf s =>
      have hfind := s.find?_filter (·.key != key) key
      cases h : s.find? key with
      | none => simp [hfind, h]
      | some m => simp [hfind, h, Option.filter_some, Shelf.key_of_find? h]
  | trees t =>
      have hbytes : t.bytesAt key = t.messages.get? (Text.utf8 key.text) := rfl
      cases h : t.messages.get? (Text.utf8 key.text) <;>
        simp [Trees.remove, Trees.bytesAt, h, Tree.get?_erase_self]
  | table t =>
      rw [answer_table_of_taken hserves, Table.perform_remove, has_table, has_table,
        t.rowsAt_remove_self key, ← t.isSome_find? key]
      exact ⟨rfl, rfl⟩

/-- A request about another key leaves a slot alone. -/
theorem slot_answer_of_ne {r : Request} {key' : Key} (hr : r.key? = some key') (hne : key' ≠ key) :
    (c.answer r).2.slot key = c.slot key := by
  cases c with
  | shelf s => exact congrArg Slot.message (s.find?_answer_of_ne hr hne)
  | trees t => exact congrArg Slot.bytes (t.bytesAt_answer_of_ne hr hne)
  | table t => exact congrArg Slot.rows (t.rowsAt_answer_of_ne hr hne)

theorem drops_of_filter (s : Shelf) (keep : Message → Bool) (key : Key) :
    (Slot.message (s.find? key)).Drops (.message ((s.filter keep).find? key)) := by
  apply Slot.Drops.message
  rw [Shelf.find?_filter]
  cases s.find? key with
  | none => exact .inl rfl
  | some m => cases hkeep : keep m <;> simp [Option.filter_some, hkeep]

theorem slot_purge (c : Contents) (now : Instant) (key : Key) :
    (c.slot key).Drops ((c.answer (.purge now)).2.slot key) := by
  cases c with
  | shelf s => exact drops_of_filter s _ key
  | trees t => exact .bytes (t.bytesAt_purge now key)
  | table t =>
      apply Slot.Drops.rows
      refine Table.answer_snd_of (P := fun t' => (t'.rowsAt key).Sublist (t.rowsAt key))
        (.refl _) ?_
      rw [Table.perform_purge, Table.purge, Table.rowsAt_filter]
      exact List.filter_sublist

theorem slot_purgeStep (c : Contents) (now : Instant) (place : Bytes) (key : Key) :
    (c.slot key).Drops ((c.purgeStep now place).slot key) := by
  cases c with
  | shelf s => exact drops_of_filter s _ key
  | trees t => exact .bytes (t.bytesAt_purgeEntry now place key)
  | table t => exact .rows (.refl _)

/-- Nothing is written to count on what is missing. -/
theorem refusal?_increment_of_missing (hserves : c.Serves key) (h : c.has key = false) :
    c.refusal? (.increment key) = none := by
  cases c with
  | shelf s => rfl
  | trees t => rfl
  | table t =>
      refine Table.refusal?_increment_eq_none_iff.2 ⟨hserves, fun row hrow => ?_⟩
      rw [Table.find?_eq_head?, table_has_eq_false_iff.1 h] at hrow
      contradiction

@[simp] theorem serves_purgeStep_iff {now : Instant} {place : Bytes} :
    (c.purgeStep now place).Serves key ↔ c.Serves key := by
  cases c <;> rfl

@[simp] theorem isReadOnly_purgeStep (c : Contents) (now : Instant) (place : Bytes) :
    (c.purgeStep now place).isReadOnly = c.isReadOnly := by
  cases c <;> rfl

theorem purgeStep_of_readOnly {now : Instant} {place : Bytes} (h : c.isReadOnly = true) :
    c.purgeStep now place = c := by
  cases c with
  | table t => rfl
  | _ => contradiction

theorem answer_increment_of_missing (hserves : c.Serves key) (h : c.has key = false) :
    c.answer (.increment key) = (.error .loadRejected, c) := by
  cases c with
  | shelf s => simp [shelf_has_eq_false_iff.1 h]
  | trees t => simp [Trees.increment, Trees.load_of_missing (trees_has_eq_false_iff.1 h)]
  | table t =>
      rw [answer_table_of_taken (refusal?_increment_of_missing hserves h)]
      simp [Table.increment, Table.find?_eq_head?, table_has_eq_false_iff.1 h]

theorem answer_increment_snd_of_missing (h : c.has key = false) :
    (c.answer (.increment key)).2 = c := by
  cases hrefusal : c.refusal? (.increment key) with
  | none => rw [answer_increment_of_missing (serves_of_increment hrefusal) h]
  | some e => rw [answer_of_refused hrefusal]

theorem answer_increment_fst_of_missing (h : c.has key = false) :
    ∃ e, (c.answer (.increment key)).1 = .error e := by
  cases hrefusal : c.refusal? (.increment key) with
  | none => exact ⟨_, by rw [answer_increment_of_missing (serves_of_increment hrefusal) h]⟩
  | some e => exact ⟨e, by rw [answer_of_refused hrefusal]⟩

/-- Nothing but saving puts anything under a key. -/
theorem has_answer_eq_false {r : Request} (hr : ∀ m, r = .save m → m.key ≠ key)
    (h : c.has key = false) : (c.answer r).2.has key = false := by
  cases hkey : r.key? with
  | none =>
      cases r with
      | purge now => exact (slot_purge c now key).isFull_eq_false h
      | _ => contradiction
  | some key' =>
      by_cases hne : key' = key
      · subst hne
        cases r with
        | save m => exact absurd (Option.some.inj hkey) (hr m rfl)
        | load k => rwa [answer_load_snd]
        | increment k =>
            obtain rfl : k = key' := Option.some.inj hkey
            rwa [answer_increment_snd_of_missing h]
        | remove k =>
            obtain rfl : k = key' := Option.some.inj hkey
            cases hserves : c.refusal? (.remove k) with
            | none => exact (answer_remove hserves).2
            | some e => rwa [answer_of_refused hserves]
        | purge now => contradiction
      · rw [has, slot_answer_of_ne hkey hne]
        exact h

theorem has_purgeStep_eq_false (now : Instant) (place : Bytes) (h : c.has key = false) :
    (c.purgeStep now place).has key = false :=
  (slot_purgeStep c now place key).isFull_eq_false h

/-- A request about other keys, or about none, leaves a record as it is or takes it away. -/
theorem keeps_answer_of_ne {r : Request} (hr : r.key? ≠ some key) (h : c.Keeps key m) :
    (c.answer r).2.Keeps key m ∨ (c.answer r).2.has key = false := by
  cases hkey : r.key? with
  | none =>
      cases r with
      | purge now => exact (slot_purge c now key).reads_or h
      | _ => contradiction
  | some key' =>
      have hne : key' ≠ key := fun heq => hr (hkey.trans (congrArg some heq))
      rw [Keeps, slot_answer_of_ne hkey hne]
      exact .inl h

theorem keeps_purgeStep (now : Instant) (place : Bytes) (h : c.Keeps key m) :
    (c.purgeStep now place).Keeps key m ∨ (c.purgeStep now place).has key = false :=
  (slot_purgeStep c now place key).reads_or h

/-- What is saved was missing, and is there from then on in the form of the store. -/
theorem slot_save (h : (c.answer (.save m)).1 = .ok ()) :
    c.has m.key = false ∧
      ((c.answer (.save m)).2.slot m.key = .message (some m) ∨
        (c.answer (.save m)).2.slot m.key = .bytes (some m.encode) ∨
        ∃ exp, Table.nanos? m.expiresAt = some exp ∧
          (c.answer (.save m)).2.slot m.key = .rows [Table.Row.ofMessage m exp]) := by
  cases c with
  | shelf s =>
      simp only [answer, Shelf.answer] at h ⊢
      split at h
      · contradiction
      · rename_i new
        simp [new, Shelf.find?_insert]
  | trees t =>
      cases hget : t.messages.get? (Text.utf8 m.key.text) with
      | some b => simp [Trees.save, hget] at h
      | none => simp [Trees.save, hget, Trees.bytesAt, Tree.get?_insert_self]
  | table t =>
      obtain ⟨e, -, heq⟩ | ⟨htaken, heq⟩ := t.answer_cases (.save m)
      · simp [heq] at h
      cases hexp : Table.nanos? m.expiresAt with
      | none => simp [heq, Table.save, hexp] at h
      | some exp =>
          cases hrows : t.rowsAt m.key with
          | cons row rows => simp [heq, Table.save, hexp, Table.find?_eq_head?, hrows] at h
          | nil =>
              simp [heq, Table.save, hexp, Table.find?_eq_head?, hrows, Table.rowsAt_append]

/-- What is saved is kept. Its deadline is kept with the same nanoseconds and never as an earlier
one. -/
theorem keeps_save (hfits : m.Fits) (h : (c.answer (.save m)).1 = .ok ()) :
    ∃ t, m.expiresAt ≤ t ∧ t.unixNanos = m.expiresAt.unixNanos ∧
      (t = m.expiresAt ↔ c.shifts m.expiresAt = false) ∧
      (c.answer (.save m)).2.Keeps m.key { m with expiresAt := t } := by
  have hslot := (slot_save h).2
  cases c with
  | shelf s =>
      refine ⟨m.expiresAt, Instant.le_refl _, rfl, iff_of_true rfl rfl, ?_⟩
      rcases hslot with hslot | hslot | ⟨_, -, hslot⟩
      · rw [Keeps, hslot]
        rfl
      · contradiction
      · contradiction
  | trees t =>
      refine ⟨m.expiresAt.onCalendar, m.expiresAt.le_onCalendar, m.expiresAt.unixNanos_onCalendar,
        ?_, ?_⟩
      · simp [shifts, Instant.onCalendar_eq_self_iff]
      rcases hslot with hslot | hslot | ⟨_, -, hslot⟩
      · contradiction
      · rw [Keeps, hslot]
        have hread := Message.decode_encode hfits.isExact_onCalendar
        rw [Message.encode_onCalendar] at hread
        exact ⟨m.encode, rfl, hread⟩
      · contradiction
  | table t =>
      rcases hslot with hslot | hslot | ⟨exp, hexp, hslot⟩
      · contradiction
      · contradiction
      · refine ⟨Table.instantOf exp, Table.le_instantOf hexp, ?_, ?_, ?_⟩
        · rw [Table.unixNanos_instantOf]
          exact Table.toInt_of_nanos? hexp
        · exact Table.instantOf_eq_iff hexp
        · rw [Keeps, hslot]
          exact ⟨_, rfl, Table.message_ofMessage m exp⟩

/-- Counting a wrong pin changes the count and nothing else. -/
theorem keeps_increment (htaken : c.refusal? (.increment key) = none) (hkey : m.key = key)
    (hfits : m.Fits) (hroom : m.errors.toNat + 1 < 4294967296) (h : c.Keeps key m) :
    (c.answer (.increment key)).1 = .ok (m.errors + 1) ∧
      (c.answer (.increment key)).2.Keeps key { m with errors := m.errors + 1 } := by
  cases c with
  | shelf s =>
      have hfind : s.find? key = some m := h
      have hinc := s.find?_increment key key
      rw [hfind, Option.map_some, if_pos hkey] at hinc
      simp only [answer_shelf, Shelf.answer_increment_of_find? hfind]
      exact ⟨trivial, hinc⟩
  | trees t =>
      obtain ⟨b, hb, hm⟩ := h
      simp only [answer_trees, Trees.answer_increment, Trees.increment_of_bytesAt hb hm]
      have hexact : m.IsExact := ⟨hfits, Message.isOnCalendar_of_decode hm⟩
      exact ⟨trivial, _, Tree.get?_insert_self .., Message.decode_encode (hexact.recounted _)⟩
  | table t =>
      obtain ⟨row, hrow, hm⟩ := h
      have hrow : t.rowsAt key = [row] := hrow
      have hat := Table.isAt_of_rowsAt hrow
      have hm := Table.message_increment hm hroom
      obtain ⟨exp, -, -, -, hcount, -⟩ := Table.message_eq_ok_iff.1 hm
      rw [answer_table_of_taken htaken]
      simp only [Table.perform_increment, Table.increment, Table.find?_eq_head?, hrow,
        List.head?_cons]
      refine ⟨Table.Column.count_eq_ok_of _ _ hcount, row.increment, ?_, hm⟩
      simp [Table.rowsAt_increment, hrow, hat]

end Contents

/-- A store that has been closed answers nothing. -/
theorem Store.answer_of_closed {s : Store} (h : s.isClosed = true) (r : Request) :
    s.answer r = (.error .closed, s) :=
  if_pos h

/-- A store that is not closed answers as its contents do. -/
theorem Store.answer_of_open {s : Store} (h : s.isClosed = false) (r : Request) :
    s.answer r = ((s.contents.answer r).1, ⟨(s.contents.answer r).2, false⟩) := by
  obtain ⟨c, isClosed⟩ := s
  subst h
  rfl

@[simp] theorem Store.serves_answer_iff {s : Store} {r : Request} {key : Key} :
    (s.answer r).2.contents.Serves key ↔ s.contents.Serves key := by
  cases h : s.isClosed with
  | false => simp [Store.answer_of_open h]
  | true => rw [Store.answer_of_closed h]

@[simp] theorem Store.isTable_answer (s : Store) (r : Request) :
    (s.answer r).2.contents.isTable = s.contents.isTable := by
  cases h : s.isClosed with
  | false => simp [Store.answer_of_open h]
  | true => rw [Store.answer_of_closed h]

/-- No answer opens or closes a store. -/
@[simp] theorem Store.isClosed_answer (s : Store) (r : Request) :
    (s.answer r).2.isClosed = s.isClosed := by
  cases h : s.isClosed with
  | false => rw [Store.answer_of_open h]
  | true => rw [Store.answer_of_closed h, h]

end ReadOnce
