import ReadOnce.Proofs.Message.Codec
import ReadOnce.Proofs.Store.Lookup

/-!
# Trees that mirror a shelf

A shelf says best what is stored: messages of pairwise distinct keys, and nothing else. Trees mirror
a shelf if they hold the bytes of each of its messages under the message's key and one index entry
for each, and nothing besides. A request that is about one key is answered by such trees as by the
shelf, and they mirror the shelf again once both have answered.

An index entry is a function of the deadline, which is read back from the bytes of a message as the
calendar has it. So the shelf holds messages with deadlines of the calendar, and trees that are
given another message are as those that are given it with its deadline on the calendar.
-/

namespace ReadOnce

namespace Shelf

variable (s : Shelf) {key : Key} {m n : Message}

theorem eq_of_key_eq (hm : m ∈ s.messages) (hn : n ∈ s.messages) (h : m.key = n.key) : m = n :=
  List.inj_on_of_nodup_map s.distinct hm hn h

theorem find?_eq_none_iff : s.find? key = none ↔ ∀ m ∈ s.messages, m.key ≠ key := by
  simp [find?, List.find?_eq_none]

theorem mem_of_find? {s : Shelf} (h : s.find? key = some m) : m ∈ s.messages :=
  List.mem_of_find?_eq_some h

theorem find?_key_of_mem (hm : m ∈ s.messages) : s.find? m.key = some m := by
  cases h : s.find? m.key with
  | none => exact absurd rfl (s.find?_eq_none_iff.1 h m hm)
  | some n => rw [s.eq_of_key_eq (mem_of_find? h) hm (key_of_find? h)]

theorem filter_of_missing (h : s.find? key = none) : s.filter (·.key != key) = s := by
  have hall : s.messages.filter (·.key != key) = s.messages := by
    rw [List.filter_eq_self]
    simpa using s.find?_eq_none_iff.1 h
  obtain ⟨messages, distinct⟩ := s
  simp only [filter, hall]

/-- The messages of a shelf are the one under a key and those under other keys. -/
theorem perm_of_find? {s : Shelf} (h : s.find? key = some m) :
    s.messages.Perm (m :: s.messages.filter (·.key != key)) := by
  obtain rfl := key_of_find? h
  exact perm_cons_filter_of_nodup s.distinct (mem_of_find? h)

theorem answer_save_of_missing (new : s.find? m.key = none) :
    s.answer (.save m) = (.ok (), s.insert m new) := by
  simp only [answer]
  split
  · rename_i hfind
    rw [new] at hfind
    contradiction
  · rfl

theorem answer_save_of_find? (h : s.find? m.key = some n) :
    s.answer (.save m) = (.error (.saveRejected s!"duplicate key {m.key.text}"), s) := by
  simp only [answer]
  split
  · rfl
  · rename_i new
    rw [h] at new
    contradiction

/-- Counting a wrong pin changes the message under the key and leaves the others. -/
theorem perm_increment {s : Shelf} (h : s.find? key = some m) :
    (s.increment key).messages.Perm
      ({ m with errors := m.errors + 1 } :: s.messages.filter (·.key != key)) := by
  have hperm := (perm_of_find? h).map fun n : Message =>
    if n.key = key then { n with errors := n.errors + 1 } else n
  have hother : (s.messages.filter (·.key != key)).map (fun n : Message =>
      if n.key = key then { n with errors := n.errors + 1 } else n) =
        s.messages.filter (·.key != key) := by
    refine (List.map_congr_left ?_).trans (List.map_id _)
    intro n hn
    have hne : n.key ≠ key := by simpa using (List.mem_filter.1 hn).2
    exact if_neg hne
  rw [List.map_cons, hother, if_pos (key_of_find? h)] at hperm
  exact hperm

end Shelf

namespace Trees

/-- The place of a message in the index. -/
def placeOf (m : Message) : Bytes :=
  indexKey m.expiresAt (Text.utf8 m.key.text)

@[simp] theorem drop_indexKey (t : Instant) (key : Bytes) : (indexKey t key).drop stampSize = key :=
  List.drop_left' (Bytes.length_ofNatBE ..)

@[simp] theorem drop_placeOf (m : Message) : (placeOf m).drop stampSize = Text.utf8 m.key.text :=
  List.drop_left' (Bytes.length_ofNatBE ..)

@[simp] theorem utf8_text_inj {key key' : Key} :
    Text.utf8 key.text = Text.utf8 key'.text ↔ key = key' := by
  constructor
  · intro h
    by_contra hne
    exact utf8_text_ne hne h
  · rintro rfl
    rfl

@[simp] theorem placeOf_onCalendar (m : Message) : placeOf m.onCalendar = placeOf m := by
  unfold placeOf indexKey stamp Message.onCalendar
  rw [Instant.unixMillis_onCalendar]

/-- Trees keep nothing of a deadline but what the calendar has for it. -/
@[simp] theorem save_onCalendar (t : Trees) (m : Message) : t.save m.onCalendar = t.save m := by
  have hplace : indexKey m.onCalendar.expiresAt (Text.utf8 m.key.text) =
      indexKey m.expiresAt (Text.utf8 m.key.text) := placeOf_onCalendar m
  unfold save
  rw [Message.encode_onCalendar]
  simp only [Message.key_onCalendar, hplace]

theorem key_eq_of_placeOf_eq {m n : Message} (h : placeOf m = placeOf n) : m.key = n.key := by
  rw [← utf8_text_inj, ← drop_placeOf, ← drop_placeOf, h]

/-- Trees hold the bytes of each message of a shelf under its key and one index entry for each, and
nothing besides. -/
structure Mirrors (t : Trees) (s : Shelf) : Prop where
  messages : t.messages.entries.Perm (s.messages.map fun m => (Text.utf8 m.key.text, m.encode))
  expiry : t.expiry.entries.Perm (s.messages.map fun m => (placeOf m, []))
  isExact : ∀ m ∈ s.messages, m.IsExact

theorem mirrors_empty : Mirrors .empty .empty where
  messages := .nil
  expiry := .nil
  isExact _ h := absurd h (List.not_mem_nil)

namespace Mirrors

variable {t : Trees} {s : Shelf} {key : Key} {m : Message}

theorem get? (h : t.Mirrors s) (key : Key) :
    t.messages.get? (Text.utf8 key.text) = (s.find? key).map Message.encode := by
  cases hfind : s.find? key with
  | none =>
      rw [Option.map_none, Tree.get?_eq_none_iff]
      intro e he heq
      obtain ⟨n, hn, rfl⟩ := List.mem_map.1 (h.messages.mem_iff.1 he)
      exact s.find?_eq_none_iff.1 hfind n hn (utf8_text_inj.1 heq)
  | some n =>
      rw [Option.map_some, Tree.get?_eq_some_iff, h.messages.mem_iff]
      exact List.mem_map.2 ⟨n, Shelf.mem_of_find? hfind, by rw [Shelf.key_of_find? hfind]⟩

/-- The trees without what they hold under a key mirror the shelf without its message there. -/
theorem filter_messages (h : t.Mirrors s) (key : Key) :
    (t.messages.entries.filter (·.1 != Text.utf8 key.text)).Perm
      ((s.messages.filter (·.key != key)).map fun m => (Text.utf8 m.key.text, m.encode)) := by
  have hperm := h.messages.filter (·.1 != Text.utf8 key.text)
  have hsame : ((·.1 != Text.utf8 key.text) ∘ fun m : Message => (Text.utf8 m.key.text, m.encode)) =
      fun m => m.key != key := by
    funext m
    rw [Bool.eq_iff_iff]
    simp [utf8_text_inj]
  rwa [List.filter_map, hsame] at hperm

theorem filter_expiry (h : t.Mirrors s) (hm : m ∈ s.messages) :
    (t.expiry.entries.filter (·.1 != placeOf m)).Perm
      ((s.messages.filter (·.key != m.key)).map fun m => (placeOf m, [])) := by
  have hperm := h.expiry.filter (·.1 != placeOf m)
  have hsame : s.messages.filter
      ((·.1 != placeOf m) ∘ fun m : Message => (placeOf m, ([] : Bytes))) =
        s.messages.filter (·.key != m.key) := by
    refine List.filter_congr ?_
    intro n hn
    have hplace : placeOf n = placeOf m ↔ n.key = m.key :=
      ⟨key_eq_of_placeOf_eq, fun hkey => by rw [s.eq_of_key_eq hn hm hkey]⟩
    rw [Bool.eq_iff_iff]
    simp [hplace]
  rwa [List.filter_map, hsame] at hperm

theorem save (h : t.Mirrors s) (new : s.find? m.key = none) (hexact : m.IsExact) :
    Mirrors ⟨t.messages.insert (Text.utf8 m.key.text) m.encode, t.expiry.insert (placeOf m) []⟩
      (s.insert m new) where
  messages := by
    have hnone : t.messages.get? (Text.utf8 m.key.text) = none := by
      rw [h.get?, new, Option.map_none]
    exact (Tree.entries_insert_perm_of_missing hnone _).trans (h.messages.cons _)
  expiry := by
    have hnone : t.expiry.get? (placeOf m) = none := by
      rw [Tree.get?_eq_none_iff]
      intro e he heq
      obtain ⟨n, hn, rfl⟩ := List.mem_map.1 (h.expiry.mem_iff.1 he)
      exact s.find?_eq_none_iff.1 new n hn (key_eq_of_placeOf_eq heq)
    exact (Tree.entries_insert_perm_of_missing hnone _).trans (h.expiry.cons _)
  isExact := List.forall_mem_cons.2 ⟨hexact, h.isExact⟩

theorem increment (h : t.Mirrors s) (hfind : s.find? key = some m) :
    Mirrors
      { t with
        messages := t.messages.insert (Text.utf8 key.text)
          (Message.encode { m with errors := m.errors + 1 }) }
      (s.increment key) := by
  obtain rfl := Shelf.key_of_find? hfind
  have hshelf := Shelf.perm_increment hfind
  refine ⟨?_, ?_, ?_⟩
  · refine (t.messages.entries_insert_perm _ _).trans ?_
    refine ((h.filter_messages m.key).cons _).trans ?_
    exact (hshelf.map fun n => (Text.utf8 n.key.text, n.encode)).symm
  · refine h.expiry.trans (((Shelf.perm_of_find? hfind).map _).trans ?_)
    exact (hshelf.map fun n => (placeOf n, ([] : Bytes))).symm
  · intro n hn
    rcases List.mem_cons.1 (hshelf.mem_iff.1 hn) with rfl | hn
    · exact (h.isExact m (Shelf.mem_of_find? hfind)).recounted _
    · exact h.isExact n (List.mem_filter.1 hn).1

theorem remove (h : t.Mirrors s) (hm : m ∈ s.messages) :
    Mirrors ⟨t.messages.erase (Text.utf8 m.key.text), t.expiry.erase (placeOf m)⟩
      (s.filter (·.key != m.key)) where
  messages := h.filter_messages m.key
  expiry := h.filter_expiry hm
  isExact n hn := h.isExact n (List.mem_filter.1 hn).1

theorem load (h : t.Mirrors s) (key : Key) :
    t.load key = match s.find? key with
      | some m => .ok m
      | none => .error .loadRejected := by
  rw [Trees.load, h.get? key]
  cases hfind : s.find? key with
  | none => rfl
  | some m =>
      have hm := Message.decode_encode (h.isExact m (Shelf.mem_of_find? hfind))
      simp only [Option.map_some, hm]

/-- A request about one key is answered as by the shelf, which is mirrored again afterwards. -/
theorem answer (h : t.Mirrors s) {r : Request} (hkey : r.key? ≠ none)
    (hexact : ∀ m, r = .save m → m.IsExact) :
    (t.answer r).1 = (s.answer r).1 ∧ (t.answer r).2.Mirrors (s.answer r).2 := by
  cases r with
  | save m =>
      have hget := h.get? m.key
      cases hfind : s.find? m.key with
      | none =>
          rw [hfind, Option.map_none] at hget
          rw [s.answer_save_of_missing hfind]
          simp only [Trees.answer_save, Trees.save, hget]
          exact ⟨trivial, h.save hfind (hexact m rfl)⟩
      | some n =>
          rw [hfind, Option.map_some] at hget
          rw [s.answer_save_of_find? hfind]
          simp only [Trees.answer_save, Trees.save, hget]
          exact ⟨trivial, h⟩
  | load key =>
      have hload := h.load key
      cases hfind : s.find? key <;>
        simp only [hfind, Trees.answer, Shelf.answer] at hload ⊢ <;> exact ⟨hload, h⟩
  | increment key =>
      have hload := h.load key
      cases hfind : s.find? key with
      | none =>
          simp only [hfind, Trees.answer, Trees.increment, Shelf.answer] at hload ⊢
          rw [hload]
          exact ⟨rfl, h⟩
      | some m =>
          simp only [hfind, Trees.answer, Trees.increment, Shelf.answer] at hload ⊢
          rw [hload]
          exact ⟨rfl, h.increment hfind⟩
  | remove key =>
      have hget := h.get? key
      cases hfind : s.find? key with
      | none =>
          rw [hfind, Option.map_none] at hget
          simp only [Trees.answer_remove, Trees.remove, hget, Shelf.answer_remove, hfind,
            Option.isSome_none, s.filter_of_missing hfind]
          exact ⟨trivial, h⟩
      | some m =>
          rw [hfind, Option.map_some] at hget
          obtain rfl := Shelf.key_of_find? hfind
          have hmem := Shelf.mem_of_find? hfind
          simp only [Trees.answer_remove, Trees.remove, hget,
            Message.decode_encode (h.isExact m hmem), Shelf.answer_remove, hfind, Option.isSome_some]
          exact ⟨trivial, h.remove hmem⟩
  | purge now => exact absurd rfl hkey

end Mirrors

end Trees

end ReadOnce
