import Mathlib.Data.List.Perm.Basic
import ReadOnce.Proofs.Store.Visited

/-!
# Messages that have their index entries

Trees are sound if they hold the bytes of messages under their keys and each message has its entry
in the index. The index may hold more: an entry whose message has been dropped by a purge that got
there through another one. Soundness is what every single change keeps, whatever comes between the
changes that a purge is made of.

A visit of an entry costs the message that the entry names, if its deadline has been reached, be it
the entry of this message or one left over.
-/

namespace ReadOnce

namespace Answered

/-- Whether a message was saved. -/
def isSaved : Answered → Bool
  | ⟨.save _, .ok _⟩ => true
  | _ => false

/-- Whether a message was dropped by its key. -/
def isRemoved : Answered → Bool
  | ⟨.remove _, .ok true⟩ => true
  | _ => false

end Answered

namespace Trees

variable {t : Trees} {now : Instant} {entry key b : Bytes} {m : Message}

/-- Trees hold bytes of messages under their keys, and each message has its entry in the index. -/
def Sound (t : Trees) : Prop :=
  ∀ key b, t.messages.get? key = some b → ∃ m : Message, m.IsExact ∧ b = m.encode ∧
    key = Text.utf8 m.key.text ∧ t.expiry.get? (placeOf m) = some []

theorem sound_empty : Sound .empty :=
  fun _ _ h => nomatch h

namespace Sound

variable (h : t.Sound)
include h

theorem decode (hget : t.messages.get? key = some b) : ∃ m, Message.decode b = .ok m := by
  obtain ⟨m, hexact, rfl, -, -⟩ := h key b hget
  exact ⟨m, Message.decode_encode hexact⟩

/-- Bytes that replace those of a message, or are those of a new one, come with their entry. -/
theorem insert (hexact : m.IsExact) {expiry : Tree} (hm : expiry.get? (placeOf m) = some [])
    (hexpiry : ∀ place, t.expiry.get? place = some [] → expiry.get? place = some []) :
    Sound ⟨t.messages.insert (Text.utf8 m.key.text) m.encode, expiry⟩ := by
  intro key b hget
  by_cases hkey : key = Text.utf8 m.key.text
  · subst hkey
    obtain rfl := Option.some.inj ((Tree.get?_insert_self ..).symm.trans hget)
    exact ⟨m, hexact, rfl, rfl, hm⟩
  · obtain ⟨n, hn, hb, hkey', hplace⟩ := h key b ((Tree.get?_insert_of_ne _ hkey).symm.trans hget)
    exact ⟨n, hn, hb, hkey', hexpiry _ hplace⟩

/-- An index entry that goes takes no message's entry with it but that of the message it names. -/
theorem erase (entry : Bytes) :
    Sound ⟨t.messages.erase (entry.drop stampSize), t.expiry.erase entry⟩ := by
  intro key b hget
  by_cases hkey : key = entry.drop stampSize
  · subst hkey
    exact nomatch (Tree.get?_erase_self ..).symm.trans hget
  · obtain ⟨m, hexact, hb, rfl, hplace⟩ := h key b ((Tree.get?_erase_of_ne _ hkey).symm.trans hget)
    refine ⟨m, hexact, hb, rfl, ?_⟩
    have hne : placeOf m ≠ entry := by
      rintro rfl
      exact hkey (drop_placeOf m).symm
    exact (Tree.get?_erase_of_ne _ hne).trans hplace

/-- A purge that visits an entry does not fail, and leaves each message its entry. -/
theorem purgeEntry (now : Instant) (entry : Bytes) :
    (∃ dropped, (t.purgeEntry now entry).1 = .ok dropped) ∧ (t.purgeEntry now entry).2.Sound := by
  obtain ⟨hget, hpurge⟩ | ⟨b, e, hget, hm, -⟩ | ⟨b, m, -, -, -, hpurge⟩ | ⟨b, m, -, -, -, hpurge⟩ :=
    t.purgeEntry_cases now entry
  · have herase := h.erase entry
    rw [Tree.erase_of_missing hget] at herase
    rw [hpurge]
    exact ⟨⟨false, rfl⟩, herase⟩
  · obtain ⟨m, hdecode⟩ := h.decode hget
    cases hdecode.symm.trans hm
  · rw [hpurge]
    exact ⟨⟨true, rfl⟩, h.erase entry⟩
  · rw [hpurge]
    exact ⟨⟨false, rfl⟩, h⟩

/-- Visits in turn do not fail, and cost the messages that the entries name and whose deadlines have
been reached. -/
theorem purgeEntries (now : Instant) (places : List Bytes) (count : Nat) :
    (∃ n, (Trees.purgeEntries now places count t).1 = .ok n) ∧
      ∀ key, (Trees.purgeEntries now places count t).2.messages.get? key =
        (t.messages.get? key).filter fun b =>
          !(isReached now b && places.any (·.drop stampSize == key)) := by
  have hread : ∀ place ∈ places, ∀ why, ¬t.NamesUnreadable place why := by
    rintro place - why ⟨b, hget, hwhy⟩
    obtain ⟨m, hm⟩ := h.decode hget
    cases hm.symm.trans hwhy
  obtain ⟨n, t', heq, hswept⟩ := purgeEntries_of_readable now count hread
  rw [heq]
  exact ⟨⟨n, rfl⟩, hswept.messages⟩

/-- What one request that is about a key changes: it costs or adds the message that the answer tells
of, and leaves each message its entry. -/
theorem answer {r : Request} (hkey : r.key? ≠ none) (hfits : ∀ m, r = .save m → m.Fits) :
    (t.answer r).2.Sound ∧
      (t.answer r).2.messages.entries.length + (Answered.isRemoved ⟨r, (t.answer r).1⟩).toNat =
        t.messages.entries.length + (Answered.isSaved ⟨r, (t.answer r).1⟩).toNat := by
  cases r with
  | save m =>
      cases hget : t.messages.get? (Text.utf8 m.key.text) with
      | some b =>
          simp only [Trees.answer_save, save, hget]
          exact ⟨h, rfl⟩
      | none =>
          simp only [Trees.answer_save, save, hget]
          refine ⟨?_, t.messages.length_insert_of_missing hget⟩
          -- The deadline goes by what the calendar has for it, in the bytes and in the index.
          rw [← Message.encode_onCalendar, ← Message.key_onCalendar]
          refine h.insert (hfits m rfl).isExact_onCalendar ?_ ?_
          · rw [placeOf_onCalendar]
            exact Tree.get?_insert_self ..
          intro place hplace
          by_cases heq : place = indexKey m.expiresAt (Text.utf8 m.key.text)
          · subst heq
            exact Tree.get?_insert_self ..
          · exact (Tree.get?_insert_of_ne _ heq).trans hplace
  | load k => exact ⟨h, rfl⟩
  | increment k =>
      cases hget : t.messages.get? (Text.utf8 k.text) with
      | none =>
          simp only [Trees.answer_increment, increment, load, hget]
          exact ⟨h, rfl⟩
      | some b =>
          obtain ⟨m, hm, rfl, hk, hplace⟩ := h _ _ hget
          simp only [Trees.answer_increment, increment, load, hget, Message.decode_encode hm]
          rw [hk] at hget ⊢
          refine ⟨?_, t.messages.length_insert_of_get? _ hget⟩
          exact h.insert (hm.recounted (m.errors + 1)) hplace fun _ hp => hp
  | remove k =>
      cases hget : t.messages.get? (Text.utf8 k.text) with
      | none =>
          simp only [Trees.answer_remove, remove, hget]
          exact ⟨h, rfl⟩
      | some b =>
          obtain ⟨m, hm, rfl, hk, -⟩ := h _ _ hget
          simp only [Trees.answer_remove, remove, hget, Message.decode_encode hm]
          refine ⟨?_, t.messages.length_erase_of_get? hget⟩
          have herase := h.erase (placeOf m)
          rwa [drop_placeOf, ← hk, placeOf, ← hk] at herase
  | purge now => exact absurd rfl hkey

end Sound

/-- Each message has an entry of its own in the index, under its deadline and its key. -/
structure Covered (t : Trees) : Prop where
  records : ∀ e ∈ t.messages.entries, ∃ m, Message.decode e.2 = .ok m ∧ e.1 = Text.utf8 m.key.text
  index : (t.messages.entries.filterMap fun e =>
    (Message.decode e.2).toOption.map fun m => (indexKey m.expiresAt e.1, [])).Subperm
      t.expiry.entries

theorem Sound.covered (h : t.Sound) : t.Covered where
  records e he := by
    obtain ⟨m, hexact, hb, hkey, -⟩ := h e.1 e.2 (t.messages.get?_eq_some_iff.2 he)
    exact ⟨m, hb ▸ Message.decode_encode hexact, hkey⟩
  index := by
    refine List.subperm_of_subset ?_ ?_
    · -- Keys differ, and an entry ends in the key of its message.
      refine List.Pairwise.filterMap _ ?_ t.messages.sorted
      intro e e' hlt place hplace place' hplace' heq
      obtain ⟨m, -, rfl⟩ := Option.map_eq_some_iff.1 hplace
      obtain ⟨m', -, rfl⟩ := Option.map_eq_some_iff.1 hplace'
      have hkeys := congrArg (fun place : Bytes × Bytes => place.1.drop stampSize) heq
      rw [drop_indexKey, drop_indexKey] at hkeys
      exact List.lt_irrefl _ (hkeys ▸ hlt)
    · intro place hplace
      obtain ⟨e, he, hplace⟩ := List.mem_filterMap.1 hplace
      obtain ⟨m, hexact, hb, hkey, hentry⟩ := h e.1 e.2 (t.messages.get?_eq_some_iff.2 he)
      rw [hb, Message.decode_encode hexact, hkey] at hplace
      obtain rfl := Option.some.inj hplace
      exact t.expiry.get?_eq_some_iff.1 hentry

end Trees

end ReadOnce
