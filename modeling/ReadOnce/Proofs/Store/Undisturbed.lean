import ReadOnce.Proofs.Store.Alike
import ReadOnce.Proofs.Store.Record

/-!
# Keys that do not disturb each other

What is answered about a key, and what is kept under it, depends on nothing but what was asked about
this key and on the purges in between. Requests about other keys may be left out, and two requests
in a row about different keys may change places.

A request about a key is answered from the slot of the key. A purge is about no key, but what it
leaves in a slot depends on the slot alone: the index of trees, which all messages share, names each
of them by its own entry. That is so for trees that hold what a shelf holds, and so from the
beginning.
-/

namespace ReadOnce

/-- Whether a request may concern a key: it is about this key, or about none. -/
def Request.mayConcern (r : Request) (key : Key) : Bool :=
  r.key?.all (· == key)

/-- Whether a request is about a key. -/
def Request.isAbout (r : Request) (key : Key) : Bool :=
  r.key? == some key

theorem Request.exists_key_of_mayConcern_eq_false {r : Request} {key : Key}
    (h : r.mayConcern key = false) : ∃ k, r.key? = some k ∧ k ≠ key := by
  cases hkey : r.key? with
  | none => simp [mayConcern, hkey] at h
  | some k => exact ⟨k, rfl, by simpa [mayConcern, hkey] using h⟩

section Congruence

variable {r : Request} {key : Key} (hr : r.key? = some key)
include hr

/-- A shelf answers a request about a key from the message under the key. -/
theorem Shelf.answer_congr {s s' : Shelf} (h : s.find? key = s'.find? key) :
    (s.answer r).1 = (s'.answer r).1 ∧ (s.answer r).2.find? key = (s'.answer r).2.find? key := by
  cases r with
  | save m =>
      obtain rfl : m.key = key := Option.some.inj hr
      cases hfind : s'.find? m.key with
      | none =>
          have hfind' := h.trans hfind
          rw [s.answer_save_of_missing hfind', s'.answer_save_of_missing hfind]
          simp [Shelf.find?_insert]
      | some n =>
          have hfind' := h.trans hfind
          rw [s.answer_save_of_find? hfind', s'.answer_save_of_find? hfind]
          exact ⟨rfl, h⟩
  | load k =>
      obtain rfl : k = key := Option.some.inj hr
      simp only [Shelf.answer, h]
      split
      · exact ⟨rfl, h⟩
      · exact ⟨rfl, h⟩
  | increment k =>
      obtain rfl : k = key := Option.some.inj hr
      simp only [Shelf.answer, h]
      split
      · exact ⟨rfl, by rw [find?_increment, find?_increment, h]⟩
      · exact ⟨rfl, h⟩
  | remove k =>
      obtain rfl : k = key := Option.some.inj hr
      simp only [Shelf.answer, find?_filter, h]
      exact ⟨trivial, trivial⟩
  | purge now => contradiction

/-- Trees answer a request about a key from the bytes under the key. -/
theorem Trees.answer_congr {t t' : Trees} (h : t.bytesAt key = t'.bytesAt key) :
    (t.answer r).1 = (t'.answer r).1 ∧
      (t.answer r).2.bytesAt key = (t'.answer r).2.bytesAt key := by
  have hget : t.messages.get? (Text.utf8 key.text) = t'.messages.get? (Text.utf8 key.text) := h
  cases r with
  | save m =>
      obtain rfl : m.key = key := Option.some.inj hr
      simp only [Trees.answer_save, Trees.save, hget]
      split
      · exact ⟨rfl, h⟩
      · exact ⟨rfl, by simp only [bytesAt, Tree.get?_insert_self]⟩
  | load k =>
      obtain rfl : k = key := Option.some.inj hr
      exact ⟨by simp [Trees.load, hget], h⟩
  | increment k =>
      obtain rfl : k = key := Option.some.inj hr
      have hload : t.load k = t'.load k := by simp only [Trees.load, hget]
      simp only [Trees.answer_increment, Trees.increment, hload]
      split
      · exact ⟨rfl, h⟩
      · exact ⟨rfl, by simp only [bytesAt, Tree.get?_insert_self]⟩
  | remove k =>
      obtain rfl : k = key := Option.some.inj hr
      simp only [Trees.answer_remove, Trees.remove, hget]
      split
      · exact ⟨rfl, h⟩
      · exact ⟨rfl, by simp only [bytesAt, Tree.get?_erase_self]⟩
  | purge now => contradiction

/-- What stands against a request about a key is found in the rows under the key. -/
theorem Table.refusal?_congr {t t' : Table} (hread : t.isReadOnly = t'.isReadOnly)
    (h : t.rowsAt key = t'.rowsAt key) : t.refusal? r = t'.refusal? r := by
  cases r with
  | save m =>
      obtain rfl : m.key = key := Option.some.inj hr
      simp only [refusal?, obstacle?, written?, find?_eq_head?, hread, h]
  | increment k =>
      obtain rfl : k = key := Option.some.inj hr
      simp only [refusal?, obstacle?, written?, find?_eq_head?, hread, h]
  | purge now => contradiction
  | _ => simp [refusal?, obstacle?, written?, hread]

theorem Table.perform_congr {t t' : Table} (h : t.rowsAt key = t'.rowsAt key) :
    (t.perform r).1 = (t'.perform r).1 ∧
      (t.perform r).2.rowsAt key = (t'.perform r).2.rowsAt key := by
  cases r with
  | save m =>
      obtain rfl : m.key = key := Option.some.inj hr
      simp only [perform_save, save, find?_eq_head?, h]
      split
      · exact ⟨rfl, h⟩
      · split
        · exact ⟨rfl, h⟩
        · exact ⟨rfl, by rw [rowsAt_append, rowsAt_append, h]⟩
  | load k =>
      obtain rfl : k = key := Option.some.inj hr
      exact ⟨by simp only [perform_load, load, find?_eq_head?, h], h⟩
  | increment k =>
      obtain rfl : k = key := Option.some.inj hr
      simp only [perform_increment, increment, find?_eq_head?, h]
      split
      · exact ⟨rfl, h⟩
      · exact ⟨rfl, by rw [rowsAt_increment, rowsAt_increment, h]⟩
  | remove k =>
      obtain rfl : k = key := Option.some.inj hr
      refine ⟨by simp only [perform_remove, remove, find?_eq_head?, h], ?_⟩
      exact (t.rowsAt_remove_self k).trans (t'.rowsAt_remove_self k).symm
  | purge now => contradiction

/-- A table answers a request about a key from the rows under the key. -/
theorem Table.answer_congr {t t' : Table} (hread : t.isReadOnly = t'.isReadOnly)
    (h : t.rowsAt key = t'.rowsAt key) :
    (t.answer r).1 = (t'.answer r).1 ∧ (t.answer r).2.rowsAt key = (t'.answer r).2.rowsAt key := by
  have hrefusal := refusal?_congr hr hread h
  cases hrefused : t'.refusal? r with
  | none =>
      rw [answer_of_taken (hrefusal.trans hrefused), answer_of_taken hrefused]
      exact perform_congr hr h
  | some e =>
      rw [answer_of_refused (hrefusal.trans hrefused), answer_of_refused hrefused]
      exact ⟨rfl, h⟩

/-- Whatever their form, contents answer a request about a key from what is kept under it. -/
theorem Contents.answer_congr {c c' : Contents} (hread : c.isReadOnly = c'.isReadOnly)
    (h : c.slot key = c'.slot key) :
    (c.answer r).1 = (c'.answer r).1 ∧ (c.answer r).2.slot key = (c'.answer r).2.slot key := by
  cases c with
  | shelf s =>
      cases c' with
      | shelf s' =>
          obtain ⟨hreply, hfind⟩ := Shelf.answer_congr hr (Slot.message.inj h)
          exact ⟨hreply, congrArg Slot.message hfind⟩
      | _ => contradiction
  | trees t =>
      cases c' with
      | trees t' =>
          obtain ⟨hreply, hbytes⟩ := Trees.answer_congr hr (Slot.bytes.inj h)
          exact ⟨hreply, congrArg Slot.bytes hbytes⟩
      | _ => contradiction
  | table t =>
      cases c' with
      | table t' =>
          obtain ⟨hreply, hrows⟩ := Table.answer_congr hr hread (Slot.rows.inj h)
          exact ⟨hreply, congrArg Slot.rows hrows⟩
      | _ => contradiction

end Congruence

/-- Whether a purge of trees drops a record. -/
def Trees.isDue (now : Instant) (b : Bytes) : Bool :=
  match Message.decode b with
  | .ok m => m.isExpired now && decide (placeOf m < purgeBound now)
  | .error _ => false

/-- What a purge leaves of a slot. -/
def Slot.purged (now : Instant) : Slot → Slot
  | message m => message (m.filter fun m => !m.isExpired now)
  | bytes b => bytes (b.filter fun b => !Trees.isDue now b)
  | rows rs => rows (rs.filter fun row => !row.exp.atMost (Table.clampedNanos now))

theorem Trees.Mirrors.bytesAt_purge {t : Trees} {s : Shelf} (h : t.Mirrors s) (now : Instant)
    (key : Key) :
    (t.purge now).2.bytesAt key = (t.bytesAt key).filter fun b => !isDue now b := by
  obtain ⟨n, -, hpurged⟩ := h.purge now
  rw [bytesAt, bytesAt, hpurged.get?, h.get?, Shelf.find?_filter]
  cases hfind : s.find? key with
  | none => rfl
  | some m =>
      have hread := Message.decode_encode (h.isExact m (Shelf.mem_of_find? hfind))
      have hdue : isDue now m.encode =
          (m.isExpired now && decide (placeOf m < purgeBound now)) := by
        simp only [isDue, hread]
      rw [Option.map_some, Option.filter_some, Option.filter_some, hdue]
      split <;> rfl

namespace Contents

/-- Trees hold what a shelf holds, and a table may be changed and its rows have keys. -/
def IsRegular : Contents → Prop
  | shelf _ => True
  | trees t => ∃ s, t.Mirrors s
  | table t => t.isReadOnly = false ∧ ∀ row ∈ t.rows, ∃ key, row.isAt key = true

variable {c c' : Contents} {r : Request} {key : Key}

theorem isRegular_of_isEmpty (h : c.IsEmpty) : c.IsRegular := by
  cases c with
  | shelf s => trivial
  | trees t =>
      obtain rfl : t = .empty := h
      exact ⟨.empty, Trees.mirrors_empty⟩
  | table t =>
      obtain rfl : t = .empty := h
      exact ⟨rfl, fun row hrow => absurd hrow List.not_mem_nil⟩

theorem IsRegular.isReadOnly_eq (h : c.IsRegular) : c.isReadOnly = false := by
  cases c with
  | table t => exact h.1
  | _ => rfl

theorem IsRegular.answer (h : c.IsRegular) (hfits : ∀ m, r = .save m → m.Fits) :
    (c.answer r).2.IsRegular := by
  cases c with
  | shelf s => trivial
  | trees t =>
      obtain ⟨s, h⟩ := h
      exact h.exists_answer hfits
  | table t =>
      obtain ⟨hread, h⟩ := h
      refine ⟨(t.isReadOnly_answer r).trans hread, ?_⟩
      refine Table.answer_snd_of (P := fun t' => ∀ row ∈ t'.rows, ∃ key, row.isAt key = true) h ?_
      cases r with
      | save m =>
          simp only [Table.perform_save, Table.save]
          split
          · exact h
          · split
            · exact h
            · intro row hrow
              rcases List.mem_append.1 hrow with hrow | hrow
              · exact h row hrow
              · obtain rfl := List.mem_singleton.1 hrow
                exact ⟨m.key, by simp [Table.isAt_ofMessage]⟩
      | load k => exact h
      | increment k =>
          simp only [Table.perform_increment, Table.increment]
          split
          · exact h
          · intro row hrow
            obtain ⟨row', hrow', rfl⟩ := List.mem_map.1 hrow
            obtain ⟨key, hkey⟩ := h row' hrow'
            refine ⟨key, ?_⟩
            split <;> exact hkey
      | remove k => exact fun row hrow => h row (List.mem_filter.1 hrow).1
      | purge now => exact fun row hrow => h row (List.mem_filter.1 hrow).1

/-- What a purge leaves of a slot depends on nothing else. -/
theorem IsRegular.slot_purge (h : c.IsRegular) (now : Instant) (key : Key) :
    (c.answer (.purge now)).2.slot key = (c.slot key).purged now := by
  cases c with
  | shelf s => exact congrArg Slot.message (s.find?_filter _ key)
  | trees t =>
      obtain ⟨s, h⟩ := h
      exact congrArg Slot.bytes (h.bytesAt_purge now key)
  | table t =>
      have htaken : (table t).refusal? (.purge now) = none :=
        Table.refusal?_purge_eq_none_iff.2 h.1
      rw [answer_table_of_taken htaken]
      exact congrArg Slot.rows (t.rowsAt_filter _ key)

theorem IsRegular.after (h : c.IsRegular) {rs : List Request}
    (hfits : ∀ m, .save m ∈ rs → m.Fits) : (c.after rs).IsRegular := by
  induction rs generalizing c with
  | nil => exact h
  | cons r rs ih =>
      refine ih (h.answer ?_) fun m hm => hfits m (List.mem_cons_of_mem _ hm)
      rintro m rfl
      exact hfits m (List.mem_cons_self ..)

/-- What a request that may concern a key leaves under it depends on what is kept under it. -/
theorem slot_answer_congr (h : c.slot key = c'.slot key) (hc : c.IsRegular) (hc' : c'.IsRegular)
    (hr : r.mayConcern key = true) : (c.answer r).2.slot key = (c'.answer r).2.slot key := by
  cases hkey : r.key? with
  | none =>
      cases r with
      | purge now => rw [hc.slot_purge, hc'.slot_purge, h]
      | _ => contradiction
  | some k =>
      obtain rfl : k = key := by simpa [Request.mayConcern, hkey] using hr
      exact (answer_congr hkey (hc.isReadOnly_eq.trans hc'.isReadOnly_eq.symm) h).2

/-- Requests that do not concern a key may be left out. -/
theorem answers_congr (h : c.slot key = c'.slot key) (hc : c.IsRegular) (hc' : c'.IsRegular)
    {rs : List Request} (hfits : ∀ m, .save m ∈ rs → m.Fits) :
    (c.answers rs).filter (·.request.isAbout key) =
        (c'.answers (rs.filter (·.mayConcern key))).filter (·.request.isAbout key) ∧
      (c.after rs).slot key = (c'.after (rs.filter (·.mayConcern key))).slot key := by
  induction rs generalizing c c' with
  | nil => exact ⟨rfl, h⟩
  | cons r rs ih =>
      have hrest : ∀ m, .save m ∈ rs → m.Fits := fun m hm => hfits m (List.mem_cons_of_mem _ hm)
      have hfirst : ∀ m, r = .save m → m.Fits := by
        rintro m rfl
        exact hfits m (List.mem_cons_self ..)
      cases hr : r.mayConcern key with
      | true =>
          have hkept : (r :: rs).filter (·.mayConcern key) = r :: rs.filter (·.mayConcern key) :=
            List.filter_cons_of_pos hr
          obtain ⟨hanswers, hslot⟩ := ih (slot_answer_congr h hc hc' hr) (hc.answer hfirst)
            (hc'.answer hfirst) hrest
          rw [hkept]
          refine ⟨?_, hslot⟩
          simp only [answers, List.filter_cons, hanswers]
          cases habout : r.isAbout key with
          | true =>
              have hkey : r.key? = some key := by simpa [Request.isAbout] using habout
              rw [(answer_congr hkey (hc.isReadOnly_eq.trans hc'.isReadOnly_eq.symm) h).1]
          | false => rfl
      | false =>
          obtain ⟨k, hkey, hne⟩ := Request.exists_key_of_mayConcern_eq_false hr
          have hleft : (r :: rs).filter (·.mayConcern key) = rs.filter (·.mayConcern key) :=
            List.filter_cons_of_neg (by simp [hr])
          have habout : r.isAbout key = false := by simpa [Request.isAbout, hkey] using hne
          obtain ⟨hanswers, hslot⟩ := ih ((slot_answer_of_ne hkey hne).trans h) (hc.answer hfirst)
            hc' hrest
          rw [hleft]
          refine ⟨?_, hslot⟩
          simp only [answers, List.filter_cons, habout]
          exact hanswers

/-- Requests about different keys may change places, as far as each slot is concerned. -/
theorem slot_answer_comm (c : Contents) {r r' : Request} {k k' : Key} (hr : r.key? = some k)
    (hr' : r'.key? = some k') (hne : k ≠ k') (key : Key) :
    ((c.answer r).2.answer r').2.slot key = ((c.answer r').2.answer r).2.slot key := by
  by_cases hk : k = key
  · subst hk
    rw [slot_answer_of_ne hr' hne.symm]
    exact (answer_congr hr (by simp) (slot_answer_of_ne hr' hne.symm).symm).2
  · rw [slot_answer_of_ne hr hk]
    by_cases hk' : k' = key
    · subst hk'
      exact (answer_congr hr' (by simp) (slot_answer_of_ne hr hne)).2
    · rw [slot_answer_of_ne hr' hk', slot_answer_of_ne hr' hk', slot_answer_of_ne hr hk]

/-- The same is kept, in any order. -/
def Same : Contents → Contents → Prop
  | shelf s, shelf s' => s.messages.Perm s'.messages
  | trees t, trees t' => t = t'
  | table t, table t' => t.rows.Perm t'.rows
  | _, _ => False

end Contents

theorem Shelf.perm_of_find?_eq {s s' : Shelf} (h : ∀ key, s.find? key = s'.find? key) :
    s.messages.Perm s'.messages := by
  have hsub {s s' : Shelf} (h : ∀ key, s.find? key = s'.find? key) {m : Message}
      (hm : m ∈ s.messages) : m ∈ s'.messages :=
    mem_of_find? ((h m.key).symm.trans (s.find?_key_of_mem hm))
  rw [List.perm_ext_iff_of_nodup s.distinct.of_map s'.distinct.of_map]
  exact fun m => ⟨hsub h, hsub fun key => (h key).symm⟩

theorem Tree.eq_of_perm {t t' : Tree} (h : t.entries.Perm t'.entries) : t = t' := by
  obtain ⟨entries, hsorted⟩ := t
  obtain ⟨entries', hsorted'⟩ := t'
  have heq : entries = entries' := by
    refine List.Perm.eq_of_pairwise ?_ hsorted hsorted' h
    intro a b _ _ hab hba
    exact absurd hba (List.lt_asymm hab)
  subst heq
  rfl

namespace Trees.Mirrors

variable {t t' : Trees} {s s' : Shelf}

theorem find?_eq (h : t.Mirrors s) (h' : t'.Mirrors s') {key : Key}
    (hbytes : t.bytesAt key = t'.bytesAt key) : s.find? key = s'.find? key := by
  have hread {t : Trees} {s : Shelf} (h : t.Mirrors s) :
      s.find? key = (t.bytesAt key).bind fun b => (Message.decode b).toOption := by
    rw [bytesAt, h.get?]
    cases hfind : s.find? key with
    | none => rfl
    | some m =>
        rw [Option.map_some, Option.bind_some,
          Message.decode_encode (h.isExact m (Shelf.mem_of_find? hfind))]
        rfl
  rw [hread h, hread h', hbytes]

/-- Trees that mirror a shelf are determined by what they hold under each key. -/
theorem eq_of_bytesAt_eq (h : t.Mirrors s) (h' : t'.Mirrors s')
    (hbytes : ∀ key, t.bytesAt key = t'.bytesAt key) : t = t' := by
  have hshelves : s.messages.Perm s'.messages :=
    Shelf.perm_of_find?_eq fun key => h.find?_eq h' (hbytes key)
  have hmessages : t.messages = t'.messages :=
    Tree.eq_of_perm (h.messages.trans ((hshelves.map _).trans h'.messages.symm))
  have hexpiry : t.expiry = t'.expiry :=
    Tree.eq_of_perm (h.expiry.trans ((hshelves.map _).trans h'.expiry.symm))
  obtain ⟨_, _⟩ := t
  obtain ⟨_, _⟩ := t'
  simp only at hmessages hexpiry
  rw [hmessages, hexpiry]

end Trees.Mirrors

theorem Table.perm_of_rowsAt_eq {t t' : Table} (h : ∀ row ∈ t.rows, ∃ key, row.isAt key = true)
    (h' : ∀ row ∈ t'.rows, ∃ key, row.isAt key = true)
    (hrows : ∀ key, t.rowsAt key = t'.rowsAt key) : t.rows.Perm t'.rows := by
  rw [List.perm_iff_count]
  intro row
  by_cases hkey : ∃ key, row.isAt key = true
  · obtain ⟨key, hkey⟩ := hkey
    have hcount (t : Table) : (t.rowsAt key).count row = t.rows.count row :=
      List.count_filter hkey
    rw [← hcount, ← hcount, hrows]
  · rw [List.count_eq_zero_of_not_mem fun hrow => hkey (h row hrow),
      List.count_eq_zero_of_not_mem fun hrow => hkey (h' row hrow)]

namespace Contents

variable {c c' : Contents}

/-- Regular contents are determined by their slots. -/
theorem IsRegular.same (hc : c.IsRegular) (hc' : c'.IsRegular)
    (h : ∀ key, c.slot key = c'.slot key) : c.Same c' := by
  cases c with
  | shelf s =>
      cases c' with
      | shelf s' => exact Shelf.perm_of_find?_eq fun key => Slot.message.inj (h key)
      | _ => nomatch h ⟨""⟩
  | trees t =>
      cases c' with
      | trees t' =>
          obtain ⟨s, hs⟩ := hc
          obtain ⟨s', hs'⟩ := hc'
          exact hs.eq_of_bytesAt_eq hs' fun key => Slot.bytes.inj (h key)
      | _ => nomatch h ⟨""⟩
  | table t =>
      cases c' with
      | table t' => exact Table.perm_of_rowsAt_eq hc.2 hc'.2 fun key => Slot.rows.inj (h key)
      | _ => nomatch h ⟨""⟩

/-- Whatever form messages are kept in, from the beginning on: what is answered about a key, and
what is kept under it in the end, stays the same if all that is asked about other keys is left out;
and two requests in a row about different keys leave the same, whichever comes first. -/
theorem undisturbed_of_isEmpty (hempty : c.IsEmpty) (key : Key) {rs : List Request}
    (hfits : ∀ m, .save m ∈ rs → m.Fits) :
    (c.answers rs).filter (·.request.isAbout key) =
        (c.answers (rs.filter (·.mayConcern key))).filter (·.request.isAbout key) ∧
      (c.after rs).slot key = (c.after (rs.filter (·.mayConcern key))).slot key ∧
      ∀ before r r' later k k', rs = before ++ r :: r' :: later → r.key? = some k →
        r'.key? = some k' → k ≠ k' →
        (c.after (before ++ [r, r'])).Same (c.after (before ++ [r', r])) := by
  have hregular := isRegular_of_isEmpty hempty
  have hsame : c.slot key = c.slot key := rfl
  obtain ⟨hanswers, hslot⟩ := answers_congr hsame hregular hregular hfits
  refine ⟨hanswers, hslot, ?_⟩
  rintro before r r' later k k' rfl hr hr' hne
  have hmem (m : Message) (hm : .save m ∈ before ++ [r, r']) : m.Fits := by
    refine hfits m ?_
    simp only [List.mem_append, List.mem_cons, List.not_mem_nil, or_false] at hm ⊢
    tauto
  have hmem' (m : Message) (hm : .save m ∈ before ++ [r', r]) : m.Fits := by
    refine hmem m ?_
    simp only [List.mem_append, List.mem_cons, List.not_mem_nil, or_false] at hm ⊢
    tauto
  refine (hregular.after hmem).same (hregular.after hmem') ?_
  intro q
  rw [after_append, after_append]
  exact (c.after before).slot_answer_comm hr hr' hne q

/-- A blank key and one that extends it by the bytes of an index entry: whatever happens under the
longer one, a count under the blank key is the first one. -/
theorem undisturbed_by_longer_key :
    let m : Message := ⟨⟨""⟩, .epoch, [1], "a", 0, false⟩
    let n : Message := ⟨⟨"\x00\x00\x00\x00\x00\x00\x00\x00"⟩, .epoch, [], "b", 0, true⟩
    let rs : List Request := [.save m, .save n, .increment n.key, .increment m.key, .remove n.key]
    let c : Contents := .trees .empty
    c.IsEmpty ∧ (∀ m, .save m ∈ rs → m.Fits) ∧
      (c.answers rs).filter (·.request.isAbout m.key) =
        (c.answers [.save m, .increment m.key]).filter (·.request.isAbout m.key) ∧
      (c.after [.save m, .save n]).Same (c.after [.save n, .save m]) := by
  intro m n rs c
  have hempty : c.IsEmpty := rfl
  have hfits : ∀ m, .save m ∈ rs → m.Fits := by
    intro m' hm'
    simp only [rs, List.mem_cons, Request.save.injEq, reduceCtorEq, List.not_mem_nil,
      or_false] at hm'
    rcases hm' with rfl | rfl
    · exact ⟨by decide, by decide, by decide⟩
    · exact ⟨by decide, by decide, by decide⟩
  obtain ⟨hanswers, -, hcomm⟩ := undisturbed_of_isEmpty hempty m.key hfits
  exact ⟨hempty, hfits, hanswers, hcomm [] _ _ _ m.key n.key rfl rfl rfl (by decide)⟩

end Contents

end ReadOnce
