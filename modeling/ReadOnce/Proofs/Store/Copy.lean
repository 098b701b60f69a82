import ReadOnce.Proofs.Store.Record

/-!
# Copies of a message

Whoever reads a message holds a copy of it: the message as it was taken in, with the wrong pins that
had been counted by then. `Contents.KeepsOnly` says that nothing but copies of one message is found
under a key, and `KeepsOnly.answer` that this stays so whatever the store is asked, as long as
nothing is saved there. There is no bound on the count: a row whose count has left its range does
not read any more, and a count that starts over at zero is a count all the same.
-/

namespace ReadOnce

/-- A message is the same as another but for the wrong pins counted. -/
def Message.IsCopyOf (n m : Message) : Prop :=
  n = { m with errors := n.errors }

namespace Message.IsCopyOf

variable {n m : Message}

theorem key_eq (h : n.IsCopyOf m) : n.key = m.key := by
  rw [h]

theorem fits (h : n.IsCopyOf m) (hfits : m.Fits) : n.Fits := by
  rw [h]
  exact hfits.recounted _

theorem recounted (h : n.IsCopyOf m) (count : UInt32) :
    { n with errors := count }.IsCopyOf m := by
  show { n with errors := count } = { m with errors := count }
  rw [h]

end Message.IsCopyOf

namespace Table

/-- The cell of the count has no say in what else a row reads as. -/
theorem isCopyOf_of_message {row : Row} {cell : Cell} {key : Key} {n m : Message}
    (hn : row.message key = .ok n) (hm : { row with errors := cell }.message key = .ok m) :
    n.IsCopyOf m := by
  obtain ⟨exp, hexp, hdata, hhash, -, hflag, hkey, hdeadline⟩ := message_eq_ok_iff.1 hn
  obtain ⟨exp', hexp', hdata', hhash', -, hflag', hkey', hdeadline'⟩ := message_eq_ok_iff.1 hm
  obtain rfl : exp = exp' := Except.ok.inj (hexp.symm.trans hexp')
  obtain ⟨_, _, _, _, _, _⟩ := n
  obtain ⟨_, _, _, _, _, _⟩ := m
  have hdata := Except.ok.inj (hdata.symm.trans hdata')
  have hhash := Except.ok.inj (hhash.symm.trans hhash')
  have hflag := Except.ok.inj (hflag.symm.trans hflag')
  simp only at hdata hhash hflag hkey hkey' hdeadline hdeadline'
  simp only [Message.IsCopyOf, hdata, hhash, hflag, hkey, hkey', hdeadline, hdeadline']

end Table

namespace Slot

/-- Whatever is found in a slot is a copy of the message. -/
def HoldsOnly (key : Key) (m : Message) : Slot → Prop
  | message n => ∀ n', n = some n' → n'.IsCopyOf m
  | bytes b => ∀ b', b = some b' → ∃ n, Message.decode b' = .ok n ∧ n.IsCopyOf m
  | rows rs => rs = [] ∨ ∃ row cell, rs = [row] ∧ { row with errors := cell }.message key = .ok m

variable {s s' : Slot} {key : Key} {m : Message}

theorem holdsOnly_of_empty (h : s.isFull = false) : s.HoldsOnly key m := by
  cases s with
  | message n =>
      obtain rfl : n = none := by simpa [isFull] using h
      intro n' hn'
      contradiction
  | bytes b =>
      obtain rfl : b = none := by simpa [isFull] using h
      intro b' hb'
      contradiction
  | rows rs => exact .inl (by simpa [isFull] using h)

theorem holdsOnly_of_reads (h : s.Reads key m) : s.HoldsOnly key m := by
  cases s with
  | message n =>
      obtain rfl : n = some m := h
      rintro _ ⟨⟩
      rfl
  | bytes b =>
      obtain ⟨b', rfl, hm⟩ := h
      rintro _ ⟨⟩
      exact ⟨m, hm, rfl⟩
  | rows rs =>
      obtain ⟨row, rfl, hm⟩ := h
      exact .inr ⟨row, row.errors, rfl, hm⟩

theorem Drops.holdsOnly (h : Drops s s') (hs : s.HoldsOnly key m) : s'.HoldsOnly key m := by
  cases h with
  | message h =>
      rcases h with rfl | rfl
      · exact hs
      · intro n' hn'
        contradiction
  | bytes h =>
      rcases h with rfl | rfl
      · exact hs
      · intro b' hb'
        contradiction
  | rows h =>
      rcases hs with rfl | ⟨row, cell, rfl, hm⟩
      · exact .inl (List.sublist_nil.1 h)
      · cases h with
        | cons _ h => exact .inl (List.sublist_nil.1 h)
        | cons_cons _ h => exact .inr ⟨row, cell, by rw [List.sublist_nil.1 h], hm⟩

end Slot

namespace Contents

variable {c : Contents} {key : Key} {m n : Message}

/-- An increment tells that there is nothing only if there is nothing. -/
theorem has_eq_false_of_increment (h : (c.answer (.increment key)).1 = .error .loadRejected) :
    c.has key = false := by
  cases c with
  | shelf s =>
      cases hfind : s.find? key with
      | none => simp [hfind]
      | some m => simp [hfind] at h
  | trees t =>
      cases hb : t.bytesAt key with
      | none => simp [hb]
      | some b =>
          cases hm : Message.decode b <;>
            simp [Trees.increment, Trees.load_of_bytesAt hb, hm, Trees.unreadable] at h
  | table t =>
      obtain ⟨e, hrefused, heq⟩ | ⟨-, heq⟩ := t.answer_cases (.increment key)
      · obtain rfl : e = .loadRejected := by simpa [heq] using h
        exact absurd hrefused Table.refusal?_ne_loadRejected
      · cases hrows : t.rowsAt key with
        | nil => simp [hrows]
        | cons row rows =>
            simp [heq, Table.increment, Table.find?_eq_head?, hrows,
              Table.Column.count_ne_loadRejected] at h

/-- Nothing but copies of a message is found under a key. -/
def KeepsOnly (c : Contents) (key : Key) (m : Message) : Prop :=
  (c.slot key).HoldsOnly key m

theorem keepsOnly_of_missing (h : c.has key = false) : c.KeepsOnly key m :=
  Slot.holdsOnly_of_empty h

theorem keepsOnly_of_keeps (h : c.Keeps key m) : c.KeepsOnly key m :=
  Slot.holdsOnly_of_reads h

namespace KeepsOnly

/-- What is loaded is a copy. -/
theorem isCopyOf (h : c.KeepsOnly key m) (hload : (c.answer (.load key)).1 = .ok n) :
    n.IsCopyOf m := by
  cases c with
  | shelf s =>
      cases hfind : s.find? key with
      | none => simp [hfind] at hload
      | some n' =>
          obtain rfl : n' = n := by simpa [hfind] using hload
          exact h n' hfind
  | trees t =>
      cases hb : t.bytesAt key with
      | none => simp [Trees.load_of_missing hb] at hload
      | some b =>
          obtain ⟨n', hn', hcopy⟩ := h b hb
          obtain rfl : n' = n := by
            simpa [Trees.load_of_bytesAt hb, hn'] using hload
          exact hcopy
  | table t =>
      have h : t.rowsAt key = [] ∨ ∃ row cell, t.rowsAt key = [row] ∧
        { row with errors := cell }.message key = .ok m := h
      obtain ⟨e, -, heq⟩ | ⟨-, heq⟩ := t.answer_cases (.load key)
      · simp [heq] at hload
      rcases h with hrows | ⟨row, cell, hrows, hm⟩
      · simp [heq, Table.load_of_missing hrows] at hload
      · have hload : row.message key = .ok n := by
          simpa [heq, Table.load_of_rowsAt hrows] using hload
        exact Table.isCopyOf_of_message hload hm

/-- Counting a wrong pin makes a copy of a copy. -/
theorem increment (h : c.KeepsOnly key m) (hfits : m.Fits) :
    (c.answer (.increment key)).2.KeepsOnly key m := by
  cases hhas : c.has key with
  | false => rwa [answer_increment_snd_of_missing hhas]
  | true =>
      cases c with
      | shelf s =>
          obtain ⟨n, hfind⟩ : ∃ n, s.find? key = some n := Option.isSome_iff_exists.1 hhas
          have hinc := s.find?_increment key key
          rw [hfind, Option.map_some, if_pos (Shelf.key_of_find? hfind)] at hinc
          simp only [answer_shelf, Shelf.answer_increment_of_find? hfind]
          intro n' hn'
          obtain rfl := Option.some.inj (hinc.symm.trans hn')
          exact (h n hfind).recounted _
      | trees t =>
          obtain ⟨b, hb⟩ : ∃ b, t.bytesAt key = some b := Option.isSome_iff_exists.1 hhas
          obtain ⟨n, hn, hcopy⟩ := h b hb
          simp only [answer_trees, Trees.answer_increment, Trees.increment_of_bytesAt hb hn]
          intro b' hb'
          obtain rfl := Option.some.inj ((Tree.get?_insert_self ..).symm.trans hb')
          have hexact : n.IsExact := ⟨hcopy.fits hfits, Message.isOnCalendar_of_decode hn⟩
          exact ⟨_, Message.decode_encode (hexact.recounted _), hcopy.recounted (n.errors + 1)⟩
      | table t =>
          have h : t.rowsAt key = [] ∨ ∃ row cell, t.rowsAt key = [row] ∧
            { row with errors := cell }.message key = .ok m := h
          refine Table.answer_snd_of (P := fun t' => (table t').KeepsOnly key m) h ?_
          rcases h with hrows | ⟨row, cell, hrows, hm⟩
          · simp [hrows] at hhas
          · have hat := Table.isAt_of_rowsAt hrows
            simp only [Table.perform_increment, Table.increment, Table.find?_eq_head?, hrows,
              List.head?_cons]
            refine .inr ⟨row.increment, cell, ?_, hm⟩
            simp [Table.rowsAt_increment, hrows, hat]

/-- Whatever a store is asked, nothing but copies is found under a key at which nothing is saved. -/
theorem answer (h : c.KeepsOnly key m) (hfits : m.Fits) {r : Request}
    (hr : ∀ n, r = .save n → n.key ≠ key) : (c.answer r).2.KeepsOnly key m := by
  cases hkey : r.key? with
  | none =>
      cases r with
      | purge now => exact (slot_purge c now key).holdsOnly h
      | _ => contradiction
  | some key' =>
      by_cases hne : key' = key
      · subst hne
        cases r with
        | save n => exact absurd (Option.some.inj hkey) (hr n rfl)
        | load k => rwa [answer_load_snd]
        | increment k =>
            obtain rfl : k = key' := Option.some.inj hkey
            exact h.increment hfits
        | remove k =>
            obtain rfl : k = key' := Option.some.inj hkey
            cases hserves : c.refusal? (.remove k) with
            | none => exact keepsOnly_of_missing (answer_remove hserves).2
            | some e => rwa [answer_of_refused hserves]
        | purge now => contradiction
      · rw [KeepsOnly, slot_answer_of_ne hkey hne]
        exact h

theorem purgeStep (h : c.KeepsOnly key m) (now : Instant) (place : Bytes) :
    (c.purgeStep now place).KeepsOnly key m :=
  (slot_purgeStep c now place key).holdsOnly h

end KeepsOnly

end Contents

end ReadOnce
