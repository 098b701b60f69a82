import ReadOnce.Proofs.Store.Undisturbed

/-!
# Saving and loading

A message that is saved is loaded as it is, whatever store it is saved in, with one exception: a
table has no nanoseconds for an instant within a leap second, nor have trees a text if the calendar
does not have the leap second, and a deadline there comes back as the one a second later with the
same nanoseconds since the epoch. No other key is answered differently because of it, and what is
not saved leaves everything as it was.

Nothing is asked of what the store keeps. It may have been written by others, or have been closed
and opened again.
-/

namespace ReadOnce

namespace Contents

variable {c : Contents} {m : Message} {key : Key}

theorem answer_load_save_of_ne (hne : key ≠ m.key) :
    ((c.answer (.save m)).2.answer (.load key)).1 = (c.answer (.load key)).1 :=
  (answer_congr rfl (isReadOnly_answer c _) (slot_answer_of_ne rfl hne.symm)).1

/-- What is not saved leaves no trace. -/
theorem answer_save_of_error {e : StoreError} (h : (c.answer (.save m)).1 = .error e) :
    (c.answer (.save m)).2 = c := by
  cases c with
  | shelf s =>
      simp only [answer, Shelf.answer] at h ⊢
      split at h
      · rfl
      · contradiction
  | trees t =>
      simp only [answer_trees, Trees.answer_save, Trees.save] at h ⊢
      split at h
      · rfl
      · contradiction
  | table t =>
      obtain ⟨e', -, heq⟩ | ⟨-, heq⟩ := t.answer_cases (.save m)
      · rw [answer_table, heq]
      · simp only [answer_table, heq, Table.perform_save, Table.save] at h ⊢
        split at h
        · rfl
        · split at h
          · rfl
          · contradiction

/-- Anything but counting leaves a record as it is or takes it away. -/
theorem keeps_answer_of_ne_increment {r : Request} (hr : r ≠ .increment key) (h : c.Keeps key m) :
    (c.answer r).2.Keeps key m ∨ (c.answer r).2.has key = false := by
  by_cases hkey : r.key? = some key
  · cases r with
    | save n =>
        obtain rfl : n.key = key := Option.some.inj hkey
        cases hsaved : (c.answer (.save n)).1 with
        | ok u => exact absurd (has_of_keeps h) (by simp [(slot_save hsaved).1])
        | error e =>
            rw [answer_save_of_error hsaved]
            exact .inl h
    | load k =>
        rw [answer_load_snd]
        exact .inl h
    | increment k => exact absurd (congrArg Request.increment (Option.some.inj hkey)) hr
    | remove k =>
        obtain rfl : k = key := Option.some.inj hkey
        cases hserves : c.refusal? (.remove k) with
        | none => exact .inr (answer_remove hserves).2
        | some e =>
            rw [answer_of_refused hserves]
            exact .inl h
    | purge now => contradiction
  · exact keeps_answer_of_ne hkey h

end Contents

/-- In an open store, whatever it keeps, a message that is saved is loaded with all that it was
saved with, except that a deadline that the form of the store shifts comes back as another instant
with the same nanoseconds since the epoch: a table does so in leap seconds, trees in those that the
calendar does not have. Other keys are answered as before, and a message that is not saved changes
nothing. -/
theorem Store.load_of_saved {s : Store} (hopen : s.isClosed = false) {m : Message}
    (hfits : m.Fits) :
    ((s.answer (.save m)).1 = .ok () →
      ∃ t : Instant, t.unixNanos = m.expiresAt.unixNanos ∧
        (t = m.expiresAt ↔ s.contents.shifts m.expiresAt = false) ∧
        ((s.answer (.save m)).2.answer (.load m.key)).1 = .ok { m with expiresAt := t }) ∧
    (∀ key, key ≠ m.key →
      ((s.answer (.save m)).2.answer (.load key)).1 = (s.answer (.load key)).1) ∧
    ∀ e, (s.answer (.save m)).1 = .error e → (s.answer (.save m)).2 = s := by
  obtain ⟨c, isClosed⟩ := s
  obtain rfl : isClosed = false := hopen
  refine ⟨?_, ?_, ?_⟩
  · intro hsaved
    obtain ⟨t, -, hnanos, hexact, hkeeps⟩ := Contents.keeps_save hfits hsaved
    have hserves := (Contents.serves_of_saved hsaved).answer (.save m)
    exact ⟨t, hnanos, hexact, Contents.answer_load_of_keeps hserves.load hkeeps⟩
  · intro key hne
    exact Contents.answer_load_save_of_ne hne
  · intro e herror
    exact congrArg (Store.mk · false) (Contents.answer_save_of_error herror)

/-- A message whose deadline lies within a leap second. -/
def Message.leapTrial : Message where
  key := ⟨""⟩
  expiresAt := ⟨59, 1500000000, by decide, by decide, by decide⟩
  data := []
  pinHash := ""
  errors := 4294967295
  clientEncrypted := true

/-- It comes back from trees as it was, and from a table with another deadline. -/
theorem Store.load_of_saved_leap :
    Message.leapTrial.Fits ∧
      (((Store.mk (.trees .empty) false).answer (.save .leapTrial)).2.answer (.load ⟨""⟩)).1 =
        .ok .leapTrial ∧
      ∃ t : Instant, t ≠ Message.leapTrial.expiresAt ∧ t.unixNanos = 60500000000 ∧
        (((Store.mk (.table .empty) false).answer (.save .leapTrial)).2.answer (.load ⟨""⟩)).1 =
          .ok { Message.leapTrial with expiresAt := t } := by
  have hfits : Message.leapTrial.Fits := ⟨by decide, by decide, by decide⟩
  refine ⟨hfits, ?_, ?_⟩
  · obtain ⟨t, -, hexact, hload⟩ :=
      (Store.load_of_saved (s := ⟨.trees .empty, false⟩) rfl hfits).1 rfl
    rwa [hexact.2 rfl] at hload
  · obtain ⟨t, hnanos, hexact, hload⟩ :=
      (Store.load_of_saved (s := ⟨.table .empty, false⟩) rfl hfits).1 rfl
    exact ⟨t, fun heq => absurd (hexact.1 heq) (by decide), hnanos, hload⟩

end ReadOnce
