import ReadOnce.Proofs.Store.Mirror
import ReadOnce.Proofs.Store.Row

/-!
# Rows that mirror a shelf

Rows mirror a shelf if there is one for each of its messages and no other. They answer as the shelf
as long as every deadline, and every instant that a purge is made at, is plain: those are the
instants whose nanoseconds a cell can hold and that are read back from them. Only the words with
which a message of a key in use is refused are the table's own.

A count that fills its 32 bits goes back to 0 on a shelf but goes on in a cell, so there must be
room for one more.
-/

namespace ReadOnce

/-- A message whose bytes and whose row read as the message. -/
structure Message.IsPlain (m : Message) : Prop where
  fits : m.Fits
  deadline : m.expiresAt.IsPlain

theorem Message.IsPlain.isExact {m : Message} (h : m.IsPlain) : m.IsExact :=
  h.fits.isExact h.deadline.isLeap

/-- Saving plain messages, purging at plain instants, and anything else. -/
def Request.IsPlain : Request → Prop
  | save m => m.IsPlain
  | purge now => now.IsPlain
  | _ => True

namespace StoreError

/-- A failure without the words that a message is refused with. -/
def unworded : StoreError → StoreError
  | saveRejected _ => saveRejected ""
  | e => e

end StoreError

/-- A reply without the words that a message is refused with. -/
def unworded {α : Type} (reply : Except StoreError α) : Except StoreError α :=
  reply.mapError StoreError.unworded

namespace Shelf

variable {s : Shelf}

/-- All messages of a shelf are plain. -/
def IsPlain (s : Shelf) : Prop :=
  ∀ m ∈ s.messages, m.IsPlain

/-- There is room for one more wrong pin where a request counts one. -/
def HasRoom (s : Shelf) : Request → Prop
  | .increment key => ∀ m, s.find? key = some m → m.errors.toNat + 1 < 4294967296
  | _ => True

theorem IsPlain.filter (h : s.IsPlain) (keep : Message → Bool) : (s.filter keep).IsPlain :=
  fun m hm => h m (List.mem_filter.1 hm).1

theorem IsPlain.increment (h : s.IsPlain) (key : Key) : (s.increment key).IsPlain := by
  intro n hn
  obtain ⟨m, hm, rfl⟩ := List.mem_map.1 hn
  obtain ⟨hfits, hdeadline⟩ := h m hm
  split
  · exact ⟨hfits.recounted _, hdeadline⟩
  · exact ⟨hfits, hdeadline⟩

theorem IsPlain.answer (h : s.IsPlain) {r : Request} (hr : r.IsPlain) :
    (s.answer r).2.IsPlain := by
  cases r with
  | save m =>
      cases hfind : s.find? m.key with
      | none =>
          rw [answer_save_of_missing s hfind]
          exact List.forall_mem_cons.2 ⟨hr, h⟩
      | some n =>
          rw [answer_save_of_find? s hfind]
          exact h
  | load key =>
      simp only [Shelf.answer]
      split <;> exact h
  | increment key =>
      simp only [Shelf.answer]
      split
      · exact h.increment key
      · exact h
  | remove key => exact h.filter _
  | purge now => exact h.filter _

end Shelf

namespace Table

/-- The row of a message. -/
def Row.of (m : Message) : Row :=
  .ofMessage m (clampedNanos m.expiresAt)

@[simp] theorem Row.isAt_of (m : Message) (key : Key) :
    (Row.of m).isAt key = decide (m.key = key) :=
  isAt_ofMessage m _ key

theorem Row.message_of {m : Message} (h : m.expiresAt.IsPlain) :
    (Row.of m).message m.key = .ok m := by
  rw [Row.of, message_ofMessage, instantOf_clampedNanos h]

theorem Row.increment_of {m : Message} (hroom : m.errors.toNat + 1 < 4294967296) :
    (Row.of m).increment = Row.of { m with errors := m.errors + 1 } := by
  have hcount := Column.count_ofNat (Column.mk 0 "errors") m.errors
  have hplus := Column.plus_one_of_count _ hcount hroom
  simp only [Row.increment, Row.of, Row.ofMessage, hplus]

/-- The rows are those of the messages of a shelf, in any order. -/
def Mirrors (t : Table) (s : Shelf) : Prop :=
  t.rows.Perm (s.messages.map Row.of)

namespace Mirrors

variable {t : Table} {s : Shelf} {key : Key} {m : Message}

theorem find? (h : t.Mirrors s) (key : Key) : t.find? key = (s.find? key).map Row.of := by
  cases hrow : t.find? key with
  | none =>
      cases hfind : s.find? key with
      | none => rfl
      | some m =>
          have hmem : Row.of m ∈ t.rows :=
            h.mem_iff.2 (List.mem_map_of_mem (Shelf.mem_of_find? hfind))
          have hnot := List.find?_eq_none.1 hrow _ hmem
          rw [Row.isAt_of, Shelf.key_of_find? hfind] at hnot
          simp at hnot
  | some row =>
      obtain ⟨m, hm, rfl⟩ := List.mem_map.1 (h.mem_iff.1 (List.mem_of_find?_eq_some hrow))
      have hat := List.find?_some hrow
      rw [Row.isAt_of] at hat
      obtain rfl := of_decide_eq_true hat
      rw [s.find?_key_of_mem hm, Option.map_some]

theorem save (h : t.Mirrors s) (new : s.find? m.key = none) :
    Mirrors { t with rows := t.rows ++ [Row.of m] } (s.insert m new) :=
  (List.perm_append_singleton _ _).trans (h.cons _)

theorem increment (h : t.Mirrors s)
    (hroom : ∀ m, s.find? key = some m → m.errors.toNat + 1 < 4294967296) :
    Mirrors { t with rows := t.rows.map fun row => if row.isAt key then row.increment else row }
      (s.increment key) := by
  refine (h.map _).trans (.of_eq ?_)
  simp only [Shelf.increment, List.map_map]
  apply List.map_congr_left
  -- Only the row under the key counts on, so only its count needs room.
  intro m hm
  simp only [Function.comp_apply, Row.isAt_of, decide_eq_true_eq]
  split
  · rename_i hkey
    exact Row.increment_of (hroom m (hkey ▸ s.find?_key_of_mem hm))
  · rfl

/-- Rows are dropped as the messages that they are of. -/
theorem filter (h : t.Mirrors s) {keepRow : Row → Bool} {keep : Message → Bool}
    (hsame : ∀ m ∈ s.messages, keepRow (Row.of m) = keep m) :
    Mirrors { t with rows := t.rows.filter keepRow } (s.filter keep) := by
  refine (List.Perm.filter keepRow h).trans (.of_eq ?_)
  rw [List.filter_map]
  exact congrArg (List.map Row.of) (List.filter_congr hsame)

theorem remove (h : t.Mirrors s) (key : Key) :
    (t.remove key).2.Mirrors (s.filter (·.key != key)) := by
  apply h.filter
  intro m _
  rw [Row.isAt_of]
  rfl

theorem purge (h : t.Mirrors s) (hs : s.IsPlain) {now : Instant} (hnow : now.IsPlain) :
    (t.purge now).1 = s.messages.countP (·.isExpired now) ∧
      (t.purge now).2.Mirrors (s.filter fun m => !m.isExpired now) := by
  have hdue (m : Message) (hm : m ∈ s.messages) :=
    atMost_of_message (Row.message_of (hs m hm).deadline) hnow
  constructor
  · refine (h.countP_eq _).trans ?_
    rw [List.countP_map]
    apply List.countP_congr
    intro m hm
    rw [Function.comp_apply, hdue m hm]
  · apply h.filter
    intro m hm
    exact congrArg not (hdue m hm)

/-- Plain rows answer as the shelf that they mirror unless they refuse to, and mirror it again
afterwards. -/
theorem answer (h : t.Mirrors s) (hs : s.IsPlain) {r : Request} (hr : r.IsPlain)
    (hroom : s.HasRoom r) (htaken : t.refusal? r = none) :
    unworded (t.answer r).1 = unworded (s.answer r).1 ∧ (t.answer r).2.Mirrors (s.answer r).2 := by
  rw [answer_of_taken htaken]
  cases r with
  | save m =>
      have hrow := h.find? m.key
      cases hfind : s.find? m.key with
      | none =>
          rw [hfind, Option.map_none] at hrow
          rw [s.answer_save_of_missing hfind]
          simp only [perform_save, Table.save, nanos?_of_isPlain hr.deadline, hrow]
          exact ⟨trivial, h.save hfind⟩
      | some n =>
          rw [hfind, Option.map_some] at hrow
          rw [s.answer_save_of_find? hfind]
          simp only [perform_save, Table.save, nanos?_of_isPlain hr.deadline, hrow]
          exact ⟨rfl, h⟩
  | load key =>
      have hrow := h.find? key
      cases hfind : s.find? key with
      | none =>
          rw [hfind, Option.map_none] at hrow
          rw [Shelf.answer_load_of_missing hfind]
          simp only [perform_load, Table.load, hrow]
          exact ⟨trivial, h⟩
      | some m =>
          rw [hfind, Option.map_some] at hrow
          obtain rfl := Shelf.key_of_find? hfind
          have hread := Row.message_of (hs m (Shelf.mem_of_find? hfind)).deadline
          rw [Shelf.answer_load_of_find? hfind]
          simp only [perform_load, Table.load, hrow, hread]
          exact ⟨trivial, h⟩
  | increment key =>
      have hrow := h.find? key
      cases hfind : s.find? key with
      | none =>
          rw [hfind, Option.map_none] at hrow
          rw [Shelf.answer_increment_of_missing hfind]
          simp only [perform_increment, Table.increment, hrow]
          exact ⟨trivial, h⟩
      | some m =>
          rw [hfind, Option.map_some] at hrow
          have hcount := Column.count_ofNat (Column.mk 0 "errors") (m.errors + 1)
          have hinc := Row.increment_of (hroom m hfind)
          rw [Shelf.answer_increment_of_find? hfind]
          simp only [perform_increment, Table.increment, hrow, hinc]
          exact ⟨congrArg unworded hcount, h.increment hroom⟩
  | remove key =>
      refine ⟨?_, h.remove key⟩
      simp only [perform_remove, Table.remove, h.find?, Option.isSome_map, Shelf.answer_remove]
  | purge now =>
      obtain ⟨hcount, hmirrors⟩ := h.purge hs hr
      exact ⟨congrArg (unworded ∘ Except.ok) hcount, hmirrors⟩

end Mirrors

end Table

end ReadOnce
