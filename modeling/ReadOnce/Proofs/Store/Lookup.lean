import ReadOnce.Proofs.Fallible
import ReadOnce.Proofs.Store.Refusal
import ReadOnce.Proofs.Store.Tree
import ReadOnce.Store.Contents

/-!
# What is kept under a key

Each of the three forms of a store has one view for each key: the message on a shelf, the bytes in
a tree, the rows of a table. This module says what each operation does to the view of each key,
for shelves, trees and tables of any contents, also such as were written by others.
-/

namespace ReadOnce

namespace Request

/-- The key that a request is about, if it is about one. -/
def key? : Request → Option Key
  | save m => some m.key
  | load key | increment key | remove key => some key
  | purge _ => none

end Request

/-- A request with what it was answered. -/
structure Answered where
  request : Request
  reply : request.Reply

namespace Contents

/-- What contents are once they have answered some requests. -/
def after (c : Contents) (rs : List Request) : Contents :=
  rs.foldl (fun c r => (c.answer r).2) c

/-- What some requests in turn are answered. -/
def answers (c : Contents) : List Request → List Answered
  | [] => []
  | r :: rs => ⟨r, (c.answer r).1⟩ :: (c.answer r).2.answers rs

theorem after_append (c : Contents) (rs rs' : List Request) :
    c.after (rs ++ rs') = (c.after rs).after rs' :=
  List.foldl_append

end Contents

namespace Shelf

variable (s : Shelf) {key key' : Key}

/-- Keys are distinct, so a message that does not pass a test leaves nothing behind. -/
theorem find?_filter (keep : Message → Bool) (key : Key) :
    (s.filter keep).find? key = (s.find? key).filter keep := by
  obtain ⟨messages, distinct⟩ := s
  show (messages.filter keep).find? (·.key == key) = (messages.find? (·.key == key)).filter keep
  induction messages with
  | nil => rfl
  | cons m messages ih =>
      rw [List.map_cons, List.nodup_cons] at distinct
      have ih := ih distinct.2
      by_cases hm : m.key = key
      · subst hm
        have hnone : messages.find? (·.key == m.key) = none := by
          rw [List.find?_eq_none]
          intro n hn hkey
          exact distinct.1 (List.mem_map.2 ⟨n, hn, by simpa using hkey⟩)
        cases hk : keep m <;> simp [hk, ih, hnone, Option.filter_some]
      · have hne : (m.key == key) = false := by simpa using hm
        cases hk : keep m <;> simp [hk, hne, ih]

theorem key_of_find? {s : Shelf} {m : Message} (h : s.find? key = some m) : m.key = key := by
  simpa using List.find?_some h

theorem find?_insert (m : Message) (new : s.find? m.key = none) (key : Key) :
    (s.insert m new).find? key = if m.key = key then some m else s.find? key := by
  by_cases hm : m.key = key <;> simp [insert, find?, hm]

theorem find?_increment (key key' : Key) :
    (s.increment key).find? key' =
      (s.find? key').map fun m => if m.key = key then { m with errors := m.errors + 1 } else m := by
  have hsame : (fun m : Message => m.key == key') ∘
      (fun m => if m.key = key then { m with errors := m.errors + 1 } else m) =
        fun m => m.key == key' := by
    funext m
    simp only [Function.comp]
    split <;> rfl
  simp only [find?, increment, List.find?_map, hsame]

theorem find?_answer_of_ne {r : Request} {key key' : Key} (hr : r.key? = some key')
    (hne : key' ≠ key) : (s.answer r).2.find? key = s.find? key := by
  have hother {m : Message} (hm : s.find? key = some m) : m.key ≠ key' :=
    fun h => hne (h.symm.trans (key_of_find? hm))
  cases r with
  | save m =>
      obtain rfl : m.key = key' := Option.some.inj hr
      simp only [answer]
      split
      · rfl
      · rw [find?_insert, if_neg hne]
  | load k =>
      simp only [answer]
      split <;> rfl
  | increment k =>
      obtain rfl : k = key' := Option.some.inj hr
      simp only [answer]
      split
      · rw [find?_increment]
        cases hm : s.find? key with
        | none => rfl
        | some m => simp [hother hm]
      · rfl
  | remove k =>
      obtain rfl : k = key' := Option.some.inj hr
      simp only [answer, find?_filter]
      cases hm : s.find? key with
      | none => rfl
      | some m => simp [Option.filter_some, hother hm]
  | purge now => contradiction

end Shelf

namespace Trees

variable (t : Trees)

/-- A test leaves what there is or nothing. -/
theorem filter_eq_or_eq_none (o : Option Bytes) (p : Bytes → Bool) :
    o.filter p = o ∨ o.filter p = none := by
  cases o with
  | none => exact .inl rfl
  | some b =>
      rw [Option.filter_some]
      split
      · exact .inl rfl
      · exact .inr rfl

/-- The bytes kept under a key. -/
def bytesAt (key : Key) : Option Bytes :=
  t.messages.get? (Text.utf8 key.text)

variable {t} in
theorem load_of_bytesAt {key : Key} {b : Bytes} (h : t.bytesAt key = some b) :
    t.load key = (Message.decode b).mapError unreadable := by
  have h : t.messages.get? (Text.utf8 key.text) = some b := h
  simp only [load, h]
  cases Message.decode b <;> rfl

variable {t} in
theorem load_of_missing {key : Key} (h : t.bytesAt key = none) :
    t.load key = .error .loadRejected := by
  have h : t.messages.get? (Text.utf8 key.text) = none := h
  simp only [load, h]

variable {t} in
theorem increment_of_bytesAt {key : Key} {b : Bytes} {m : Message} (h : t.bytesAt key = some b)
    (hm : Message.decode b = .ok m) :
    t.increment key = (.ok (m.errors + 1), { t with
      messages := t.messages.insert (Text.utf8 key.text)
        (Message.encode { m with errors := m.errors + 1 }) }) := by
  simp only [increment, load_of_bytesAt h, hm, mapError_ok]

theorem utf8_text_ne {key key' : Key} (h : key' ≠ key) :
    Text.utf8 key'.text ≠ Text.utf8 key.text := by
  intro heq
  obtain ⟨s⟩ := key
  obtain ⟨s'⟩ := key'
  exact h (congrArg Key.mk (Text.utf8_inj.1 heq))

/-- The four things that a purge does at an index entry. -/
theorem purgeEntry_cases (now : Instant) (entry : Bytes) :
    (t.messages.get? (entry.drop stampSize) = none ∧
      t.purgeEntry now entry = (.ok false, { t with expiry := t.expiry.erase entry })) ∨
    (∃ b e, t.messages.get? (entry.drop stampSize) = some b ∧ Message.decode b = .error e ∧
      t.purgeEntry now entry = (.error (unreadable e), t)) ∨
    (∃ b m, t.messages.get? (entry.drop stampSize) = some b ∧ Message.decode b = .ok m ∧
      m.isExpired now = true ∧
      t.purgeEntry now entry =
        (.ok true, ⟨t.messages.erase (entry.drop stampSize), t.expiry.erase entry⟩)) ∨
    ∃ b m, t.messages.get? (entry.drop stampSize) = some b ∧ Message.decode b = .ok m ∧
      m.isExpired now = false ∧ t.purgeEntry now entry = (.ok false, t) := by
  cases hget : t.messages.get? (entry.drop stampSize) with
  | none => exact .inl ⟨rfl, by simp only [purgeEntry, hget]⟩
  | some b =>
      cases hm : Message.decode b with
      | error e => exact .inr (.inl ⟨b, e, rfl, hm, by simp only [purgeEntry, hget, hm]⟩)
      | ok m =>
          cases hexpired : m.isExpired now with
          | true =>
              refine .inr (.inr (.inl ⟨b, m, rfl, hm, hexpired, ?_⟩))
              simp only [purgeEntry, hget, hm, hexpired, if_true]
          | false =>
              refine .inr (.inr (.inr ⟨b, m, rfl, hm, hexpired, ?_⟩))
              simp only [purgeEntry, hget, hm, hexpired, Bool.false_eq_true, if_false]

/-- Whether bytes are those of a message that has reached its deadline. -/
def isReached (now : Instant) (b : Bytes) : Bool :=
  match Message.decode b with
  | .ok m => m.isExpired now
  | .error _ => false

theorem isReached_eq_true_iff {now : Instant} {b : Bytes} :
    isReached now b = true ↔ ∃ m, Message.decode b = .ok m ∧ m.isExpired now = true := by
  unfold isReached
  cases hm : Message.decode b with
  | ok m =>
      constructor
      · intro hexpired
        exact ⟨m, rfl, hexpired⟩
      · rintro ⟨n, hn, hexpired⟩
        obtain rfl := Except.ok.inj hn
        exact hexpired
  | error e =>
      constructor
      · intro hfalse
        contradiction
      · rintro ⟨n, hn, -⟩
        contradiction

/-- A visited index entry costs the key that it names its bytes, if their deadline has been
reached. -/
theorem get?_purgeEntry (now : Instant) (entry key : Bytes) :
    (t.purgeEntry now entry).2.messages.get? key =
      (t.messages.get? key).filter fun b => !(isReached now b && entry.drop stampSize == key) := by
  by_cases hkey : entry.drop stampSize = key
  · subst hkey
    obtain ⟨hget, hpurge⟩ | ⟨b, e, hget, hm, hpurge⟩ | ⟨b, m, hget, hm, hexpired, hpurge⟩ |
      ⟨b, m, hget, hm, hexpired, hpurge⟩ := t.purgeEntry_cases now entry
    · rw [hpurge, hget, Option.filter_none]
    · rw [hpurge, hget, Option.filter_some]
      simp [isReached, hm]
    · rw [hpurge, hget, Tree.get?_erase_self, Option.filter_some]
      simp [isReached, hm, hexpired]
    · rw [hpurge, hget, Option.filter_some]
      simp [isReached, hm, hexpired]
  · have hother : (t.purgeEntry now entry).2.messages.get? key = t.messages.get? key := by
      obtain ⟨-, hpurge⟩ | ⟨_, _, -, -, hpurge⟩ | ⟨_, _, -, -, -, hpurge⟩ |
        ⟨_, _, -, -, -, hpurge⟩ := t.purgeEntry_cases now entry
      · rw [hpurge]
      · rw [hpurge]
      · rw [hpurge, Tree.get?_erase_of_ne _ (Ne.symm hkey)]
      · rw [hpurge]
    have hne : (entry.drop stampSize == key) = false := beq_eq_false_iff_ne.2 hkey
    rw [hother]
    simp only [hne, Bool.and_false, Bool.not_false]
    cases t.messages.get? key <;> rfl

/-- Entries visited in turn cost a key its bytes only if their deadline has been reached. -/
theorem get?_purgeEntries (now : Instant) (entries : List Bytes) (count : Nat) (key : Bytes) :
    ∃ visited : Bool, (purgeEntries now entries count t).2.messages.get? key =
      (t.messages.get? key).filter fun b => !(isReached now b && visited) := by
  induction entries generalizing count t with
  | nil =>
      refine ⟨false, ?_⟩
      simp only [purgeEntries, Bool.and_false, Bool.not_false]
      cases t.messages.get? key <;> rfl
  | cons entry entries ih =>
      have hstep := t.get?_purgeEntry now entry key
      rw [purgeEntries]
      split
      · rename_i heq
        rw [heq] at hstep
        exact ⟨_, hstep⟩
      · rename_i dropped t' heq
        rw [heq] at hstep
        obtain ⟨visited, hrest⟩ := ih t' (if dropped then count + 1 else count)
        refine ⟨entry.drop stampSize == key || visited, ?_⟩
        rw [hrest, hstep, Option.filter_filter]
        congr 1
        funext b
        cases isReached now b <;> simp [Bool.and_comm]

/-- A visited index entry costs a key its bytes or leaves them. -/
theorem bytesAt_purgeEntry (now : Instant) (entry : Bytes) (key : Key) :
    (t.purgeEntry now entry).2.bytesAt key = t.bytesAt key ∨
      (t.purgeEntry now entry).2.bytesAt key = none := by
  rw [bytesAt, get?_purgeEntry, ← bytesAt]
  exact filter_eq_or_eq_none _ _

theorem bytesAt_purge (now : Instant) (key : Key) :
    (t.purge now).2.bytesAt key = t.bytesAt key ∨ (t.purge now).2.bytesAt key = none := by
  obtain ⟨visited, hpurge⟩ := t.get?_purgeEntries now (t.expiry.keysBelow (purgeBound now)) 0
    (Text.utf8 key.text)
  have hpurge : (t.purge now).2.bytesAt key = _ := hpurge
  rw [hpurge]
  exact filter_eq_or_eq_none _ _

theorem bytesAt_answer_of_ne {r : Request} {key key' : Key} (hr : r.key? = some key')
    (hne : key' ≠ key) : (t.answer r).2.bytesAt key = t.bytesAt key := by
  have hbytes := utf8_text_ne hne.symm
  cases r with
  | save m =>
      obtain rfl : m.key = key' := Option.some.inj hr
      simp only [answer, save]
      split
      · rfl
      · exact Tree.get?_insert_of_ne t.messages hbytes
  | load k => rfl
  | increment k =>
      obtain rfl : k = key' := Option.some.inj hr
      simp only [answer, increment]
      split
      · rfl
      · exact Tree.get?_insert_of_ne t.messages hbytes
  | remove k =>
      obtain rfl : k = key' := Option.some.inj hr
      simp only [answer, remove]
      split
      · rfl
      · exact Tree.get?_erase_of_ne t.messages hbytes
  | purge now => contradiction

end Trees

namespace Table

variable (t : Table)

/-- The rows under a key. -/
def rowsAt (key : Key) : List Row :=
  t.rows.filter (·.isAt key)

theorem find?_eq_head? (key : Key) : t.find? key = (t.rowsAt key).head? :=
  (List.head?_filter ..).symm

variable {t} in
theorem load_of_rowsAt {key : Key} {row : Row} {rows : List Row}
    (h : t.rowsAt key = row :: rows) : t.load key = row.message key := by
  simp only [load, find?_eq_head?, h, List.head?_cons]

variable {t} in
theorem load_of_missing {key : Key} (h : t.rowsAt key = []) :
    t.load key = .error .loadRejected := by
  simp only [load, find?_eq_head?, h, List.head?_nil]

variable {t} in
theorem isAt_of_rowsAt {row : Row} {key : Key} (h : t.rowsAt key = [row]) :
    row.isAt key = true := by
  have hmem : row ∈ t.rowsAt key := h ▸ List.mem_singleton_self row
  exact (List.mem_filter.1 hmem).2

@[simp] theorem isAt_ofMessage (m : Message) (exp : Int64) (key : Key) :
    (Row.ofMessage m exp).isAt key = decide (m.key = key) := by
  obtain ⟨⟨s⟩⟩ := m
  obtain ⟨s'⟩ := key
  by_cases h : s = s' <;> simp [Row.isAt, Row.ofMessage, h]

theorem isAt_of_isAt {row : Row} {key key' : Key} (h : row.isAt key = true) (hne : key' ≠ key) :
    row.isAt key' = false := by
  obtain ⟨s⟩ := key
  obtain ⟨s'⟩ := key'
  simp only [Row.isAt, beq_iff_eq] at h
  have hs : s ≠ s' := fun hs => hne (congrArg Key.mk hs.symm)
  simpa [Row.isAt, h] using hs

theorem find?_eq_of_mem {rows : List Row} {row : Row} {key : Key} (hrow : row ∈ rows)
    (hkey : row.isAt key = true) (hkeys : (rows.map Row.id).Nodup) :
    rows.find? (·.isAt key) = some row := by
  induction rows with
  | nil => contradiction
  | cons first rows ih =>
      rw [List.map_cons, List.nodup_cons] at hkeys
      rcases List.mem_cons.1 hrow with rfl | hrow
      · exact List.find?_cons_of_pos hkey
      · have hne : first.isAt key = false := by
          rw [Bool.eq_false_iff]
          intro hfirst
          have hid : first.id = row.id := (eq_of_beq hfirst).trans (eq_of_beq hkey).symm
          exact hkeys.1 (hid ▸ List.mem_map_of_mem hrow)
        rw [List.find?_cons, hne]
        exact ih hrow hkeys.2

theorem load_of_mem {t : Table} {row : Row} {key : Key} (hrow : row ∈ t.rows)
    (hkey : row.id = .text key.text) (hkeys : (t.rows.map Row.id).Nodup) :
    t.load key = row.message key := by
  simp only [load, find?, find?_eq_of_mem hrow (beq_iff_eq.2 hkey) hkeys]

theorem rowsAt_append (m : Message) (exp : Int64) (key : Key) :
    rowsAt { t with rows := t.rows ++ [Row.ofMessage m exp] } key =
      t.rowsAt key ++ (if m.key = key then [Row.ofMessage m exp] else []) := by
  by_cases h : m.key = key <;> simp [rowsAt, List.filter_append, isAt_ofMessage, h]

@[simp] theorem rowsAt_remove_self (key : Key) : (t.remove key).2.rowsAt key = [] := by
  simp [rowsAt, remove]

theorem rowsAt_remove_of_ne {key key' : Key} (h : key' ≠ key) :
    (t.remove key).2.rowsAt key' = t.rowsAt key' := by
  simp only [rowsAt, remove, List.filter_filter]
  apply List.filter_congr
  intro row _
  cases hrow : row.isAt key with
  | true => simp [isAt_of_isAt hrow h]
  | false => simp

/-- Counting leaves a row where it is. -/
theorem rowsAt_increment (key key' : Key) :
    rowsAt { t with
      rows := t.rows.map fun row => if row.isAt key then row.increment else row } key' =
        (t.rowsAt key').map fun row => if row.isAt key then row.increment else row := by
  have hsame : (fun row : Row => row.isAt key') ∘
      (fun row : Row => if row.isAt key then row.increment else row) =
        fun row => row.isAt key' := by
    funext row
    simp only [Function.comp]
    split <;> rfl
  simp only [rowsAt, List.filter_map, hsame]

theorem rowsAt_filter (keep : Row → Bool) (key : Key) :
    rowsAt { t with rows := t.rows.filter keep } key = (t.rowsAt key).filter keep := by
  simp only [rowsAt, List.filter_filter, Bool.and_comm]

theorem isSome_find? (key : Key) : (t.find? key).isSome = !(t.rowsAt key).isEmpty := by
  rw [find?_eq_head?]
  cases t.rowsAt key <;> rfl

theorem rowsAt_perform_of_ne {r : Request} {key key' : Key} (hr : r.key? = some key')
    (hne : key' ≠ key) : (t.perform r).2.rowsAt key = t.rowsAt key := by
  cases r with
  | save m =>
      obtain rfl : m.key = key' := Option.some.inj hr
      simp only [perform, save]
      split
      · rfl
      · split
        · rfl
        · rw [rowsAt_append, if_neg hne, List.append_nil]
  | load k => rfl
  | increment k =>
      obtain rfl : k = key' := Option.some.inj hr
      simp only [perform, increment]
      split
      · rfl
      · rw [rowsAt_increment]
        refine (List.map_congr_left fun row hrow => ?_).trans (List.map_id _)
        have hat := (List.mem_filter.1 hrow).2
        simp [isAt_of_isAt hat hne]
  | remove k =>
      obtain rfl : k = key' := Option.some.inj hr
      exact t.rowsAt_remove_of_ne hne.symm
  | purge now => contradiction

theorem rowsAt_answer_of_ne {r : Request} {key key' : Key} (hr : r.key? = some key')
    (hne : key' ≠ key) : (t.answer r).2.rowsAt key = t.rowsAt key :=
  answer_snd_of (P := fun t' => t'.rowsAt key = t.rowsAt key) rfl (t.rowsAt_perform_of_ne hr hne)

end Table

end ReadOnce
