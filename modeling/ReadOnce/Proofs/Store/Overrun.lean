import ReadOnce.Proofs.Store.Early
import ReadOnce.Proofs.Store.Saved

/-!
# Counts that leave 32 bits

A count of wrong pins is answered in 32 bits and is kept in a cell, where it goes on in 64 bits and
from there to a floating-point number. A request to count on is carried out before its answer is
read, so where the count leaves 32 bits it fails and has counted nevertheless. This is the one
failure of a table that changes it, and the one way to a row that is there and can no longer be
loaded.
-/

namespace ReadOnce

namespace Cell

/-- What follows the last whole number of 64 bits. -/
def pastWhole : Cell :=
  .real (Float.ofInt 9223372036854775807 + Float.ofInt 1)

/-- What a cell holds that has been counted on from 0 or more. -/
inductive IsCount : Cell → Prop
  | whole {n : Int64} (nonneg : 0 ≤ n.toInt) : IsCount (.integer n)
  | past : IsCount pastWhole

theorem ne_integer_of_pastWhole (n : Int64) : pastWhole ≠ integer n := by
  simp [pastWhole]

/-- Floating-point numbers of this size are two apart or more, so nothing is counted on. -/
theorem plus_one_pastWhole : (pastWhole.plus 1).asInteger = pastWhole := by
  decide +kernel

theorem plus_one_of_lt {n : Int64} (hn : 0 ≤ n.toInt) (hlt : n.toInt < 9223372036854775807) :
    ∃ k : Int64, k.toInt = n.toInt + 1 ∧ ((integer n).plus 1).asInteger = integer k := by
  have hone : (1 : Int64).toInt = 1 := rfl
  refine ⟨Int64.ofInt (n.toInt + 1), Int64.toInt_ofInt_of_le (by omega) (by omega), ?_⟩
  simp only [plus, numeric, int64?, hone]
  rw [if_pos (by omega)]
  rfl

theorem plus_one_of_last {n : Int64} (hn : n.toInt = 9223372036854775807) :
    ((integer n).plus 1).asInteger = pastWhole := by
  obtain rfl : n = Int64.maxValue := Int64.toInt_inj.1 hn
  decide +kernel

theorem IsCount.plus_one {c : Cell} (h : c.IsCount) : (c.plus 1).asInteger.IsCount := by
  cases h with
  | past => exact plus_one_pastWhole ▸ .past
  | @whole n hn =>
      rcases lt_or_ge n.toInt 9223372036854775807 with hlt | hge
      · obtain ⟨k, hk, heq⟩ := plus_one_of_lt hn hlt
        exact heq ▸ .whole (by omega)
      · have hmax := n.toInt_lt
        exact plus_one_of_last (n := n) (by omega) ▸ .past

end Cell

namespace Table

/-- A request that is not refused is to count on a count that is the last of 32 bits or has left
them. -/
def Overruns (t : Table) : Request → Prop
  | .increment key => t.refusal? (.increment key) = none ∧
      ∃ row n, t.find? key = some row ∧ row.errors = .integer n ∧ 4294967295 ≤ n.toInt
  | _ => False

theorem Column.count_eq_error_iff (c : Column) {n : Int64} (hn : 0 ≤ n.toInt) :
    (∃ e, c.count (.integer n) = .error e) ↔ 4294967296 ≤ n.toInt := by
  rw [Column.count]
  split <;> simp <;> omega

/-- To count on fails where a count is the last of 32 bits or beyond, and changes its cell unless it
is a floating-point number. -/
theorem count_plus_one_of_isCount (c : Column) {cell : Cell} (h : cell.IsCount) {e : StoreError}
    (herror : c.count (cell.plus 1).asInteger = .error e) :
    (cell.plus 1).asInteger = cell ↔ ¬∃ n, cell = .integer n ∧ 4294967295 ≤ n.toInt := by
  cases h with
  | past => simp [Cell.plus_one_pastWhole, Cell.ne_integer_of_pastWhole]
  | @whole n hn =>
      have hmax := n.toInt_lt
      rcases lt_or_ge n.toInt 9223372036854775807 with hlt | hge
      · obtain ⟨k, hk, heq⟩ := Cell.plus_one_of_lt hn hlt
        rw [heq] at herror ⊢
        have hover := (c.count_eq_error_iff (by omega)).1 ⟨e, herror⟩
        have hne : k ≠ n := by
          rintro rfl
          omega
        simp [hne]
        omega
      · rw [Cell.plus_one_of_last (by omega)]
        simp [Cell.pastWhole]
        omega

/-- A row that is found is the only one under its key. -/
theorem IsWritten.rowsAt_of_find? {t : Table} (h : t.IsWritten) {key : Key} {row : Row}
    (hfind : t.find? key = some row) : t.rowsAt key = [row] := by
  rw [find?_eq_head?] at hfind
  obtain ⟨rest, hrows⟩ := List.head?_eq_some_iff.1 hfind
  have hdistinct : ((t.rowsAt key).map Row.id).Nodup :=
    h.distinct.sublist (List.filter_sublist.map _)
  have hid (other : Row) (hother : other ∈ t.rowsAt key) : other.id = .text key.text :=
    beq_iff_eq.1 (List.mem_filter.1 hother).2
  cases rest with
  | nil => exact hrows
  | cons other rest =>
      simp [hrows, hid row (by simp [hrows]), hid other (by simp [hrows])] at hdistinct

/-- The rows were written for messages, none is too big, and their counts have been counted on from
those of the messages. -/
structure IsCounted (t : Table) : Prop extends t.IsWritten where
  errors : ∀ row ∈ t.rows, row.errors.IsCount
  sizes : ∀ row ∈ t.rows, row.isTooBig = false

theorem isCounted_empty : Table.empty.IsCounted where
  toIsWritten := isWritten_empty
  errors _ hrow := absurd hrow List.not_mem_nil
  sizes _ hrow := absurd hrow List.not_mem_nil

namespace IsCounted

variable {t : Table} (h : t.IsCounted)
include h

theorem filter (keep : Row → Bool) : IsCounted { t with rows := t.rows.filter keep } where
  toIsWritten := h.toIsWritten.filter keep
  errors row hrow := h.errors row (List.mem_filter.1 hrow).1
  sizes row hrow := h.sizes row (List.mem_filter.1 hrow).1

theorem save {m : Message} {exp : Int64} (new : t.find? m.key = none)
    (hsize : (Row.ofMessage m exp).isTooBig = false) :
    IsCounted { t with rows := t.rows ++ [Row.ofMessage m exp] } where
  toIsWritten := h.toIsWritten.save exp new
  errors row hrow := by
    rcases List.mem_append.1 hrow with hrow | hrow
    · exact h.errors row hrow
    · obtain rfl := List.mem_singleton.1 hrow
      have hlt := m.errors.toNat_lt
      have hcount : (Int64.ofNat m.errors.toNat).toInt = m.errors.toNat :=
        Int64.toInt_ofNat_of_lt (by omega)
      exact .whole (by omega)
  sizes row hrow := by
    rcases List.mem_append.1 hrow with hrow | hrow
    · exact h.sizes row hrow
    · obtain rfl := List.mem_singleton.1 hrow
      exact hsize

theorem increment {key : Key} {row : Row} (hfind : t.find? key = some row)
    (hsize : row.increment.isTooBig = false) :
    IsCounted { t with
      rows := t.rows.map fun row => if row.isAt key then row.increment else row } where
  toIsWritten := h.toIsWritten.increment key
  errors row hrow := by
    obtain ⟨row', hrow', rfl⟩ := List.mem_map.1 hrow
    split
    · exact (h.errors row' hrow').plus_one
    · exact h.errors row' hrow'
  sizes row hrow := by
    obtain ⟨row', hrow', rfl⟩ := List.mem_map.1 hrow
    split
    · rename_i hkey
      have hmem : row' ∈ t.rowsAt key := List.mem_filter.2 ⟨hrow', hkey⟩
      obtain rfl := List.mem_singleton.1 (h.rowsAt_of_find? hfind ▸ hmem)
      exact hsize
    · exact h.sizes row' hrow'

theorem answer (r : Request) : (t.answer r).2.IsCounted := by
  obtain ⟨e, -, heq⟩ | ⟨htaken, heq⟩ := t.answer_cases r
  · rwa [heq]
  rw [heq]
  cases r with
  | save m =>
      simp only [perform_save, Table.save]
      split
      · exact h
      · rename_i exp hexp
        split
        · exact h
        · rename_i new
          exact h.save new (size_of_saved htaken hexp new)
  | load key => exact h
  | increment key =>
      simp only [perform_increment, Table.increment]
      split
      · exact h
      · rename_i row hfind
        exact h.increment hfind ((refusal?_increment_eq_none_iff.1 htaken).2 row hfind)
  | remove key => exact h.filter _
  | purge now => exact h.filter _

end IsCounted

/-- Counting on changes a table exactly if it changes the row that is counted on. -/
theorem IsWritten.increment_eq_self_iff {t : Table} (h : t.IsWritten) {key : Key} {row : Row}
    (hfind : t.find? key = some row) :
    (t.increment key).2 = t ↔ (row.errors.plus 1).asInteger = row.errors := by
  have hrows := h.rowsAt_of_find? hfind
  have hat := isAt_of_rowsAt hrows
  simp only [Table.increment, hfind]
  constructor
  · intro hsame
    have hcounted := t.rowsAt_increment key key
    rw [hsame, hrows, List.map_singleton, if_pos hat] at hcounted
    exact congrArg Row.errors (List.singleton_inj.1 hcounted).symm
  · intro hsame
    have hmap : (t.rows.map fun row => if row.isAt key then row.increment else row) = t.rows := by
      refine (List.map_congr_left fun other hother => ?_).trans (List.map_id _)
      split
      · rename_i hkey
        have hmem : other ∈ t.rowsAt key := List.mem_filter.2 ⟨hother, hkey⟩
        obtain rfl := List.mem_singleton.1 (hrows ▸ hmem)
        simp only [Row.increment, hsame, id]
      · rfl
    rw [hmap]

/-- What cannot be done leaves a table as it is, except for a count that leaves 32 bits. -/
theorem IsCounted.answer_error {t : Table} (h : t.IsCounted) {r : Request} {e : StoreError}
    (herror : (t.answer r).1 = .error e) : (t.answer r).2 = t ↔ ¬t.Overruns r := by
  cases r with
  | save m =>
      have hsame : Contents.table (t.answer (.save m)).2 = .table t :=
        Contents.answer_save_of_error (c := .table t) herror
      simp [Overruns, Contents.table.inj hsame]
  | load key => simp [Overruns]
  | remove key => simp [Overruns, answer_snd_of_error_of_remove herror]
  | purge now => simp [Overruns, answer_snd_of_error_of_purge herror]
  | increment key =>
      obtain ⟨e', hrefused, heq⟩ | ⟨htaken, heq⟩ := t.answer_cases (.increment key)
      · simp [heq, Overruns, hrefused]
      rw [heq, perform_increment] at herror ⊢
      cases hfind : t.find? key with
      | none => simp [Table.increment, Overruns, hfind]
      | some row =>
          have hcount := h.errors row (List.mem_of_find?_eq_some hfind)
          simp only [Table.increment, hfind] at herror
          -- A count past the whole numbers fails as well, but is no longer changed.
          have hcell := count_plus_one_of_isCount _ hcount herror
          rw [h.increment_eq_self_iff hfind, hcell]
          simp [Overruns, hfind, htaken]

/-- A message is loaded from the only row under its key. -/
theorem IsWritten.keeps_of_load {t : Table} (h : t.IsWritten) {key : Key} {m : Message}
    (hload : t.load key = .ok m) : (Contents.table t).Keeps key m := by
  cases hfind : t.find? key with
  | none => simp [load, hfind] at hload
  | some row =>
      simp only [load, hfind] at hload
      exact ⟨row, h.rowsAt_of_find? hfind, hload⟩

/-- A row whose count is the last of 32 bits does not read back once it is counted on. -/
theorem message_increment_of_last {row : Row} {key : Key} {m : Message}
    (h : row.message key = .ok m) (hlast : m.errors = 4294967295) (n : Message) :
    row.increment.message key ≠ .ok n := by
  intro hread
  obtain ⟨-, -, -, -, hcount, -⟩ := message_eq_ok_iff.1 h
  obtain ⟨-, -, -, -, hcounted, -⟩ := message_eq_ok_iff.1 hread
  obtain ⟨k, hcell, hk⟩ := Column.eq_integer_of_count _ hcount
  have hk : k.toInt = 4294967295 := by
    rw [hk, hlast]
    rfl
  obtain ⟨k', hk', heq⟩ := Cell.plus_one_of_lt (n := k) (by omega) (by omega)
  obtain ⟨e, he⟩ := (Column.count_eq_error_iff (Column.mk 3 "errors") (n := k') (by omega)).2
    (by omega)
  simp [Row.increment, hcell, heq, he] at hcounted

theorem load_increment {t : Table} {key : Key} {row : Row} (hrows : t.rowsAt key = [row]) :
    (t.increment key).2.load key = row.increment.message key := by
  simp only [increment, find?_eq_head? t, hrows, List.head?_cons]
  rw [load, find?_eq_head?, rowsAt_increment]
  simp [hrows, isAt_of_rowsAt hrows]

/-- A row that is counted on is loaded unless its count was the last of 32 bits. -/
theorem message_increment_eq_error_iff {row : Row} {key : Key} {m : Message}
    (h : row.message key = .ok m) :
    (∃ e, e ≠ .loadRejected ∧ row.increment.message key = .error e) ↔ m.errors = 4294967295 := by
  by_cases hlast : m.errors = 4294967295
  · cases hread : row.increment.message key with
    | ok n => exact absurd hread (message_increment_of_last h hlast n)
    | error e =>
        refine iff_of_true ⟨e, ?_, rfl⟩ hlast
        rintro rfl
        exact message_ne_loadRejected _ _ hread
  · have hroom : m.errors.toNat + 1 < 4294967296 := by
      have hlt := m.errors.toNat_lt
      have hne : m.errors.toNat ≠ 4294967295 := fun heq => hlast (UInt32.toNat_inj.1 heq)
      omega
    simp [message_increment h hroom, hlast]

/-- A row takes as many bytes with the last count of 32 bits as with the next. -/
theorem size_increment_of_last {row : Row} {key : Key} {m : Message}
    (h : row.message key = .ok m) (hlast : m.errors = 4294967295) :
    row.increment.size = row.size := by
  obtain ⟨-, -, -, -, hcount, -⟩ := message_eq_ok_iff.1 h
  obtain ⟨k, hcell, hk⟩ := Column.eq_integer_of_count _ hcount
  have hk : k.toInt = 4294967295 := by
    rw [hk, hlast]
    rfl
  obtain ⟨k', hk', heq⟩ := Cell.plus_one_of_lt (n := k) (by omega) (by omega)
  obtain rfl : k = 4294967295 := Int64.toInt_inj.1 hk
  obtain rfl : k' = 4294967296 := Int64.toInt_inj.1 hk'
  have hsize : (Cell.integer 4294967296).size = (Cell.integer 4294967295).size := by decide
  simp only [Row.size, Row.increment, hcell, heq, hsize]

/-- A message that is loaded is still loaded after any request, or is gone, unless its count is the
last of 32 bits and is counted on. -/
theorem IsCounted.load_answer {t : Table} (h : t.IsCounted) {key : Key} {m : Message}
    (hserves : (Contents.table t).Serves key) (hload : t.load key = .ok m) (r : Request) :
    (∃ e, e ≠ .loadRejected ∧ ((t.answer r).2.answer (.load key)).1 = .error e) ↔
      r = .increment key ∧ m.errors = 4294967295 := by
  have hkeeps := h.keeps_of_load hload
  have hserves' : (Contents.table (t.answer r).2).Serves key := hserves.answer r
  have htaken : (t.answer r).2.refusal? (.load key) = none := hserves'.load
  have hafter : ((t.answer r).2.answer (.load key)).1 = (t.answer r).2.load key :=
    congrArg Prod.fst (answer_of_taken htaken)
  by_cases hr : r = .increment key
  · subst hr
    obtain ⟨row, hrows, hm⟩ := hkeeps
    have hrows : t.rowsAt key = [row] := hrows
    have hfind : t.find? key = some row := by
      rw [find?_eq_head?, hrows, List.head?_cons]
    rw [hafter]
    obtain ⟨e, hrefused, heq⟩ | ⟨-, heq⟩ := t.answer_cases (.increment key)
    · -- A row that may hold the last count of 32 bits may hold the next one.
      have hroom : m.errors ≠ 4294967295 := by
        intro hlast
        have htaken : t.refusal? (.increment key) = none := by
          refine refusal?_increment_eq_none_iff.2 ⟨hserves, fun row' hrow' => ?_⟩
          obtain rfl := Option.some.inj (hfind.symm.trans hrow')
          have hsize := h.sizes row (List.mem_of_find?_eq_some hfind)
          rwa [Row.isTooBig, size_increment_of_last hm hlast]
        rw [htaken] at hrefused
        contradiction
      simp [heq, hload, hroom]
    · rw [heq, perform_increment, load_increment hrows, message_increment_eq_error_iff hm]
      simp
  · rcases Contents.keeps_answer_of_ne_increment hr hkeeps with hkept | hgone
    · have hloads : ((t.answer r).2.answer (.load key)).1 = .ok m :=
        Contents.answer_load_of_keeps hserves'.load hkept
      simp [hloads, hr]
    · have hloads : ((t.answer r).2.answer (.load key)).1 = .error .loadRejected :=
        (Contents.answer_load_eq_loadRejected_iff hserves').2 hgone
      simp [hloads, hr]

/-- Whoever loads a message is served. -/
theorem IsWritten.serves_of_load {t : Table} (h : t.IsWritten) {key : Key} {m : Message}
    (hload : (t.answer (.load key)).1 = .ok m) :
    (Contents.table t).Serves key ∧ t.load key = .ok m := by
  obtain ⟨e, -, heq⟩ | ⟨htaken, heq⟩ := t.answer_cases (.load key)
  · simp [heq] at hload
  · rw [heq] at hload
    exact ⟨refusal?_remove_eq_none_iff.2 ⟨refusal?_load_eq_none_iff.1 htaken, h.isReadOnly⟩, hload⟩

end Table

/-- Whatever has happened to a store since its table was empty, what it cannot do leaves it as it
is, except that a count which leaves 32 bits is counted on nevertheless. A message that is loaded is
still loaded after any request, or is gone; again except that it cannot be loaded any more once the
last count of 32 bits is counted on. -/
theorem Service.intact_unless_overrun {s : Service} (hempty : s.contents = .table .empty)
    (steps : List Step) :
    let store := (s.after steps).stored.store
    ∃ t, store.contents = .table t ∧ ∀ r : Request,
      (∀ e, (store.answer r).1 = .error e →
        ((store.answer r).2 = store ↔ ¬(store.isClosed = false ∧ t.Overruns r))) ∧
      ∀ key m, (store.answer (.load key)).1 = .ok m →
        ((∃ e, e ≠ .loadRejected ∧ ((store.answer r).2.answer (.load key)).1 = .error e) ↔
          r = .increment key ∧ m.errors = 4294967295) := by
  obtain ⟨t, ht, h⟩ :=
    exists_table_after (fun _ r h => h.answer r) Table.isCounted_empty hempty steps
  intro store
  have ht : store.contents = .table t := ht
  refine ⟨t, ht, ?_⟩
  intro r
  obtain ⟨c, isClosed⟩ := store
  obtain rfl : c = .table t := ht
  cases isClosed with
  | true =>
      rw [Store.answer_of_closed rfl]
      exact ⟨fun _ _ => by simp, fun _ _ hload => by simp [Store.answer_of_closed] at hload⟩
  | false =>
      simp only [Store.answer_of_open, Store.mk.injEq, and_true, true_and]
      refine ⟨fun e herror => ?_, fun key m hload => ?_⟩
      · rw [← h.answer_error herror]
        exact ⟨Contents.table.inj, congrArg Contents.table⟩
      · obtain ⟨hserves, hload⟩ := h.serves_of_load hload
        exact h.load_answer hserves hload r

/-- A message is saved with the last count of 32 bits. The next wrong pin is answered with an error
and counted, and the message cannot be loaded any more. -/
theorem Service.intact_unless_overrun_trial :
    let m : Message :=
      ⟨⟨"k"⟩, ⟨1700000030, 0, by decide, by decide, by decide⟩, [], "h", 4294967295, false⟩
    let s : Service := ⟨.table none, 0, ⟨[]⟩, ⟨⟨.table .empty, false⟩, []⟩, .epoch, 0, .disabled⟩
    let store := (s.after [.ask (.save m)]).stored.store
    let counted := store.answer (.increment m.key)
    s.contents = .table .empty ∧ (store.answer (.load m.key)).1 = .ok m ∧
      counted.1 = .error ((Table.Column.mk 0 "errors").outOfRange 4294967296) ∧
      counted.2 ≠ store ∧
      ∃ e, e ≠ .loadRejected ∧ (counted.2.answer (.load m.key)).1 = .error e := by
  intro m s store counted
  have hempty : s.contents = .table .empty := rfl
  have hload : (store.answer (.load m.key)).1 = .ok m := by decide +kernel
  have herror : counted.1 = .error ((Table.Column.mk 0 "errors").outOfRange 4294967296) := by
    decide +kernel
  obtain ⟨t, -, hintact⟩ := intact_unless_overrun hempty [.ask (.save m)]
  obtain ⟨e, he, hlost⟩ := ((hintact (.increment m.key)).2 m.key m hload).2 ⟨rfl, rfl⟩
  refine ⟨hempty, hload, herror, ?_, e, he, hlost⟩
  intro hsame
  rw [hsame, hload] at hlost
  cases hlost

end ReadOnce
