import ReadOnce.Proofs.Store.Lookup
import ReadOnce.Proofs.Store.Row
import ReadOnce.Proofs.Store.Service

/-!
# Rows that a purge drops early

A table compares nanoseconds since the epoch, in 64 bits, where the order of instants is that of
seconds and then of nanoseconds within the second. For deadlines as they are read back from their
cells the two agree, with two exceptions. The nanoseconds of a leap second are those of the second
after it, so a purge within a leap second takes deadlines of the next second for reached. And a
purge before all instants whose nanoseconds fit in 64 bits counts as one at the first of them, and
takes that deadline for reached. There the leap second before the first second that fits counts as
before them all, whatever its nanoseconds.

A purge at any instant drops the rows whose deadlines have been reached and those of the two
exceptions, and leaves the others as they are and in their order.
-/

namespace ReadOnce

namespace Table

/-- A purge takes a deadline for reached that is yet to come. -/
inductive TakesEarly (now deadline : Instant) : Prop where
  /-- The purge is made within a leap second, and the deadline is no further into the next one. -/
  | leap (isLeap : now.isLeap = true) (first_le : -9223372037 ≤ now.secs)
      (next : deadline.secs = now.secs + 1) (nanos_le : deadline.nanos + 1000000000 ≤ now.nanos)
  /-- The deadline is the first whose nanoseconds fit in 64 bits, and the purge is made before. -/
  | first (now_lt : now.secs < -9223372037 ∨ now.unixNanos < -9223372036854775808)
      (eq_first : deadline.unixNanos = -9223372036854775808)

/-- What a purge takes early has not been reached. -/
theorem TakesEarly.not_le {now deadline : Instant} (h : TakesEarly now deadline)
    (hleap : deadline.isLeap = false) : ¬deadline ≤ now := by
  have hnanos := Instant.nanos_lt_of_isLeap_eq_false hleap
  intro hle
  have hle : deadline.secs < now.secs ∨ deadline.secs = now.secs ∧ deadline.nanos ≤ now.nanos := hle
  cases h with
  | leap _ _ hnext _ => omega
  | first hlt heq =>
      simp only [Instant.unixNanos] at hlt heq
      omega

/-- Deadlines of cells are compared with an instant as the instants they stand for, but for those
that are taken early. -/
theorem atMost_clampedNanos_iff (n : Int64) (now : Instant) :
    (Cell.integer n).atMost (clampedNanos now) = true ↔
      instantOf n ≤ now ∨ TakesEarly now (instantOf n) := by
  have hmin := n.le_toInt
  have hmax := n.toInt_lt
  have hleap := now.nanos_lt
  have hcell (k : Int64) : (Cell.integer n).atMost k = true ↔ n.toInt ≤ k.toInt := by
    rw [Cell.atMost, decide_eq_true_eq, Int64.le_iff_toInt_le]
  have hle : instantOf n ≤ now ↔ n.toInt / 1000000000 < now.secs ∨
      n.toInt / 1000000000 = now.secs ∧ (n.toInt % 1000000000).toNat ≤ now.nanos := Iff.rfl
  have hearly : TakesEarly now (instantOf n) ↔
      -9223372037 ≤ now.secs ∧ n.toInt / 1000000000 = now.secs + 1 ∧
          (n.toInt % 1000000000).toNat + 1000000000 ≤ now.nanos ∨
        (now.secs < -9223372037 ∨ now.unixNanos < -9223372036854775808) ∧
          n.toInt = -9223372036854775808 := by
    constructor
    · rintro (⟨-, hfirst, hnext, hnanos⟩ | ⟨hlt, heq⟩)
      · exact .inl ⟨hfirst, hnext, hnanos⟩
      · exact .inr ⟨hlt, (unixNanos_instantOf n).symm.trans heq⟩
    · rintro (⟨hfirst, hnext, hnanos⟩ | ⟨hlt, heq⟩)
      · exact .leap (decide_eq_true (by omega)) hfirst hnext hnanos
      · exact .first hlt ((unixNanos_instantOf n).trans heq)
  rw [hcell, hle, hearly]
  cases hnow : nanos? now with
  | some k =>
      have hk := nanos?_eq_some_iff.1 hnow
      have hkmin := k.le_toInt
      simp only [clampedNanos, hnow, Instant.unixNanos] at hk ⊢
      omega
  | none =>
      -- The instant is beyond one of the ends.
      have hrange : ¬(-9223372037 ≤ now.secs ∧ -9223372036854775808 ≤ now.unixNanos ∧
          now.unixNanos ≤ 9223372036854775807) := by
        rintro ⟨hsecs, hrange⟩
        simp [nanos?, Cell.int64?, hrange, Int.not_lt.2 hsecs] at hnow
      have hfirst : Int64.minValue.toInt = -9223372036854775808 := rfl
      have hlast : Int64.maxValue.toInt = 9223372036854775807 := rfl
      simp only [clampedNanos, hnow, Instant.unixNanos] at hrange ⊢
      split <;> omega

/-- The rows were written for messages, each under a key of its own, and may be changed. -/
structure IsWritten (t : Table) : Prop where
  isReadOnly : t.isReadOnly = false
  rows : ∀ row ∈ t.rows, ∃ (key : Key) (exp : Int64),
    row.id = .text key.text ∧ row.exp = .integer exp
  distinct : (t.rows.map Row.id).Nodup

theorem isWritten_empty : Table.empty.IsWritten where
  isReadOnly := rfl
  rows _ hrow := absurd hrow List.not_mem_nil
  distinct := List.nodup_nil

namespace IsWritten

variable {t : Table} (h : t.IsWritten)
include h

theorem filter (keep : Row → Bool) : IsWritten { t with rows := t.rows.filter keep } where
  isReadOnly := h.isReadOnly
  rows row hrow := h.rows row (List.mem_filter.1 hrow).1
  distinct := h.distinct.sublist (List.filter_sublist.map _)

theorem save {m : Message} (exp : Int64) (new : t.find? m.key = none) :
    IsWritten { t with rows := t.rows ++ [Row.ofMessage m exp] } where
  isReadOnly := h.isReadOnly
  rows row hrow := by
    rcases List.mem_append.1 hrow with hrow | hrow
    · exact h.rows row hrow
    · obtain rfl := List.mem_singleton.1 hrow
      exact ⟨m.key, exp, rfl, rfl⟩
  distinct := by
    rw [List.map_append, List.nodup_append]
    refine ⟨h.distinct, List.nodup_singleton _, ?_⟩
    intro id hid id' hid' heq
    obtain ⟨row, hrow, rfl⟩ := List.mem_map.1 hid
    obtain rfl := List.mem_singleton.1 hid'
    exact List.find?_eq_none.1 new row hrow (beq_iff_eq.2 heq)

theorem increment (key : Key) :
    IsWritten { t with
      rows := t.rows.map fun row => if row.isAt key then row.increment else row } where
  isReadOnly := h.isReadOnly
  rows row hrow := by
    obtain ⟨row', hrow', rfl⟩ := List.mem_map.1 hrow
    split <;> exact h.rows row' hrow'
  distinct := by
    have hsame : Row.id ∘ (fun row : Row => if row.isAt key then row.increment else row) =
        Row.id := by
      funext row
      simp only [Function.comp_apply]
      split <;> rfl
    rw [List.map_map, hsame]
    exact h.distinct

theorem answer (r : Request) : (t.answer r).2.IsWritten := by
  refine answer_snd_of h ?_
  cases r with
  | save m =>
      simp only [perform_save, Table.save]
      split
      · exact h
      · split
        · exact h
        · rename_i exp _ _ new
          exact h.save exp new
  | load key => exact h
  | increment key =>
      simp only [perform_increment, Table.increment]
      split
      · exact h
      · exact h.increment key
  | remove key => exact h.filter _
  | purge now => exact h.filter _

end IsWritten

/-- A purge tells how many rows it drops. -/
theorem length_purge (t : Table) (now : Instant) :
    (t.purge now).1 + (t.purge now).2.rows.length = t.rows.length := by
  rw [purge, ← List.countP_eq_length_filter]
  have hsplit := List.length_eq_countP_add_countP
    (fun row : Row => row.exp.atMost (clampedNanos now)) (l := t.rows)
  simp only [decide_not, Bool.decide_eq_true] at hsplit
  exact hsplit.symm

end Table

/-- What answers leave true is true of a table in service that was empty, after any steps. -/
theorem Service.exists_table_after {Q : Table → Prop} (hanswer : ∀ t r, Q t → Q (t.answer r).2)
    (h : Q .empty) {s : Service} (hempty : s.contents = .table .empty) (steps : List Step) :
    ∃ t, (s.after steps).contents = .table t ∧ Q t := by
  refine contents_induction (P := fun c => ∃ t, c = .table t ∧ Q t) (R := fun _ => True)
    ?_ (fun _ => trivial) ⟨.empty, hempty, h⟩ (fun _ _ => trivial)
  rintro c r ⟨t, rfl, ht⟩ -
  exact ⟨_, rfl, hanswer t r ht⟩

/-- Whatever has happened to a table in service since it was empty, each of its rows has a key of
its own and a deadline, with which it is loaded if it is loaded at all. A purge at any instant is
carried out: it drops the rows whose deadlines have been reached and those that it takes early,
leaves the others as they are and in their order, and tells how many it has dropped. -/
theorem Service.purged_rows_after {s : Service} (hempty : s.contents = .table .empty)
    (steps : List Step) :
    ∃ t, (s.after steps).contents = .table t ∧ (t.rows.map Table.Row.id).Nodup ∧
      ∀ now, t.answer (.purge now) = (.ok (t.purge now).1, (t.purge now).2) ∧
        (t.purge now).1 + (t.purge now).2.rows.length = t.rows.length ∧
        (t.purge now).2.rows.Sublist t.rows ∧
        ∀ row ∈ t.rows, ∃ (key : Key) (exp : Int64), row.id = .text key.text ∧
          (∀ m, t.load key = .ok m → m.expiresAt = Table.instantOf exp) ∧
          (row ∈ (t.purge now).2.rows ↔
            ¬(Table.instantOf exp ≤ now ∨ Table.TakesEarly now (Table.instantOf exp))) := by
  obtain ⟨t, ht, h⟩ :=
    exists_table_after (fun _ r h => h.answer r) Table.isWritten_empty hempty steps
  refine ⟨t, ht, h.distinct, ?_⟩
  intro now
  have htaken : t.refusal? (.purge now) = none := Table.refusal?_purge_eq_none_iff.2 h.isReadOnly
  refine ⟨Table.answer_of_taken htaken, t.length_purge now, List.filter_sublist, ?_⟩
  intro row hrow
  obtain ⟨key, exp, hid, hexp⟩ := h.rows row hrow
  refine ⟨key, exp, hid, ?_, ?_⟩
  · intro m hm
    rw [Table.load_of_mem hrow hid h.distinct] at hm
    obtain ⟨exp', hexp', -, -, -, -, -, hdeadline⟩ := Table.message_eq_ok_iff.1 hm
    have hcell := Table.Column.eq_integer_of_ok _ hexp'
    obtain rfl : exp = exp' := Cell.integer.inj (hexp.symm.trans hcell)
    exact hdeadline
  · rw [← Table.atMost_clampedNanos_iff, ← hexp]
    simp [Table.purge, hrow]

/-- A message with the first deadline that a table keeps, and one whose deadline is the instant
after a leap second: a purge before all deadlines drops the one, and a purge within the leap second
the other, though neither deadline has been reached. -/
theorem Service.purged_rows_early :
    let m : Message :=
      ⟨⟨"a"⟩, ⟨-9223372037, 145224192, by decide, by decide, by decide⟩, [], "", 0, false⟩
    let n : Message := ⟨⟨"b"⟩, ⟨60, 0, by decide, by decide, by decide⟩, [], "", 0, false⟩
    let before : Instant := ⟨-9223372038, 0, by decide, by decide, by decide⟩
    let within : Instant := ⟨59, 1000000000, by decide, by decide, by decide⟩
    let s : Service := ⟨.table none, 0, ⟨[]⟩, ⟨⟨.table .empty, false⟩, []⟩, .epoch, 0, .disabled⟩
    s.contents = .table .empty ∧ m.isExpired before = false ∧ n.isExpired within = false ∧
      (∃ t, (s.after [.ask (.save m)]).contents = .table t ∧ t.load m.key = .ok m ∧
        (t.purge before).2.rows = []) ∧
      ∃ t, (s.after [.ask (.save n)]).contents = .table t ∧ t.load n.key = .ok n ∧
        (t.purge within).2.rows = [] := by
  intro m n before within s
  have hempty : s.contents = .table .empty := rfl
  have hdropped {m : Message} {now : Instant} (htaken : Table.empty.refusal? (.save m) = none)
      (hplain : m.expiresAt.IsPlain) (hearly : Table.TakesEarly now m.expiresAt) :
      ∃ t, (s.after [.ask (.save m)]).contents = .table t ∧ t.load m.key = .ok m ∧
        (t.purge now).2.rows = [] := by
    obtain ⟨t, ht, hdistinct, hpurge⟩ := purged_rows_after hempty [.ask (.save m)]
    have hsaved : Contents.table (Table.answer .empty (.save m)).2 = .table t := ht
    rw [Table.answer_of_taken htaken] at hsaved
    simp only [Table.perform_save, Table.save, Table.nanos?_of_isPlain hplain] at hsaved
    obtain rfl := Contents.table.inj hsaved
    have hload : Table.load _ m.key = _ :=
      Table.load_of_mem (List.mem_singleton_self _) rfl hdistinct
    rw [Table.message_ofMessage, Table.instantOf_clampedNanos hplain] at hload
    obtain ⟨-, -, hsub, hrows⟩ := hpurge now
    refine ⟨_, ht, hload, List.eq_nil_iff_forall_not_mem.2 ?_⟩
    intro row hrow
    obtain ⟨key, exp, hid, hdeadline, hiff⟩ := hrows row (hsub.subset hrow)
    obtain rfl := List.mem_singleton.1 (hsub.subset hrow)
    have hkey : m.key = key := congrArg Key.mk (Cell.text.inj hid)
    apply hiff.1 hrow
    right
    rw [← hdeadline m (hkey ▸ hload)]
    exact hearly
  refine ⟨hempty, by decide, by decide, ?_, ?_⟩
  · exact hdropped (by decide) ⟨by decide, by decide, by decide⟩
      (.first (.inl (by decide)) (by decide))
  · exact hdropped (by decide) ⟨by decide, by decide, by decide⟩
      (.leap (by decide) (by decide) (by decide) (by decide))

end ReadOnce
