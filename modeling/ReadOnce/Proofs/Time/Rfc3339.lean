import Mathlib.Data.List.TakeWhile
import ReadOnce.Proofs.Time.Calendar
import ReadOnce.Proofs.Time.Instant
import ReadOnce.Time.Rfc3339

/-!
# Instants read back

The reader of instants accepts far more than the writer writes, so each of its parts is run on
exactly what the matching part of the writer gives, followed by anything that may follow there.
Fields of a fixed width need nothing of what follows; years and fractions end at a mark.

`ofText_stored` says that every instant is read back from its text as the calendar has it, leap
seconds and years outside 0 to 9999 included. A text never says anything else
(`isOnCalendar_of_ofText`).
-/

namespace ReadOnce

namespace Text

theorem fixedDigits_succ_eq_cons (width n : Nat) :
    ∃ c cs, fixedDigits (width + 1) n = c :: cs ∧ isDigit c = true := by
  cases h : fixedDigits (width + 1) n with
  | nil => simpa using congrArg List.length h
  | cons c cs =>
      have hmem : c ∈ fixedDigits (width + 1) n := by simp [h]
      exact ⟨c, cs, rfl, isDigit_of_mem_fixedDigits hmem⟩

theorem isBlank_eq_false_of_isDigit {c : Char} (h : isDigit c = true) : isBlank c = false := by
  have hc : 48 ≤ c.toNat ∧ c.toNat ≤ 57 := by
    simpa [isDigit, Char.le_def, UInt32.le_iff_toNat_le] using h
  simp only [isBlank, Bool.or_eq_false_iff, Bool.and_eq_false_iff, decide_eq_false_iff_not,
    beq_eq_false_iff_ne]
  omega

theorem skipBlanks_cons {c : Char} (cs : List Char) (h : isBlank c = false) :
    skipBlanks (c :: cs) = c :: cs := by
  simp [skipBlanks, h]

theorem skipBlanks_fixedDigits (width n : Nat) (rest : List Char) :
    skipBlanks (fixedDigits (width + 1) n ++ rest) = fixedDigits (width + 1) n ++ rest := by
  obtain ⟨c, cs, hcs, hc⟩ := fixedDigits_succ_eq_cons width n
  rw [hcs]
  exact skipBlanks_cons _ (isBlank_eq_false_of_isDigit hc)

end Text

namespace Instant

open ReadOnce.Text

/-- Digits end where they are as many as may be read, or at a character that is no digit. -/
theorem readDigits_fixedDigits {limit width n : Nat} {rest : List Char}
    (hn : n < Nat.pow 10 (width + 1))
    (hend : limit = width + 1 ∨ width + 1 ≤ limit ∧ ∀ c ∈ rest.head?, isDigit c = false) :
    readDigits limit (fixedDigits (width + 1) n ++ rest) = .ok (n, rest) := by
  have hall : ∀ c ∈ fixedDigits (width + 1) n, isDigit c = true :=
    fun c hc => isDigit_of_mem_fixedDigits hc
  have htake : ((fixedDigits (width + 1) n ++ rest).take limit).takeWhile isDigit =
      fixedDigits (width + 1) n := by
    have hlen := length_fixedDigits (width + 1) n
    rcases hend with rfl | ⟨hle, hrest⟩
    · rw [List.take_left' hlen, List.takeWhile_eq_self_iff.2 hall]
    · rw [List.take_append, List.take_of_length_le (by omega), List.takeWhile_append_of_pos hall]
      have hnil :
          (rest.take (limit - (fixedDigits (width + 1) n).length)).takeWhile isDigit = [] := by
        cases rest with
        | nil => simp
        | cons c cs =>
            have hc := hrest c rfl
            cases limit - (fixedDigits (width + 1) n).length <;> simp [hc]
      rw [hnil, List.append_nil]
  obtain ⟨c, cs, hcs, -⟩ := fixedDigits_succ_eq_cons width n
  have hvalue : decimalValue (fixedDigits (width + 1) n) = n := by
    rw [decimalValue_fixedDigits]
    exact Nat.mod_eq_of_lt hn
  simp only [readDigits, htake, hvalue, List.drop_left]
  simp [hcs]

theorem readField_fixedDigits {lo hi n : Nat} (rest : List Char) (hlo : lo ≤ n) (hhi : n ≤ hi)
    (hn : n < 100) : readField lo hi (fixedDigits 2 n ++ rest) = .ok (n, rest) := by
  rw [readField, skipBlanks_fixedDigits, readDigits_fixedDigits hn (.inl rfl)]
  exact if_pos ⟨hlo, hhi⟩

theorem readMark_cons {c : Char} (rest : List Char) (h : isBlank c = false) :
    readMark c (c :: rest) = .ok rest := by
  simp [readMark, skipBlanks_cons rest h]

theorem readYear_fixedDigits {n : Nat} (hn : n < 10000) (rest : List Char) :
    readYear (fixedDigits 4 n ++ '-' :: rest) = .ok ((n : Int), '-' :: rest) := by
  obtain ⟨c, cs, hcs, hc⟩ := fixedDigits_succ_eq_cons 3 n
  have hread : readDigits 4 (fixedDigits 4 n ++ '-' :: rest) = .ok (n, '-' :: rest) :=
    readDigits_fixedDigits hn (.inl rfl)
  rw [readYear, skipBlanks_fixedDigits]
  rw [hcs, List.cons_append] at hread ⊢
  split
  · rename_i heq
    cases heq
    contradiction
  · rename_i heq
    cases heq
    contradiction
  · rw [hread]
    rfl

theorem readSignedYear_fixedDigits {sign : Int} {width n : Nat} (hn : n < Nat.pow 10 (width + 1))
    (hrange : -2147483648 ≤ sign * n ∧ sign * n ≤ 2147483647) (rest : List Char) :
    readSignedYear sign (fixedDigits (width + 1) n ++ '-' :: rest) =
      .ok (sign * n, '-' :: rest) := by
  have hend : width + 1 ≤ (fixedDigits (width + 1) n ++ '-' :: rest).length ∧
      ∀ c ∈ ('-' :: rest).head?, isDigit c = false :=
    ⟨by simp, by rintro c ⟨rfl⟩; rfl⟩
  rw [readSignedYear, readDigits_fixedDigits hn (.inr hend)]
  exact if_pos hrange

/-- A year of up to six digits is read back up to the mark that follows it. -/
theorem readYear_yearText {y : Int} (hlo : -1000000 < y) (hhi : y < 1000000) (rest : List Char) :
    readYear (yearText y ++ '-' :: rest) = .ok (y, '-' :: rest) := by
  by_cases hfour : 0 ≤ y ∧ y ≤ 9999
  · have htext : yearText y = fixedDigits 4 y.natAbs := by
      rw [yearText, if_pos hfour, if_pos (by omega)]
    rw [htext, readYear_fixedDigits (by omega), Int.natAbs_of_nonneg hfour.1]
  · obtain ⟨width, hwidth, hfits⟩ : ∃ width,
        (if y.natAbs < 10000 then 4 else if y.natAbs < 100000 then 5 else 6) = width + 1 ∧
          y.natAbs < Nat.pow 10 (width + 1) := by
      split
      · exact ⟨3, rfl, by assumption⟩
      · split
        · exact ⟨4, rfl, by assumption⟩
        · exact ⟨5, rfl, show y.natAbs < 1000000 by omega⟩
    rw [yearText, if_neg hfour, hwidth]
    by_cases hneg : y < 0
    · rw [if_pos hneg]
      have hy : (-1 : Int) * y.natAbs = y := by omega
      have hread : readSignedYear (-1) (fixedDigits (width + 1) y.natAbs ++ '-' :: rest) =
          .ok (-1 * y.natAbs, '-' :: rest) :=
        readSignedYear_fixedDigits hfits (by omega) rest
      rw [hy] at hread
      exact hread
    · rw [if_neg hneg]
      have hy : (1 : Int) * y.natAbs = y := by omega
      have hread : readSignedYear 1 (fixedDigits (width + 1) y.natAbs ++ '-' :: rest) =
          .ok (1 * y.natAbs, '-' :: rest) :=
        readSignedYear_fixedDigits hfits (by omega) rest
      rw [hy] at hread
      exact hread

@[simp] theorem date_isValid (t : Instant) : t.date.isValid = true := by
  have hfirst := t.first_le
  have hlast := t.le_last
  exact Date.isValid_ofDays (by omega) (by omega)

theorem daysInMonth_le (y : Int) (m : Nat) : Date.daysInMonth y m ≤ 31 := by
  unfold Date.daysInMonth
  split
  · split <;> omega
  · split <;> omega

theorem readDate_dateText (t : Instant) (rest : List Char) :
    readDate (t.dateText ++ 'T' :: rest) = .ok (t.date, 'T' :: rest) := by
  have hvalid := t.date_isValid
  simp only [Date.isValid, Bool.and_eq_true, decide_eq_true_eq] at hvalid
  obtain ⟨⟨⟨⟨⟨hfirst, hlast⟩, hmonth⟩, hmonth'⟩, hday⟩, hday'⟩ := hvalid
  have hmost := daysInMonth_le t.date.year t.date.month
  have hyears : Date.firstYear = -262143 ∧ Date.lastYear = 262142 := ⟨rfl, rfl⟩
  simp only [readDate, dateText, List.append_assoc, List.cons_append,
    readYear_yearText (y := t.date.year) (by omega) (by omega),
    readMark_cons (c := '-') _ rfl, readField_fixedDigits _ hmonth hmonth' (by omega),
    readField_fixedDigits _ hday (show t.date.day ≤ 31 by omega) (by omega), bind, Except.bind]

/-- Three, six or nine digits make up nanoseconds with the zeros that were left out. -/
theorem readFraction_fixedDigits {width n : Nat} (hw : width < 9)
    (hn : n < Nat.pow 10 (width + 1)) :
    readFraction ('.' :: (fixedDigits (width + 1) n ++ ['Z'])) =
      .ok (n * Nat.pow 10 (8 - width), ['Z']) := by
  have hread : readDigits 9 (fixedDigits (width + 1) n ++ ['Z']) = .ok (n, ['Z']) :=
    readDigits_fixedDigits hn (.inr ⟨by omega, by rintro c ⟨rfl⟩; rfl⟩)
  have hlen : 9 - ((fixedDigits (width + 1) n ++ ['Z']).length - ['Z'].length) = 8 - width := by
    simp
  simp only [readFraction, hread, bind, Except.bind, hlen]
  rfl

/-- A fraction is read back up to the mark that follows it. -/
theorem readFraction_fractionText {n : Nat} (hn : n < 1000000000) :
    readFraction (fractionText n ++ ['Z']) = .ok (n, ['Z']) := by
  unfold fractionText
  split
  · rename_i hzero
    rw [hzero]
    rfl
  · split
    · rw [List.cons_append, readFraction_fixedDigits (by decide) (show _ < 1000 by omega)]
      have : n / 1000000 * Nat.pow 10 (8 - 2) = n := by
        show n / 1000000 * 1000000 = n
        omega
      rw [this]
    · split
      · rw [List.cons_append, readFraction_fixedDigits (by decide) (show _ < 1000000 by omega)]
        have : n / 1000 * Nat.pow 10 (8 - 5) = n := by
          show n / 1000 * 1000 = n
          omega
        rw [this]
      · rw [List.cons_append, readFraction_fixedDigits (by decide) hn]
        have : n * Nat.pow 10 (8 - 8) = n := Nat.mul_one n
        rw [this]

/-- The second of an instant is 60 exactly in a leap second, which has the nanoseconds of the
second before it and a thousand million more. -/
theorem readTime_timeText {t : Instant} (h : t.IsOnCalendar) :
    readTime (t.timeText ++ ['Z']) = .ok ((t.secondOfDay, t.nanos), ['Z']) := by
  have hday : t.secondOfDay < 86400 := by unfold secondOfDay; omega
  have hleap : t.nanos < 1000000000 ∨ t.nanos < 2000000000 ∧ t.secondOfDay % 60 = 59 := by
    have := t.nanos_lt
    have h : t.nanos < 1000000000 ∨ t.secs % 60 = 59 := h
    unfold secondOfDay
    omega
  have hhour : t.secondOfDay / 3600 ≤ 23 := by omega
  have hminute : t.secondOfDay / 60 % 60 ≤ 59 := by omega
  have hsecond : t.secondOfDay % 60 + t.nanos / 1000000000 ≤ 60 := by omega
  simp only [readTime, timeText, List.append_assoc, List.cons_append,
    readMark_cons (c := ':') _ rfl, readField_fixedDigits _ (Nat.zero_le _) hhour (by omega),
    readField_fixedDigits _ (Nat.zero_le _) hminute (by omega),
    readField_fixedDigits _ (Nat.zero_le _) hsecond (by omega),
    readFraction_fractionText (n := t.nanos % 1000000000) (by omega), bind, Except.bind]
  rcases hleap with hlt | ⟨hlt, hlast⟩
  · rw [if_neg (by omega)]
    simp
    omega
  · by_cases hge : 1000000000 ≤ t.nanos
    · rw [if_pos (by omega)]
      simp
      omega
    · rw [if_neg (by omega)]
      simp
      omega

/-- An instant of the calendar is read back from its characters. -/
theorem ofChars_rfc3339 {t : Instant} (h : t.IsOnCalendar) : ofChars t.rfc3339 = .ok t := by
  have hsecs : t.date.toDays * 86400 + t.secondOfDay - 0 = t.secs := by
    rw [date, Date.toDays_ofDays]
    unfold secondOfDay
    omega
  have hfields : ofFields t.date (t.secondOfDay, t.nanos) 0 = .ok t := by
    simp only [ofFields, t.date_isValid, hsecs, of?_self]
    rfl
  have hmark (rest : List Char) : readSeparator ('T' :: rest) = .ok rest := rfl
  simp only [ofChars, rfc3339, List.append_assoc, List.cons_append, readDate_dateText, hmark,
    readTime_timeText h, bind, Except.bind]
  exact hfields

/-- A leap second that the calendar does not have is written as the second after it. -/
@[simp] theorem rfc3339_onCalendar (t : Instant) : t.onCalendar.rfc3339 = t.rfc3339 := by
  by_cases h : t.IsOnCalendar
  · rw [onCalendar_of_isOnCalendar h]
  · obtain ⟨hsecs, hnanos⟩ := onCalendar_of_not h
    have hlt := t.nanos_lt
    have hminute : t.secs % 60 ≠ 59 := fun hlast => h (.inr hlast)
    have hdate : t.onCalendar.date = t.date := congrArg Date.ofDays (by omega)
    have hday : t.onCalendar.secondOfDay = t.secondOfDay + 1 := by
      unfold secondOfDay
      omega
    have hshort : t.secondOfDay % 60 ≠ 59 := by
      unfold secondOfDay
      omega
    have htime : t.onCalendar.timeText = t.timeText := by
      simp only [timeText, hday]
      rw [show (t.secondOfDay + 1) / 3600 = t.secondOfDay / 3600 by omega,
        show (t.secondOfDay + 1) / 60 % 60 = t.secondOfDay / 60 % 60 by omega,
        show (t.secondOfDay + 1) % 60 + t.onCalendar.nanos / 1000000000 =
          t.secondOfDay % 60 + t.nanos / 1000000000 by omega,
        show t.onCalendar.nanos % 1000000000 = t.nanos % 1000000000 by omega]
    rw [rfc3339, dateText, hdate, htime]
    rfl

@[simp] theorem stored_onCalendar (t : Instant) : t.onCalendar.stored = t.stored := by
  rw [stored, rfc3339_onCalendar, stored]

/-- Every instant is read back from its text as the calendar has it. -/
@[simp] theorem ofText_stored (t : Instant) : ofText t.stored = .ok t.onCalendar := by
  rw [← stored_onCalendar, ofText, stored, String.toList_ofList,
    ofChars_rfc3339 t.isOnCalendar_onCalendar]

end Instant

end ReadOnce
