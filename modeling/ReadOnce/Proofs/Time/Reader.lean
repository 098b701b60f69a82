import Mathlib.Data.List.Induction
import Mathlib.Tactic.Ring
import ReadOnce.Proofs.Fallible
import ReadOnce.Proofs.Time.Rfc3339

/-!
# What a text can say

A text gives each field in digits, a leap second as second 60, and an offset from UTC in whole
minutes. So the nanoseconds that are read stay below a thousand million, or the second is the last
of its minute, in UTC too: whatever instant is read is one that the calendar has.
-/

namespace ReadOnce

namespace Text

theorem digitValue_le_of_isDigit {c : Char} (h : isDigit c = true) : digitValue c ≤ 9 := by
  have hc : 48 ≤ c.toNat ∧ c.toNat ≤ 57 := by
    simpa [isDigit, Char.le_def, UInt32.le_iff_toNat_le] using h
  have hzero : '0'.toNat = 48 := rfl
  unfold digitValue
  omega

/-- Digits write a number of no more digits. -/
theorem decimalValue_lt {ds : List Char} (h : ∀ c ∈ ds, isDigit c = true) :
    decimalValue ds < Nat.pow 10 ds.length := by
  -- The value is built up from the left, so the last digit is the one to take off.
  induction ds using List.reverseRecOn with
  | nil => exact Nat.one_pos
  | append_singleton ds c ih =>
      have hds := ih fun c hc => h c (List.mem_append_left _ hc)
      have hc := digitValue_le_of_isDigit (h c (by simp))
      have hpow : Nat.pow 10 (ds.length + 1) = Nat.pow 10 ds.length * 10 := rfl
      unfold decimalValue at hds ⊢
      rw [List.foldl_append, List.length_append, List.length_singleton, hpow]
      show 10 * List.foldl _ 0 ds + digitValue c < _
      omega

end Text

namespace Instant

open ReadOnce.Text

/-- A number is read off as many characters as it has digits, no more than may be read. -/
theorem readDigits_lt {limit n : Nat} {s rest : List Char}
    (h : readDigits limit s = .ok (n, rest)) :
    s.length - rest.length ≤ limit ∧ n < Nat.pow 10 (s.length - rest.length) := by
  obtain ⟨-, h⟩ := ite_error_eq_ok_iff.1 h
  cases h
  have hlen : ((s.take limit).takeWhile isDigit).length ≤ (s.take limit).length :=
    (List.takeWhile_prefix _).length_le
  have htaken : s.length - (s.drop ((s.take limit).takeWhile isDigit).length).length =
      ((s.take limit).takeWhile isDigit).length := by
    rw [List.length_take] at hlen
    rw [List.length_drop]
    omega
  rw [htaken]
  refine ⟨hlen.trans (List.length_take_le ..), decimalValue_lt ?_⟩
  exact fun c hc => List.mem_takeWhile_imp hc

theorem readFraction_lt {n : Nat} {s rest : List Char} (h : readFraction s = .ok (n, rest)) :
    n < 1000000000 := by
  unfold readFraction at h
  split at h
  · rename_i s
    obtain ⟨⟨n, rest⟩, hread, h⟩ := bind_eq_ok_iff.1 h
    cases h
    obtain ⟨hle, hlt⟩ := readDigits_lt hread
    -- The digits that are missing to nine are made up by zeros.
    calc n * Nat.pow 10 (9 - (s.length - rest.length))
        < Nat.pow 10 (s.length - rest.length) * Nat.pow 10 (9 - (s.length - rest.length)) :=
          Nat.mul_lt_mul_of_pos_right hlt (Nat.pow_pos (by decide))
      _ = Nat.pow 10 9 := by
          show 10 ^ _ * 10 ^ _ = 10 ^ 9
          rw [← Nat.pow_add, Nat.add_sub_cancel' hle]
  · cases h
    decide

/-- Only second 60 of a minute gives the nanoseconds of a leap second. -/
theorem readTime_isOnCalendar {day nanos : Nat} {s rest : List Char}
    (h : readTime s = .ok ((day, nanos), rest)) : nanos < 1000000000 ∨ day % 60 = 59 := by
  obtain ⟨⟨hour, _⟩, -, h⟩ := bind_eq_ok_iff.1 h
  obtain ⟨_, -, h⟩ := bind_eq_ok_iff.1 h
  obtain ⟨⟨minute, _⟩, -, h⟩ := bind_eq_ok_iff.1 h
  obtain ⟨_, -, h⟩ := bind_eq_ok_iff.1 h
  obtain ⟨⟨second, _⟩, -, h⟩ := bind_eq_ok_iff.1 h
  obtain ⟨⟨fraction, _⟩, hfraction, h⟩ := bind_eq_ok_iff.1 h
  have hlt := readFraction_lt hfraction
  cases h
  split
  · exact .inr (by omega)
  · exact .inl (by omega)

theorem readOffset_emod {sign offset : Int} {s rest : List Char}
    (h : readOffset sign s = .ok (offset, rest)) : offset % 60 = 0 := by
  obtain ⟨⟨hours, _⟩, -, h⟩ := bind_eq_ok_iff.1 h
  obtain ⟨⟨minutes, _⟩, -, h⟩ := bind_eq_ok_iff.1 h
  cases h
  have hminutes : sign * (hours * 3600 + minutes * 60 : Nat) =
      60 * (sign * (hours * 60 + minutes : Nat)) := by
    push_cast
    ring
  rw [hminutes, Int.mul_emod_right]

/-- An offset is a number of minutes. -/
theorem readZone_emod {offset : Int} {s rest : List Char} (h : readZone s = .ok (offset, rest)) :
    offset % 60 = 0 := by
  unfold readZone at h
  split at h
  · cases h
    rfl
  · cases h
    rfl
  · exact readOffset_emod h
  · exact readOffset_emod h
  · exact readOffset_emod h
  · split at h
    · cases h
      rfl
    · contradiction
  · contradiction
  · contradiction

/-- Whatever a text says is an instant of the calendar. -/
theorem isOnCalendar_of_ofText {s : String} {t : Instant} (h : ofText s = .ok t) :
    t.IsOnCalendar := by
  obtain ⟨⟨date, _⟩, -, h⟩ := bind_eq_ok_iff.1 h
  obtain ⟨_, -, h⟩ := bind_eq_ok_iff.1 h
  obtain ⟨⟨⟨day, nanos⟩, _⟩, htime, h⟩ := bind_eq_ok_iff.1 h
  obtain ⟨⟨offset, _⟩, hzone, h⟩ := bind_eq_ok_iff.1 h
  have htime := readTime_isOnCalendar htime
  have hzone := readZone_emod hzone
  dsimp only at h
  split at h
  · obtain ⟨-, h⟩ := ite_error_eq_ok_iff.1 h
    obtain ⟨-, h⟩ := ite_error_eq_ok_iff.1 h
    split at h
    · rename_i hof
      obtain ⟨hsecs, hnanos⟩ := of?_eq_some hof
      cases h
      show t.nanos < 1000000000 ∨ t.secs % 60 = 59
      dsimp only at hsecs hnanos
      omega
    · contradiction
  · contradiction

end Instant

end ReadOnce
