import ReadOnce.Proofs.Fallible
import ReadOnce.Proofs.Time.Instant
import ReadOnce.Store.Table

/-!
# Rows read back

A row that was written for a message reads as the message, up to a deadline in a leap second, and
still does so after a wrong pin is counted. A row that reads as nothing fails with the table, and is
never taken for a missing row.
-/

/-- A count with room for one more is one more afterwards. -/
theorem ReadOnce.toNat_succ_count {n : UInt32} (hroom : n.toNat + 1 < 4294967296) :
    (n + 1).toNat = n.toNat + 1 := by
  rw [UInt32.toNat_add]
  exact Nat.mod_eq_of_lt hroom

namespace ReadOnce.Table

theorem nanos?_eq_some_iff {t : Instant} {n : Int64} :
    nanos? t = some n ↔ -9223372037 ≤ t.secs ∧ n.toInt = t.unixNanos := by
  have hmin := n.le_toInt
  have hmax := n.toInt_lt
  unfold nanos? Cell.int64?
  constructor
  · intro h
    split at h
    · contradiction
    · split at h
      · rename_i hsecs hrange
        rw [← Option.some.inj h]
        exact ⟨by omega, Int64.toInt_ofInt_of_le hrange.1 (by omega)⟩
      · contradiction
  · rintro ⟨hsecs, h⟩
    rw [if_neg (by omega), if_pos (by omega), ← h, Int64.ofInt_toInt]

theorem toInt_of_nanos? {t : Instant} {n : Int64} (h : nanos? t = some n) :
    n.toInt = t.unixNanos :=
  (nanos?_eq_some_iff.1 h).2

@[simp] theorem isLeap_instantOf (n : Int64) : (instantOf n).isLeap = false := by
  show decide (1000000000 ≤ (n.toInt % 1000000000).toNat) = false
  exact decide_eq_false (by omega)

@[simp] theorem unixNanos_instantOf (n : Int64) : (instantOf n).unixNanos = n.toInt := by
  show n.toInt / 1000000000 * 1000000000 + ((n.toInt % 1000000000).toNat : Int) = n.toInt
  omega

/-- Nanoseconds are read back as the same instant exactly outside leap seconds. -/
theorem instantOf_eq_iff {t : Instant} {n : Int64} (h : nanos? t = some n) :
    instantOf n = t ↔ t.isLeap = false := by
  constructor
  · rintro rfl
    exact isLeap_instantOf n
  · intro hleap
    rw [Instant.eq_iff_unixNanos_eq (isLeap_instantOf n) hleap, unixNanos_instantOf]
    exact toInt_of_nanos? h

section Plain

variable {t : Instant} (h : t.IsPlain)
include h

theorem nanos?_of_isPlain : nanos? t = some (clampedNanos t) := by
  have hrange := And.intro h.first_le h.le_last
  have hsecs : ¬t.secs < -9223372037 := by
    have hnanos := Instant.nanos_lt_of_isLeap_eq_false h.isLeap
    unfold Instant.unixNanos at hrange
    omega
  simp only [clampedNanos, nanos?, Cell.int64?, if_pos hrange, if_neg hsecs]

theorem toInt_clampedNanos : (clampedNanos t).toInt = t.unixNanos :=
  toInt_of_nanos? (nanos?_of_isPlain h)

theorem instantOf_clampedNanos : instantOf (clampedNanos t) = t :=
  (instantOf_eq_iff (nanos?_of_isPlain h)).2 h.isLeap

/-- A plain instant is compared with the deadlines of a table as with the instants they stand
for. -/
theorem atMost_clampedNanos (n : Int64) :
    (Cell.integer n).atMost (clampedNanos t) = decide (instantOf n ≤ t) := by
  rw [Cell.atMost, decide_eq_decide, Int64.le_iff_toInt_le, toInt_clampedNanos h,
    Instant.le_iff_unixNanos_le (isLeap_instantOf n) h.isLeap, unixNanos_instantOf]

end Plain

/-- Nanoseconds are never read back as an earlier instant. -/
theorem le_instantOf {t : Instant} {n : Int64} (h : nanos? t = some n) : t ≤ instantOf n := by
  have hn := toInt_of_nanos? h
  have hnanos := t.nanos_lt
  unfold Instant.unixNanos at hn
  show t.secs < n.toInt / 1000000000 ∨
    t.secs = n.toInt / 1000000000 ∧ t.nanos ≤ (n.toInt % 1000000000).toNat
  omega

namespace Column

variable (c : Column) {cell : Cell}

@[simp] theorem count_ofNat (n : UInt32) : c.count (.integer (Int64.ofNat n.toNat)) = .ok n := by
  have hlt := n.toNat_lt
  have hn : (Int64.ofNat n.toNat).toInt = n.toNat := Int64.toInt_ofNat_of_lt (by omega)
  simp only [count, hn]
  rw [if_pos (by omega)]
  simp

/-- Which column a count is read in only shows if it does not read. -/
theorem count_eq_ok_of {n : UInt32} (c' : Column) (h : c.count cell = .ok n) :
    c'.count cell = .ok n := by
  cases cell with
  | integer k =>
      simp only [count] at h ⊢
      split at h
      · rename_i hrange
        rw [if_pos hrange]
        exact h
      · contradiction
  | _ => contradiction

/-- A count is read from a cell that holds it as a whole number. -/
theorem eq_integer_of_count {n : UInt32} (h : c.count cell = .ok n) :
    ∃ k : Int64, cell = .integer k ∧ k.toInt = n.toNat := by
  cases cell with
  | integer k =>
      simp only [count] at h
      split at h
      · refine ⟨k, rfl, ?_⟩
        rw [← Except.ok.inj h, UInt32.toNat_ofNat']
        omega
      · contradiction
  | _ => contradiction

/-- A count that is read leaves its cell a whole number, to which one can be added. -/
theorem plus_one_of_count {n : UInt32} (h : c.count cell = .ok n)
    (hroom : n.toNat + 1 < 4294967296) :
    (cell.plus 1).asInteger = .integer (Int64.ofNat (n + 1).toNat) := by
  obtain ⟨k, rfl, hk⟩ := c.eq_integer_of_count h
  have hone : (1 : Int64).toInt = 1 := rfl
  have hsum : k.toInt + 1 = (n.toNat + 1 : Nat) := by omega
  simp only [Cell.plus, Cell.numeric, Cell.int64?, hone]
  rw [if_pos (by omega), hsum, ← toNat_succ_count hroom, Int64.ofInt_eq_ofNat]
  rfl

theorem count_plus_one {n : UInt32} (h : c.count cell = .ok n)
    (hroom : n.toNat + 1 < 4294967296) : c.count (cell.plus 1).asInteger = .ok (n + 1) := by
  rw [plus_one_of_count c h hroom, count_ofNat]

theorem eq_integer_of_ok {n : Int64} (h : c.integer cell = .ok n) : cell = .integer n := by
  cases cell with
  | integer k => exact congrArg Cell.integer (Except.ok.inj h)
  | _ => contradiction

theorem integer_ne_loadRejected (cell : Cell) : c.integer cell ≠ .error .loadRejected := by
  cases cell <;> simp [integer, mistyped, failure]

theorem bytes_ne_loadRejected (cell : Cell) : c.bytes cell ≠ .error .loadRejected := by
  cases cell <;> simp [bytes, mistyped, failure]

theorem text_ne_loadRejected (cell : Cell) : c.text cell ≠ .error .loadRejected := by
  cases cell <;> simp [text, mistyped, failure]

theorem count_ne_loadRejected (cell : Cell) : c.count cell ≠ .error .loadRejected := by
  cases cell with
  | integer n =>
      simp only [count]
      split <;> simp [outOfRange, failure]
  | _ => simp [count, mistyped, failure]

theorem flag_ne_loadRejected (cell : Cell) : c.flag cell ≠ .error .loadRejected := by
  cases cell <;> simp [flag, mistyped, failure]

end Column

/-- What a row reads as is put together from what its cells read as. -/
theorem message_eq_ok_iff {row : Row} {key : Key} {m : Message} :
    row.message key = .ok m ↔
      ∃ exp, (Column.mk 0 "exp").integer row.exp = .ok exp ∧
        (Column.mk 1 "data").bytes row.data = .ok m.data ∧
        (Column.mk 2 "pin_hash").text row.pinHash = .ok m.pinHash ∧
        (Column.mk 3 "errors").count row.errors = .ok m.errors ∧
        (Column.mk 4 "client_enc").flag row.clientEncrypted = .ok m.clientEncrypted ∧
        m.key = key ∧ m.expiresAt = instantOf exp := by
  constructor
  · intro h
    obtain ⟨exp, hexp, h⟩ := bind_eq_ok_iff.1 h
    obtain ⟨data, hdata, h⟩ := bind_eq_ok_iff.1 h
    obtain ⟨pinHash, hhash, h⟩ := bind_eq_ok_iff.1 h
    obtain ⟨errors, herrors, h⟩ := bind_eq_ok_iff.1 h
    obtain ⟨flag, hflag, h⟩ := bind_eq_ok_iff.1 h
    cases h
    exact ⟨exp, hexp, hdata, hhash, herrors, hflag, rfl, rfl⟩
  · rintro ⟨exp, hexp, hdata, hhash, herrors, hflag, rfl, hdeadline⟩
    simp only [Row.message, hexp, hdata, hhash, herrors, hflag, bind, Except.bind, ← hdeadline]

/-- A row that reads as a message is due at a plain instant if the message is. -/
theorem atMost_of_message {row : Row} {key : Key} {m : Message} {now : Instant}
    (h : row.message key = .ok m) (hnow : now.IsPlain) :
    row.exp.atMost (clampedNanos now) = m.isExpired now := by
  obtain ⟨exp, hexp, -, -, -, -, -, hdeadline⟩ := message_eq_ok_iff.1 h
  rw [Column.eq_integer_of_ok _ hexp, atMost_clampedNanos hnow, Message.isExpired, hdeadline]

@[simp] theorem message_ofMessage (m : Message) (exp : Int64) :
    (Row.ofMessage m exp).message m.key = .ok { m with expiresAt := instantOf exp } := by
  refine message_eq_ok_iff.2 ⟨exp, rfl, rfl, rfl, Column.count_ofNat _ _, ?_, rfl, rfl⟩
  simp only [Row.ofMessage]
  cases m.clientEncrypted <;> rfl

/-- A row still reads as its message after a wrong pin, as long as the count fits. -/
theorem message_increment {row : Row} {key : Key} {m : Message} (h : row.message key = .ok m)
    (hroom : m.errors.toNat + 1 < 4294967296) :
    row.increment.message key = .ok { m with errors := m.errors + 1 } := by
  obtain ⟨exp, hexp, hdata, hhash, herrors, hflag, hkey, hdeadline⟩ := message_eq_ok_iff.1 h
  exact message_eq_ok_iff.2 ⟨exp, hexp, hdata, hhash, Column.count_plus_one _ herrors hroom, hflag,
    hkey, hdeadline⟩

theorem bind_ne_error {α β : Type} {x : Except StoreError α} {f : α → Except StoreError β}
    {e : StoreError} (hx : x ≠ .error e) (hf : ∀ a, f a ≠ .error e) : (x >>= f) ≠ .error e := by
  cases x with
  | ok a => exact hf a
  | error e' => exact fun h => hx (congrArg Except.error (Except.error.inj h))

theorem message_ne_loadRejected (row : Row) (key : Key) :
    row.message key ≠ .error .loadRejected := by
  apply bind_ne_error (Column.integer_ne_loadRejected _ _)
  intro exp
  apply bind_ne_error (Column.bytes_ne_loadRejected _ _)
  intro data
  apply bind_ne_error (Column.text_ne_loadRejected _ _)
  intro pinHash
  apply bind_ne_error (Column.count_ne_loadRejected _ _)
  intro errors
  apply bind_ne_error (Column.flag_ne_loadRejected _ _)
  intro flag
  simp

end ReadOnce.Table
