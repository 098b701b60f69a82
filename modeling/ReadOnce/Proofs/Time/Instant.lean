import ReadOnce.Message.Basic

/-!
# The order of instants

Instants are ordered by seconds and then by nanoseconds, so a message that has reached its deadline
has reached every earlier one too.

Outside leap seconds this is the order of the nanoseconds since the epoch, and a later instant has
no fewer milliseconds. Within a leap second neither is so: its nanoseconds are those of the second
after it, which is later. An instant is plain if it is outside leap seconds and its nanoseconds fit
in 64 bits.

The calendar has no leap seconds but after second 59 of a minute. `Instant.onCalendar` is what it
has for any other: the instant in the second after it that has the same nanoseconds.
-/

namespace ReadOnce

namespace Instant

/-- An instant outside leap seconds whose nanoseconds since the epoch fit in 64 bits. -/
structure IsPlain (t : Instant) : Prop where
  isLeap : t.isLeap = false
  first_le : -9223372036854775808 ≤ t.unixNanos
  le_last : t.unixNanos ≤ 9223372036854775807

theorem le_refl (t : Instant) : t ≤ t :=
  .inr ⟨rfl, Nat.le_refl _⟩

theorem le_trans {a b c : Instant} (hab : a ≤ b) (hbc : b ≤ c) : a ≤ c := by
  have hab : a.secs < b.secs ∨ a.secs = b.secs ∧ a.nanos ≤ b.nanos := hab
  have hbc : b.secs < c.secs ∨ b.secs = c.secs ∧ b.nanos ≤ c.nanos := hbc
  show a.secs < c.secs ∨ a.secs = c.secs ∧ a.nanos ≤ c.nanos
  omega

variable {a b : Instant}

theorem nanos_lt_of_isLeap_eq_false (h : a.isLeap = false) : a.nanos < 1000000000 := by
  simpa [isLeap] using h

theorem eq_iff_unixNanos_eq (ha : a.isLeap = false) (hb : b.isLeap = false) :
    a = b ↔ a.unixNanos = b.unixNanos := by
  have ha := nanos_lt_of_isLeap_eq_false ha
  have hb := nanos_lt_of_isLeap_eq_false hb
  constructor
  · rintro rfl
    rfl
  · intro h
    unfold unixNanos at h
    apply Instant.ext <;> omega

theorem le_iff_unixNanos_le (ha : a.isLeap = false) (hb : b.isLeap = false) :
    a ≤ b ↔ a.unixNanos ≤ b.unixNanos := by
  have ha := nanos_lt_of_isLeap_eq_false ha
  have hb := nanos_lt_of_isLeap_eq_false hb
  show a.secs < b.secs ∨ a.secs = b.secs ∧ a.nanos ≤ b.nanos ↔ a.unixNanos ≤ b.unixNanos
  unfold unixNanos
  omega

section Calendar

/-- An instant outside leap seconds, or in one that the calendar has. -/
def IsOnCalendar (t : Instant) : Prop :=
  t.nanos < 1000000000 ∨ t.secs % 60 = 59

instance (t : Instant) : Decidable t.IsOnCalendar :=
  inferInstanceAs (Decidable (_ ∨ _))

/-- What the calendar has for an instant. The last second of its years is a second 59, so that the
next one is never beyond them. -/
def onCalendar (t : Instant) : Instant :=
  if h : t.IsOnCalendar then t
  else
    { secs := t.secs + 1
      nanos := t.nanos - 1000000000
      first_le := by have := t.first_le; omega
      le_last := by have := t.le_last; simp only [IsOnCalendar] at h; omega
      nanos_lt := by have := t.nanos_lt; omega }

variable {t : Instant}

theorem isOnCalendar_of_isLeap_eq_false (h : t.isLeap = false) : t.IsOnCalendar :=
  .inl (nanos_lt_of_isLeap_eq_false h)

@[simp] theorem onCalendar_of_isOnCalendar (h : t.IsOnCalendar) : t.onCalendar = t :=
  dif_pos h

theorem onCalendar_of_not (h : ¬t.IsOnCalendar) :
    t.onCalendar.secs = t.secs + 1 ∧ t.onCalendar.nanos + 1000000000 = t.nanos := by
  rw [onCalendar, dif_neg h]
  refine ⟨rfl, Nat.sub_add_cancel ?_⟩
  exact Nat.not_lt.1 fun hlt => h (.inl hlt)

theorem isOnCalendar_onCalendar (t : Instant) : t.onCalendar.IsOnCalendar := by
  by_cases h : t.IsOnCalendar
  · rwa [onCalendar_of_isOnCalendar h]
  · have hnanos := (onCalendar_of_not h).2
    have hlt := t.nanos_lt
    exact .inl (by omega)

theorem onCalendar_eq_self_iff : t.onCalendar = t ↔ t.IsOnCalendar :=
  ⟨fun h => h ▸ t.isOnCalendar_onCalendar, onCalendar_of_isOnCalendar⟩

/-- Nanoseconds do not tell the two apart. -/
@[simp] theorem unixNanos_onCalendar (t : Instant) : t.onCalendar.unixNanos = t.unixNanos := by
  by_cases h : t.IsOnCalendar
  · rw [onCalendar_of_isOnCalendar h]
  · obtain ⟨hsecs, hnanos⟩ := onCalendar_of_not h
    unfold unixNanos
    omega

@[simp] theorem unixMillis_onCalendar (t : Instant) : t.onCalendar.unixMillis = t.unixMillis := by
  by_cases h : t.IsOnCalendar
  · rw [onCalendar_of_isOnCalendar h]
  · obtain ⟨hsecs, hnanos⟩ := onCalendar_of_not h
    unfold unixMillis
    omega

theorem le_onCalendar (t : Instant) : t ≤ t.onCalendar := by
  by_cases h : t.IsOnCalendar
  · rw [onCalendar_of_isOnCalendar h]
    exact le_refl t
  · have hsecs := (onCalendar_of_not h).1
    exact .inl (by omega)

end Calendar

/-- Nanoseconds from the epoch to the end of the calendar. -/
def calendarEnd : Int :=
  8210266876800000000000

section After

variable {s : Span} (ha : a.isLeap = false)
include ha

theorem after?_eq_of? : a.after? s =
    of? ((a.unixNanos + s.nanoseconds) / 1000000000)
      ((a.unixNanos + s.nanoseconds) % 1000000000).toNat := by
  rw [after?, add?, ha, if_neg Bool.false_ne_true, ofUnixNanos?]

/-- From outside leap seconds no lifetime leads into one. -/
theorem isLeap_after? (h : a.after? s = some b) : b.isLeap = false := by
  rw [after?_eq_of? ha] at h
  have hnanos := (of?_eq_some h).2
  apply decide_eq_false
  omega

theorem unixNanos_after? (h : a.after? s = some b) :
    b.unixNanos = a.unixNanos + s.nanoseconds := by
  rw [after?_eq_of? ha] at h
  obtain ⟨hsecs, hnanos⟩ := of?_eq_some h
  rw [unixNanos, hsecs, hnanos]
  omega

/-- A lifetime ends within the calendar or leads beyond it. -/
theorem after?_eq_none_iff :
    a.after? s = none ↔ calendarEnd ≤ a.unixNanos + s.nanoseconds := by
  have hfirst := a.first_le
  rw [after?_eq_of? ha, calendarEnd]
  unfold of? unixNanos
  split
  · split
    · rw [dif_pos (by omega)]
      simp only [reduceCtorEq, false_iff]
      omega
    · simp only [true_iff]
      omega
  · omega

end After

theorem unixMillis_le_of_le (ha : a.isLeap = false) (h : a ≤ b) : a.unixMillis ≤ b.unixMillis := by
  have ha := nanos_lt_of_isLeap_eq_false ha
  have h : a.secs < b.secs ∨ a.secs = b.secs ∧ a.nanos ≤ b.nanos := h
  unfold unixMillis
  omega

end Instant

namespace Message

/-- A deadline that has been reached stays so. -/
theorem isExpired_of_le {m : Message} {now later : Instant} (hle : now ≤ later)
    (h : m.isExpired now = true) : m.isExpired later = true :=
  decide_eq_true (Instant.le_trans (of_decide_eq_true h) hle)

/-- A later deadline is not reached before an earlier one. -/
theorem isExpired_eq_false_of_le {m : Message} {now t : Instant} (hle : m.expiresAt ≤ t)
    (h : m.isExpired now = false) : { m with expiresAt := t }.isExpired now = false := by
  simp only [isExpired, decide_eq_false_iff_not] at h ⊢
  exact fun hreached => h (Instant.le_trans hle hreached)

end Message

end ReadOnce
