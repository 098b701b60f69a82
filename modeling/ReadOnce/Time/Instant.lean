import ReadOnce.Time.Date
import ReadOnce.Time.Span

/-!
# Instants

A point of time is a count of seconds from 1970-01-01T00:00:00Z and of nanoseconds within the
second. A leap second has no number of its own: it is the second before it, with nanoseconds from
one thousand million on. Any second may be followed by one, although the calendar has them after
second 59 of a minute only. Instants are ordered by seconds and then by nanoseconds, and reach from
the first day of the year -262143 to the last of the year 262142.

`Instant.add?` moves an instant by a signed number of nanoseconds. Outside leap seconds it is plain
addition; from within a leap second, a move that stays in the second keeps it, a move of a second or
more backwards starts at the second that follows, and any other starts at the same fraction of the
second before it.
-/

namespace ReadOnce

/-- A point of time. -/
@[ext]
structure Instant where
  secs : Int
  /-- Nanoseconds within the second, beyond a thousand million in a leap second. -/
  nanos : Nat
  /-- No instant precedes the first year. -/
  first_le : -8334601228800 ≤ secs
  /-- No instant follows the last year. -/
  le_last : secs ≤ 8210266876799
  /-- A leap second is as long as any other. -/
  nanos_lt : nanos < 2000000000
  deriving DecidableEq

namespace Instant

/-- The instant at `secs` seconds and `nanos` nanoseconds, if there is one. -/
def of? (secs : Int) (nanos : Nat) : Option Instant :=
  if h₁ : -8334601228800 ≤ secs then
    if h₂ : secs ≤ 8210266876799 then
      if h₃ : nanos < 2000000000 then some ⟨secs, nanos, h₁, h₂, h₃⟩ else none
    else none
  else none

def epoch : Instant := ⟨0, 0, by decide, by decide, by decide⟩

instance : Inhabited Instant := ⟨epoch⟩

def isLeap (t : Instant) : Bool :=
  1000000000 ≤ t.nanos

instance : LE Instant :=
  ⟨fun a b => a.secs < b.secs ∨ a.secs = b.secs ∧ a.nanos ≤ b.nanos⟩

instance (a b : Instant) : Decidable (a ≤ b) :=
  inferInstanceAs (Decidable (a.secs < b.secs ∨ a.secs = b.secs ∧ a.nanos ≤ b.nanos))

def unixNanos (t : Instant) : Int :=
  t.secs * 1000000000 + t.nanos

def unixMillis (t : Instant) : Int :=
  t.secs * 1000 + (t.nanos / 1000000 : Nat)

/-- The instant `n` nanoseconds after the epoch. -/
def ofUnixNanos? (n : Int) : Option Instant :=
  of? (n / 1000000000) (n % 1000000000).toNat

/-- The instant `d` nanoseconds later, if it lies within the years of the calendar. -/
def add? (t : Instant) (d : Int) : Option Instant :=
  if t.isLeap then
    if -1000000000 < d ∧ t.nanos + d < 2000000000 ∧ d < 1000000000 then
      of? t.secs (t.nanos + d).toNat
    else if 0 < d then ofUnixNanos? (t.unixNanos - 1000000000 + d)
    else ofUnixNanos? (t.unixNanos + d)
  else ofUnixNanos? (t.unixNanos + d)

/-- The instant `s` later, if it lies within the years of the calendar. -/
def after? (t : Instant) (s : Span) : Option Instant :=
  t.add? s.nanoseconds

def date (t : Instant) : Date :=
  Date.ofDays (t.secs / 86400)

def secondOfDay (t : Instant) : Nat :=
  (t.secs % 86400).toNat

theorem of?_eq_some {secs : Int} {nanos : Nat} {t : Instant} (h : of? secs nanos = some t) :
    t.secs = secs ∧ t.nanos = nanos := by
  unfold of? at h
  split at h <;> try contradiction
  split at h <;> try contradiction
  split at h <;> try contradiction
  cases h
  exact ⟨rfl, rfl⟩

@[simp] theorem of?_self (t : Instant) : of? t.secs t.nanos = some t := by
  unfold of?
  rw [dif_pos t.first_le, dif_pos t.le_last, dif_pos t.nanos_lt]

end Instant

end ReadOnce
