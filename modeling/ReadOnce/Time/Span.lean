/-!
# Lengths of time

A `Span` is a non-negative length of time in whole nanoseconds; `Span.text` writes it in the
largest unit of which it holds at least one, with the shortest exact fraction.
-/

namespace ReadOnce

structure Span where
  nanoseconds : Nat
  deriving DecidableEq, Repr

namespace Span

abbrev second : Nat := 1000000000

/-- A length of whole seconds and nanoseconds. -/
def of (seconds nanoseconds : Nat) : Span :=
  ⟨seconds * second + nanoseconds⟩

def ofSeconds (seconds : Nat) : Span :=
  of seconds 0

def seconds (s : Span) : Nat :=
  s.nanoseconds / second

/-- The nanoseconds beyond the whole seconds. -/
def subsecond (s : Span) : Nat :=
  s.nanoseconds % second

instance : LE Span := ⟨fun a b => a.nanoseconds ≤ b.nanoseconds⟩

instance : LT Span := ⟨fun a b => a.nanoseconds < b.nanoseconds⟩

instance (a b : Span) : Decidable (a ≤ b) :=
  inferInstanceAs (Decidable (a.nanoseconds ≤ b.nanoseconds))

instance (a b : Span) : Decidable (a < b) :=
  inferInstanceAs (Decidable (a.nanoseconds < b.nanoseconds))

/-- The digits after the point for `n` units of which `unit` make a whole, a power of ten; without
trailing zeros. -/
def fractionDigits (unit n : Nat) : List Char :=
  let width := (Nat.toDigits 10 unit).length - 1
  let digits := Nat.toDigits 10 n
  let padded := List.replicate (width - digits.length) '0' ++ digits
  (padded.reverse.dropWhile (· == '0')).reverse

/-- A count of nanoseconds in a unit of `unit` nanoseconds. -/
def inUnit (unit : Nat) (symbol : String) (n : Nat) : String :=
  let fraction := n % unit
  let point := if fraction = 0 then "" else "." ++ String.ofList (fractionDigits unit fraction)
  s!"{n / unit}{point}{symbol}"

/-- The text of a length: seconds, milliseconds, microseconds or nanoseconds. -/
def text (s : Span) : String :=
  let n := s.nanoseconds
  if second ≤ n then inUnit second "s" n
  else if 1000000 ≤ n then inUnit 1000000 "ms" n
  else if 1000 ≤ n then inUnit 1000 "µs" n
  else s!"{n}ns"

end Span

end ReadOnce
