import ReadOnce.Time.Span

/-!
# Limits of a vault

The longest lifetime, the number of wrong pins that use up a message, and the size of the largest
file. A limit of zero stands for its default.
-/

namespace ReadOnce

/-- What a vault allows. -/
structure Limits where
  maxDuration : Span
  maxPinAttempts : UInt32
  maxFileSize : Nat
  deriving DecidableEq, Repr

namespace Limits

/-- The limits unless others are chosen: 31 days, three tries, one mebibyte. -/
def default : Limits where
  maxDuration := .ofSeconds (31 * 24 * 3600)
  maxPinAttempts := 3
  maxFileSize := 1024 * 1024

/-- Limits with the default in place of every zero. -/
def normalized (l : Limits) : Limits where
  maxDuration := if l.maxDuration.nanoseconds = 0 then default.maxDuration else l.maxDuration
  maxPinAttempts := if l.maxPinAttempts = 0 then default.maxPinAttempts else l.maxPinAttempts
  maxFileSize := if l.maxFileSize = 0 then default.maxFileSize else l.maxFileSize

def debug (l : Limits) : String :=
  s!"ProcessorParams \x7b max_duration: {l.maxDuration.text}, " ++
    s!"max_pin_attempts: {l.maxPinAttempts}, max_file_size: {l.maxFileSize} \x7d"

/-- No try is left to a message only after at least one wrong pin. -/
theorem normalized_maxPinAttempts_ne_zero (l : Limits) : l.normalized.maxPinAttempts ≠ 0 := by
  show (if l.maxPinAttempts = 0 then default.maxPinAttempts else l.maxPinAttempts) ≠ 0
  split
  · decide
  · assumption

end Limits

end ReadOnce
