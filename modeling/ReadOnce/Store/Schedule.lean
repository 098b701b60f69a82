/-!
# Schedules of sweeps

A sweep is due once a period. Time may pass timer by timer, and then each sweep runs exactly when
it is due; or it may leap, and then the sweeps that have become due run at its end. A sweep that
runs more than five milliseconds late puts off the next one to a period after its run; any other
leaves the schedule as it is.

`Schedule.sleep` and `Schedule.leap` say at which times sweeps run and what is due after them.
-/

namespace ReadOnce

/-- How time passes. -/
inductive Passing where
  | sleep
  | leap
  deriving DecidableEq, Repr

/-- When sweeps are due, in milliseconds. -/
structure Schedule where
  period : Nat
  due : Nat
  deriving DecidableEq, Repr

namespace Schedule

/-- The schedule of sweeps that begins at a time, if there is a period. -/
def start? (period now : Nat) : Option Schedule :=
  if period = 0 then none else some ⟨period, now + period⟩

/-- The number of sweeps that are due until a time, that time included. -/
def dueBy (s : Schedule) (time : Nat) : Nat :=
  if time < s.due then 0 else (time - s.due) / s.period + 1

/-- The schedule after some sweeps on time. -/
def after (s : Schedule) (sweeps : Nat) : Schedule :=
  { s with due := s.due + sweeps * s.period }

/-- The times of the sweeps until `time` when time passes timer by timer, and the schedule then. -/
def sleep (s : Schedule) (time : Nat) : List Nat × Schedule :=
  let n := s.dueBy time
  ((List.range n).map fun i => s.due + i * s.period, s.after n)

/-- The most milliseconds that a sweep may be late without moving the next one. -/
def tolerance : Nat := 5

/-- The times of the sweeps when time leaps to `time`, and the schedule then. -/
def leap (s : Schedule) (time : Nat) : List Nat × Schedule :=
  if time < s.due then ([], s)
  else if s.due + tolerance < time then ([time], { s with due := time + s.period })
  else
    let n := s.dueBy time
    (List.replicate n time, s.after n)

end Schedule

end ReadOnce
