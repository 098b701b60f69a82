import ReadOnce.Store.Error
import ReadOnce.Store.Schedule

/-!
# Sweepers

A sweeper runs a purge at each time of its schedule until it is stopped. A purge that fails does
not end it. A purge that crashes does, but the sweeper counts as running until it is stopped all
the same.
-/

namespace ReadOnce

/-- What a sweep comes to. -/
inductive SweepResult where
  | done (count : Nat)
  | failed (e : StoreError)
  | crashed
  deriving DecidableEq

structure Sweeper where
  /-- Its schedule, unless it has ended. -/
  schedule : Option Schedule
  /-- Whether it has been started and not stopped. -/
  isRunning : Bool
  deriving DecidableEq

namespace Sweeper

/-- The failure to start a sweeper where nothing can run it. -/
def unattended : StoreError :=
  .backend ("sweeper needs a tokio runtime: there is no reactor running, " ++
    "must be called from the context of a Tokio 1.x runtime")

/-- A sweeper that never runs. -/
def disabled : Sweeper :=
  ⟨none, false⟩

/-- Starts a sweeper at a time; `attended` tells whether there is something to run it. A period of
zero disables it. -/
def start (attended : Bool) (period now : Nat) : Except StoreError Sweeper :=
  match Schedule.start? period now with
  | none => .ok disabled
  | some schedule => if attended then .ok ⟨some schedule, true⟩ else .error unattended

/-- The times of the sweeps until a time, and the sweeper then. -/
def pass (s : Sweeper) (how : Passing) (time : Nat) : List Nat × Sweeper :=
  match s.schedule with
  | none => ([], s)
  | some schedule =>
    let (times, schedule) := match how with
      | .sleep => schedule.sleep time
      | .leap => schedule.leap time
    (times, { s with schedule := some schedule })

def stop (_ : Sweeper) : Sweeper :=
  disabled

/-- Those of the times at which sweeps with given results run, whether one of them crashes, and the
results left. Once the results are used up, sweeps drop nothing. -/
def runs : List Nat → List SweepResult → List Nat × Bool × List SweepResult
  | [], results => ([], false, results)
  | time :: _, .crashed :: results => ([time], true, results)
  | time :: times, results =>
    let (ran, crashed, results) := runs times results.tail
    (time :: ran, crashed, results)

/-- Lets time pass for a sweeper whose purges have given results: the times of its sweeps, the
sweeper then, and the results left. -/
def passWith (s : Sweeper) (how : Passing) (time : Nat) (results : List SweepResult) :
    List Nat × Sweeper × List SweepResult :=
  let (times, next) := s.pass how time
  let (ran, crashed, results) := runs times results
  (ran, if crashed then { next with schedule := none } else next, results)

end Sweeper

end ReadOnce
