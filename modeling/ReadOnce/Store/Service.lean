import ReadOnce.Store.Medium
import ReadOnce.Store.Fault
import ReadOnce.Store.Sweeper

/-!
# Stores in service

A store together with what it depends on from outside: the medium that it keeps its messages on,
the clock that deadlines are compared with, and the time by which its sweeper runs. Clock and time
are independent of each other. Each sweep purges at what the clock shows when it runs, and its
failure has no further consequence.
-/

namespace ReadOnce

structure Service where
  medium : Medium
  /-- Milliseconds between sweeps; 0 for none. -/
  period : Nat
  disk : Disk
  stored : FaultyStore
  clock : Instant
  time : Nat
  sweeper : Sweeper

namespace Service

/-- Opens a store on a medium; `attended` tells whether there is something to run its sweeper. -/
def start (attended : Bool) (medium : Medium) (period : Nat) (disk : Disk) (clock : Instant)
    (time : Nat) : Except StoreError Service := do
  let (contents, disk) ← medium.open disk
  let sweeper ← Sweeper.start attended period time
  .ok { medium, period, disk, stored := ⟨⟨contents, false⟩, []⟩, clock, time, sweeper }

/-- What the store answers, and the service from then on. -/
def answer (s : Service) (r : Request) : r.Reply × Service :=
  let (reply, stored) := s.stored.answer r
  (reply, { s with stored })

/-- Closes the store and stops its sweeper. -/
def close (s : Service) : Except StoreError Unit × Service :=
  let (reply, stored) := s.stored.close
  let sweeper := if stored.store.isClosed then s.sweeper.stop else s.sweeper
  (reply, { s with stored, sweeper })

/-- The disk once the store is dropped. -/
def kept (s : Service) : Disk :=
  s.medium.keep s.stored.store.contents s.disk

/-- Closes the store and opens it again. -/
def reopen (s : Service) : Except StoreError Service :=
  start true s.medium s.period s.kept s.clock s.time

/-- A sweep: a purge at what the clock shows, which no fault reaches. -/
def sweep (s : Service) : Service :=
  { s with stored.store := (s.stored.store.answer (.purge s.clock)).2 }

def pass (s : Service) (how : Passing) (ms : Nat) : Service :=
  let time := s.time + ms
  let (times, sweeper) := s.sweeper.pass how time
  let swept := times.foldl (fun s _ => s.sweep) s
  { swept with sweeper, time }

def setClock (s : Service) (t : Instant) : Service :=
  { s with clock := t }

/-- Moves the clock by some nanoseconds, if it can show the result. -/
def moveClock? (s : Service) (shift : Int) : Option Service :=
  (s.clock.add? shift).map s.setClock

end Service

end ReadOnce
