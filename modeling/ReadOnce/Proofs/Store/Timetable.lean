import ReadOnce.Proofs.Fallible
import ReadOnce.Proofs.Store.Record
import ReadOnce.Proofs.Store.Schedule
import ReadOnce.Proofs.Store.Service

/-!
# The timetable of a store in service

A store in service is asked things, its clock is set, time passes timer by timer, and it is closed,
in any order. `Service.sweeps` are the sweeps that run meanwhile, and `Service.Timetable` says which
they are: the times of one schedule from the opening of the store to its closing, each with what the
clock shows then. A closed store answers that it is closed, and nothing changes what it keeps.

The invariant is that a sweeper is where it would be if time had passed in one part, whatever else
has happened.
-/

namespace ReadOnce

/-- A sweep that has run. -/
structure Sweep where
  /-- When it ran. -/
  time : Nat
  /-- What the clock showed then. -/
  clock : Instant
  deriving DecidableEq

namespace Store

theorem purged_add (s : Store) (now : Instant) (n k : Nat) :
    s.purged now (n + k) = (s.purged now n).purged now k := by
  rw [Nat.add_comm]
  exact Function.iterate_add_apply _ k n s

@[simp] theorem isClosed_purged (s : Store) (now : Instant) (n : Nat) :
    (s.purged now n).isClosed = s.isClosed := by
  induction n generalizing s with
  | zero => rfl
  | succ n ih => exact (ih _).trans (isClosed_answer s _)

theorem contents_purged {s : Store} (hopen : s.isClosed = false) (now : Instant) (n : Nat) :
    (s.purged now n).contents = s.contents.after (List.replicate n (.purge now)) := by
  induction n generalizing s with
  | zero => rfl
  | succ n ih =>
      have hstep : (s.answer (.purge now)).2 = ⟨(s.contents.answer (.purge now)).2, false⟩ := by
        rw [answer_of_open hopen]
      show ((s.answer (.purge now)).2.purged now n).contents = _
      rw [hstep]
      exact ih rfl

end Store

namespace Service

/-- Whether a step closes the store. -/
def Step.isClose : Step → Bool
  | .close => true
  | _ => false

/-- The sweeps that run during a step. -/
def sweepsIn (s : Service) : Step → List Sweep
  | .pass how ms => (s.sweeper.pass how (s.time + ms)).1.map (⟨·, s.clock⟩)
  | _ => []

/-- The sweeps that run during steps in turn. -/
def sweeps (s : Service) : List Step → List Sweep
  | [] => []
  | step :: steps => s.sweepsIn step ++ (s.step step).sweeps steps

/-- The time at which the store is closed first, or at which the steps end. -/
def openUntil (s : Service) (steps : List Step) : Nat :=
  (s.after (steps.takeWhile (!·.isClose))).time

variable {s : Service} {steps : List Step}

theorem after_append (s : Service) (steps later : List Step) :
    s.after (steps ++ later) = (s.after steps).after later :=
  List.foldl_append

/-- Each sweep runs during one of the steps. -/
theorem exists_of_mem_sweeps {w : Sweep} (hw : w ∈ s.sweeps steps) :
    ∃ before step later, steps = before ++ step :: later ∧ w ∈ (s.after before).sweepsIn step := by
  induction steps generalizing s with
  | nil => contradiction
  | cons step steps ih =>
      cases List.mem_append.1 hw with
      | inl hw => exact ⟨[], step, steps, rfl, hw⟩
      | inr hw =>
          obtain ⟨before, next, later, hsteps, hw⟩ := ih hw
          exact ⟨step :: before, next, later, congrArg (step :: ·) hsteps, hw⟩

/-- What time that passes changes of what is kept, it changes by purges, one for each sweep, at what
the clock shows. -/
theorem contents_pass_eq (hopen : s.stored.store.isClosed = false) (how : Passing) (ms : Nat) :
    (s.pass how ms).contents =
      s.contents.after ((s.sweeps [.pass how ms]).map fun w => .purge w.clock) := by
  have hsweeps : (s.sweeps [.pass how ms]).map (fun w => Request.purge w.clock) =
      List.replicate (s.sweeper.pass how (s.time + ms)).1.length (.purge s.clock) := by
    rw [sweeps, sweeps, List.append_nil, sweepsIn, List.map_map]
    show List.map (fun _ => Request.purge s.clock) _ = _
    exact List.map_const'
  rw [hsweeps, pass_eq]
  exact Store.contents_purged hopen s.clock _

/-- Time may pass in two parts. -/
theorem pass_sleep_add (h : s.sweeper.HasPeriod) (a b : Nat) :
    (s.pass .sleep a).pass .sleep b = s.pass .sleep (a + b) := by
  have hparts := h.pass_eq_append (Nat.add_le_add_left (Nat.le_add_right a b) s.time)
  simp only [pass_eq, Nat.add_assoc, hparts, List.length_append, Store.purged_add]

/-! ### Closed stores -/

/-- A store that is closed, for which nothing is due any more. -/
structure IsShut (s : Service) : Prop where
  faults : s.stored.faults = []
  isClosed : s.stored.store.isClosed = true
  sweeper : s.sweeper = .disabled

section Faultless

variable (h : s.stored.faults = [])
include h

theorem answer_of_faultless (r : Request) :
    s.answer r = ((s.stored.store.answer r).1,
      { s with stored.store := (s.stored.store.answer r).2 }) := by
  simp only [answer, FaultyStore.answer, h, Fault.take?]

theorem close_of_faultless : s.close.1 = .ok () ∧ s.close.2.IsShut := by
  simp only [close, FaultyStore.close, h, Fault.take?]
  exact ⟨trivial, rfl, rfl, rfl⟩

end Faultless

namespace IsShut

variable (h : s.IsShut)
include h

theorem answer (r : Request) : s.answer r = (.error .closed, s) := by
  rw [answer_of_faultless h.faults, Store.answer_of_closed h.isClosed]

theorem sweepsIn (step : Step) : s.sweepsIn step = [] := by
  cases step with
  | pass how ms =>
      simp only [Service.sweepsIn, h.sweeper]
      rfl
  | _ => rfl

/-- Nothing reopens a closed store or changes what it keeps. -/
theorem step (step : Step) : (s.step step).IsShut ∧ (s.step step).contents = s.contents := by
  cases step with
  | ask r =>
      rw [Service.step, h.answer]
      exact ⟨h, rfl⟩
  | clock t => exact ⟨⟨h.faults, h.isClosed, h.sweeper⟩, rfl⟩
  | pass how ms =>
      have hnone := Sweeper.pass_of_none (s := s.sweeper) (by rw [h.sweeper]; rfl) how
        (s.time + ms)
      rw [Service.step, pass_eq, hnone]
      exact ⟨⟨h.faults, h.isClosed, h.sweeper⟩, rfl⟩
  | close => exact ⟨(close_of_faultless h.faults).2, s.contents_close⟩

theorem after (steps : List Step) :
    (s.after steps).IsShut ∧ (s.after steps).contents = s.contents := by
  induction steps generalizing s with
  | nil => exact ⟨h, rfl⟩
  | cons step steps ih =>
      obtain ⟨hshut, hcontents⟩ := h.step step
      obtain ⟨hlater, hsame⟩ := ih hshut
      exact ⟨hlater, hsame.trans hcontents⟩

theorem sweeps (steps : List Step) : s.sweeps steps = [] := by
  induction steps generalizing s with
  | nil => rfl
  | cons step steps ih =>
      rw [Service.sweeps, h.sweepsIn]
      exact ih (h.step step).1

end IsShut

/-! ### Stores on time -/

/-- A store whose sweeper is, as long as the store is open, where a first one would be if time had
passed in one part. -/
structure IsOnTime (first : Sweeper) (s : Service) : Prop where
  faults : s.stored.faults = []
  sweeper : s.sweeper =
    if s.stored.store.isClosed then .disabled else (first.pass .sleep s.time).2

namespace IsOnTime

variable {first : Sweeper} (h : s.IsOnTime first)
include h

theorem isShut (hclosed : s.stored.store.isClosed = true) : s.IsShut :=
  ⟨h.faults, hclosed, by rw [h.sweeper, if_pos hclosed]⟩

theorem sweeper_of_open (hopen : s.stored.store.isClosed = false) :
    s.sweeper = (first.pass .sleep s.time).2 := by
  rw [h.sweeper, hopen]
  rfl

theorem close_isShut : s.close.2.IsShut :=
  (close_of_faultless h.faults).2

theorem answer (r : Request) : (s.answer r).2.IsOnTime first ∧
    (s.answer r).2.stored.store.isClosed = s.stored.store.isClosed := by
  have hsame := s.stored.store.isClosed_answer r
  rw [answer_of_faultless h.faults]
  refine ⟨⟨h.faults, ?_⟩, hsame⟩
  show s.sweeper = if (s.stored.store.answer r).2.isClosed then _ else _
  rw [hsame]
  exact h.sweeper

variable (hfirst : first.HasPeriod)
include hfirst

/-- The sweeps until a later time are those until now and those that run meanwhile. -/
theorem pass_time (hopen : s.stored.store.isClosed = false) (ms : Nat) :
    first.pass .sleep (s.time + ms) =
      ((first.pass .sleep s.time).1 ++ (s.sweepsIn (.pass .sleep ms)).map Sweep.time,
        (s.sweeper.pass .sleep (s.time + ms)).2) := by
  have hle : s.time ≤ s.time + ms := Nat.le_add_right _ _
  have htimes : (s.sweepsIn (.pass .sleep ms)).map Sweep.time =
      (s.sweeper.pass .sleep (s.time + ms)).1 := by
    rw [sweepsIn, List.map_map]
    exact List.map_id _
  rw [hfirst.pass_eq_append hle, htimes, h.sweeper_of_open hopen]

theorem pass (ms : Nat) : (s.pass .sleep ms).IsOnTime first ∧
    (s.pass .sleep ms).stored.store.isClosed = s.stored.store.isClosed := by
  have hsame : (s.pass .sleep ms).stored.store.isClosed = s.stored.store.isClosed := by
    rw [pass_eq]
    exact Store.isClosed_purged ..
  refine ⟨⟨?_, ?_⟩, hsame⟩
  · rw [pass_eq]
    exact h.faults
  · rw [hsame]
    cases hclosed : s.stored.store.isClosed with
    | true => exact ((h.isShut hclosed).step (.pass .sleep ms)).1.sweeper
    | false =>
        rw [pass_eq]
        exact (congrArg Prod.snd (h.pass_time hfirst hclosed ms)).symm

theorem step {step : Step} (hsleep : ∀ ms, step ≠ .pass .leap ms) :
    (s.step step).IsOnTime first := by
  cases step with
  | ask r => exact (h.answer r).1
  | clock t => exact ⟨h.faults, h.sweeper⟩
  | pass how ms =>
      cases how with
      | sleep => exact (h.pass hfirst ms).1
      | leap => exact absurd rfl (hsleep ms)
  | close =>
      have hshut := h.close_isShut
      exact ⟨hshut.faults, hshut.sweeper.trans (if_pos hshut.isClosed).symm⟩

theorem after (hsleep : ∀ ms, .pass .leap ms ∉ steps) : (s.after steps).IsOnTime first := by
  induction steps generalizing s with
  | nil => exact h
  | cons step steps ih =>
      apply ih
      · apply h.step hfirst
        rintro ms rfl
        exact hsleep ms (List.mem_cons_self ..)
      · intro ms hms
        exact hsleep ms (List.mem_cons_of_mem _ hms)

theorem hasPeriod : s.sweeper.HasPeriod := by
  rw [h.sweeper]
  split
  · intro schedule hschedule
    contradiction
  · exact hfirst.pass _

/-- The sweeps until now and those that run during steps are those until the store is closed. -/
theorem sweeps (hopen : s.stored.store.isClosed = false) (hsleep : ∀ ms, .pass .leap ms ∉ steps) :
    (first.pass .sleep s.time).1 ++ (s.sweeps steps).map Sweep.time =
      (first.pass .sleep (s.openUntil steps)).1 := by
  induction steps generalizing s with
  | nil => exact List.append_nil _
  | cons step steps ih =>
      have hrest : ∀ ms, .pass .leap ms ∉ steps := by
        intro ms hms
        exact hsleep ms (List.mem_cons_of_mem _ hms)
      cases step with
      | ask r =>
          obtain ⟨hontime, hsame⟩ := h.answer r
          exact ih hontime (hsame.trans hopen) hrest
      | clock t => exact ih (s := s.setClock t) ⟨h.faults, h.sweeper⟩ hopen hrest
      | pass how ms =>
          cases how with
          | sleep =>
              obtain ⟨hontime, hsame⟩ := h.pass hfirst ms
              have hlater := ih hontime (hsame.trans hopen) hrest
              have htime : (s.pass .sleep ms).time = s.time + ms := by
                rw [pass_eq]
              rw [htime, h.pass_time hfirst hopen] at hlater
              rw [Service.sweeps, List.map_append, ← List.append_assoc]
              exact hlater
          | leap => exact absurd (List.mem_cons_self ..) (hsleep ms)
      | close =>
          show _ ++ (s.close.2.sweeps steps).map Sweep.time = (first.pass .sleep s.time).1
          rw [h.close_isShut.sweeps]
          exact List.append_nil _

/-- A sweep runs in the time that passes during a step, at what the clock shows. -/
theorem mem_sweepsIn {ms : Nat} {w : Sweep} (hw : w ∈ s.sweepsIn (.pass .sleep ms)) :
    s.time < w.time ∧ w.time ≤ (s.pass .sleep ms).time ∧ w.clock = s.clock := by
  cases hclosed : s.stored.store.isClosed with
  | true =>
      rw [(h.isShut hclosed).sweepsIn] at hw
      contradiction
  | false =>
      obtain ⟨t, ht, rfl⟩ := List.mem_map.1 hw
      rw [h.sweeper_of_open hclosed] at ht
      obtain ⟨hlt, hle⟩ := hfirst.mem_pass_pass ht
      rw [pass_eq]
      exact ⟨hlt, hle, rfl⟩

end IsOnTime

/-! ### The timetable -/

/-- What steps make of the sweeps of a store that is opened at a time. -/
structure Timetable (s : Service) (period start : Nat) (steps : List Step) : Prop where
  /-- Sweeps run one after the other. -/
  inTurn : (s.sweeps steps).Pairwise (·.time < ·.time)
  /-- They run once a period from the opening on, as long as the store is open, and if there is no
  period then never. -/
  times : ∀ t, t ∈ (s.sweeps steps).map Sweep.time ↔
    0 < period ∧ t ≤ s.openUntil steps ∧ ∃ i, t = start + period + i * period
  /-- Each runs while time passes, at what the clock shows then. -/
  clocks : ∀ w ∈ s.sweeps steps, ∃ before ms later, steps = before ++ .pass .sleep ms :: later ∧
    (s.after before).time < w.time ∧ w.time ≤ ((s.after before).pass .sleep ms).time ∧
    w.clock = (s.after before).clock
  /-- What sweeps do is to purge. -/
  purges : ∀ ms, ((s.after steps).pass .sleep ms).contents =
    (s.after steps).contents.after
      (((s.after steps).sweeps [.pass .sleep ms]).map fun w => .purge w.clock)
  /-- Time may pass in two parts. -/
  inParts : ∀ a b,
    ((s.after steps).pass .sleep a).pass .sleep b = (s.after steps).pass .sleep (a + b)
  /-- Sweeps that fail change nothing of those that follow. -/
  failures : ∀ time results, .crashed ∉ results →
    (s.after steps).sweeper.passWith .sleep time results =
      (((s.after steps).sweeper.pass .sleep time).1, ((s.after steps).sweeper.pass .sleep time).2,
        results.drop ((s.after steps).sweeper.pass .sleep time).1.length)
  /-- A store that has been closed answers nothing, is closed once more, and keeps what it keeps. -/
  closed : .close ∈ steps → (∀ r, ((s.after steps).answer r).1 = .error .closed) ∧
    (s.after steps).close.1 = .ok () ∧
    ∀ later, ((s.after steps).after later).contents = (s.after steps).contents

theorem isOnTime_of_start {attended : Bool} {medium : Medium} {period : Nat} {disk : Disk}
    {clock : Instant} {time : Nat} (h : start attended medium period disk clock time = .ok s) :
    ∃ first, Sweeper.start attended period time = .ok first ∧ s.IsOnTime first ∧
      s.stored.store.isClosed = false ∧ s.time = time := by
  obtain ⟨⟨contents, disk'⟩, -, h⟩ := bind_eq_ok_iff.1 h
  obtain ⟨first, hfirst, h⟩ := bind_eq_ok_iff.1 h
  obtain rfl := Except.ok.inj h
  refine ⟨first, hfirst, ⟨rfl, ?_⟩, rfl, rfl⟩
  show first = (first.pass .sleep time).2
  rw [Sweeper.pass_of_start hfirst]

/-- A store that is opened on any medium keeps its timetable, whatever it is asked and wherever its
clock is set, as time passes timer by timer, until it is closed and after that. -/
theorem timetable_of_start {attended : Bool} {medium : Medium} {period : Nat} {disk : Disk}
    {clock : Instant} {time : Nat}
    (hstart : start attended medium period disk clock time = .ok s)
    (hsleep : ∀ ms, .pass .leap ms ∉ steps) : s.Timetable period time steps := by
  obtain ⟨first, hfirst, hontime, hopen, rfl⟩ := isOnTime_of_start hstart
  have hperiod := Sweeper.hasPeriod_of_start hfirst
  have htimes := hontime.sweeps hperiod hopen hsleep
  rw [Sweeper.pass_of_start hfirst, List.nil_append] at htimes
  have hlater := hontime.after hperiod hsleep
  constructor
  case inTurn =>
    rw [← List.pairwise_map, htimes]
    exact hperiod.pairwise_pass _
  case times =>
    intro t
    rw [htimes]
    exact Sweeper.mem_pass_iff_of_start hfirst
  case clocks =>
    intro w hw
    obtain ⟨before, step, later, rfl, hin⟩ := exists_of_mem_sweeps hw
    cases step with
    | pass how ms =>
        cases how with
        | sleep =>
            have hbefore : ∀ ms, .pass .leap ms ∉ before := fun ms hms =>
              hsleep ms (List.mem_append_left _ hms)
            exact ⟨before, ms, later, rfl, (hontime.after hperiod hbefore).mem_sweepsIn hperiod hin⟩
        | leap => exact absurd (List.mem_append_right _ (List.mem_cons_self ..)) (hsleep ms)
    | _ => contradiction
  case purges =>
    intro ms
    cases hclosed : (s.after steps).stored.store.isClosed with
    | true =>
        have hshut := hlater.isShut hclosed
        rw [hshut.sweeps]
        exact (hshut.step (.pass .sleep ms)).2
    | false => exact contents_pass_eq hclosed .sleep ms
  case inParts =>
    exact pass_sleep_add (hlater.hasPeriod hperiod)
  case failures =>
    intro time results hcrashed
    exact Sweeper.passWith_of_not_crashed hcrashed _ _ _
  case closed =>
    intro hclose
    obtain ⟨before, later, rfl⟩ := List.append_of_mem hclose
    have hbefore : ∀ ms, .pass .leap ms ∉ before := fun ms hms =>
      hsleep ms (List.mem_append_left _ hms)
    have hshut := (hontime.after hperiod hbefore).close_isShut
    rw [after_append]
    obtain ⟨hshut, -⟩ := hshut.after later
    refine ⟨?_, (close_of_faultless hshut.faults).1, ?_⟩
    · intro r
      exact congrArg Prod.fst (hshut.answer r)
    · intro later
      exact (hshut.after later).2

/-- A store with a sweep a second: the clock is set between the first sweep and the second, and the
store is closed at the third. -/
theorem timetable_until_closed :
    let late : Instant := ⟨9, 0, by decide, by decide, by decide⟩
    let s : Service := ⟨.trees none, 1000, ⟨[]⟩, ⟨⟨.trees .empty, false⟩, []⟩, .epoch, 0,
      ⟨some ⟨1000, 1000⟩, true⟩⟩
    let steps : List Step :=
      [.pass .sleep 1500, .clock late, .pass .sleep 1500, .close, .pass .sleep 5000]
    start true (.trees none) 1000 ⟨[]⟩ .epoch 0 = .ok s ∧ (∀ ms, .pass .leap ms ∉ steps) ∧
      s.Timetable 1000 0 steps ∧ s.sweeps steps = [⟨1000, .epoch⟩, ⟨2000, late⟩, ⟨3000, late⟩] := by
  intro late s steps
  have hstart : start true (.trees none) 1000 ⟨[]⟩ .epoch 0 = .ok s := rfl
  have hsleep : ∀ ms, .pass .leap ms ∉ steps := by
    intro ms
    simp [steps]
  exact ⟨hstart, hsleep, timetable_of_start hstart hsleep, by decide +kernel⟩

end Service

end ReadOnce
