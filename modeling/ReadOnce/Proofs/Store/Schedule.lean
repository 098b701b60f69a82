import Mathlib.Order.Nat
import ReadOnce.Store.Sweeper

/-!
# The times of sweeps

Timer by timer, sweeps run at the times of their schedule, which are a period apart. What
is due until a later time is what is due until an earlier one and what is due from then on, so it
does not matter in how many parts time passes.

A sweeper keeps its schedule whether its sweeps succeed or fail.
-/

namespace ReadOnce

namespace Schedule

variable {s : Schedule} {time later : Nat}

@[simp] theorem period_after (s : Schedule) (n : Nat) : (s.after n).period = s.period :=
  rfl

@[simp] theorem after_zero (s : Schedule) : s.after 0 = s := by
  simp [after]

@[simp] theorem after_after (s : Schedule) (n k : Nat) : (s.after n).after k = s.after (n + k) := by
  show (⟨s.period, s.due + n * s.period + k * s.period⟩ : Schedule) =
    ⟨s.period, s.due + (n + k) * s.period⟩
  rw [Nat.add_mul, Nat.add_assoc]

section Period

variable (hperiod : 0 < s.period)
include hperiod

/-- The sweeps that are due are those whose times have come. -/
theorem lt_dueBy_iff {i : Nat} : i < s.dueBy time ↔ s.due + i * s.period ≤ time := by
  unfold dueBy
  split
  · rename_i hlt
    constructor
    · intro hi
      exact absurd hi (Nat.not_lt_zero i)
    · intro hle
      omega
  · rw [Nat.lt_succ_iff, Nat.le_div_iff_mul_le hperiod]
    omega

/-- The first sweep that is not due comes later. -/
theorem lt_due_after_dueBy (time : Nat) : time < (s.after (s.dueBy time)).due := by
  apply Nat.not_le.1
  intro hle
  exact Nat.lt_irrefl _ ((lt_dueBy_iff hperiod).2 hle)

theorem dueBy_eq_add (h : time ≤ later) :
    s.dueBy later = s.dueBy time + (s.after (s.dueBy time)).dueBy later := by
  apply eq_of_forall_lt_iff
  intro i
  have hrest : i - s.dueBy time < (s.after (s.dueBy time)).dueBy later ↔
      s.due + s.dueBy time * s.period + (i - s.dueBy time) * s.period ≤ later :=
    lt_dueBy_iff (s := s.after (s.dueBy time)) hperiod
  by_cases hi : i < s.dueBy time
  · have hle : s.due + i * s.period ≤ later := ((lt_dueBy_iff hperiod).1 hi).trans h
    constructor
    · intro _
      exact Nat.lt_add_right _ hi
    · intro _
      exact (lt_dueBy_iff hperiod).2 hle
  · have hsplit : s.dueBy time + (i - s.dueBy time) = i := Nat.add_sub_of_le (Nat.not_lt.1 hi)
    rw [Nat.add_assoc, ← Nat.add_mul, hsplit, ← lt_dueBy_iff hperiod] at hrest
    rw [← hrest]
    omega

/-- Time may pass in two parts. -/
theorem sleep_eq_append (h : time ≤ later) :
    s.sleep later =
      ((s.sleep time).1 ++ ((s.sleep time).2.sleep later).1, ((s.sleep time).2.sleep later).2) := by
  have hdue := dueBy_eq_add hperiod h
  simp only [sleep, after_after, period_after, Prod.mk.injEq]
  constructor
  · rw [hdue, List.range_add, List.map_append, List.map_map]
    congr 2
    funext i
    show s.due + (s.dueBy time + i) * s.period = s.due + s.dueBy time * s.period + i * s.period
    rw [Nat.add_mul, Nat.add_assoc]
  · rw [hdue]

/-- The times of the sweeps are those of the schedule, as far as they have come. -/
theorem mem_sleep_iff {t : Nat} :
    t ∈ (s.sleep time).1 ↔ t ≤ time ∧ ∃ i, t = s.due + i * s.period := by
  constructor
  · intro ht
    obtain ⟨i, hi, rfl⟩ := List.mem_map.1 ht
    exact ⟨(lt_dueBy_iff hperiod).1 (List.mem_range.1 hi), i, rfl⟩
  · rintro ⟨hle, i, rfl⟩
    exact List.mem_map.2 ⟨i, List.mem_range.2 ((lt_dueBy_iff hperiod).2 hle), rfl⟩

/-- Each sweep comes after those before it. -/
theorem pairwise_sleep (time : Nat) : (s.sleep time).1.Pairwise (· < ·) := by
  apply List.pairwise_map.2
  apply List.pairwise_lt_range.imp
  intro i j hlt
  exact Nat.add_lt_add_left (Nat.mul_lt_mul_of_pos_right hlt hperiod) _

end Period

end Schedule

namespace Sweeper

variable {s : Sweeper} {time later : Nat}

/-- The sweeps of a sweeper do not all run at once. -/
def HasPeriod (s : Sweeper) : Prop :=
  ∀ schedule, s.schedule = some schedule → 0 < schedule.period

theorem eq_of_start {attended : Bool} {period now : Nat} (h : start attended period now = .ok s) :
    period = 0 ∧ s = disabled ∨ 0 < period ∧ s = ⟨some ⟨period, now + period⟩, true⟩ := by
  by_cases hperiod : period = 0
  · subst hperiod
    exact .inl ⟨rfl, (Except.ok.inj h).symm⟩
  · simp only [start, Schedule.start?, if_neg hperiod] at h
    split at h
    · exact .inr ⟨Nat.pos_of_ne_zero hperiod, (Except.ok.inj h).symm⟩
    · contradiction

theorem hasPeriod_of_start {attended : Bool} {period now : Nat}
    (h : start attended period now = .ok s) : s.HasPeriod := by
  intro schedule hschedule
  obtain ⟨-, rfl⟩ | ⟨hperiod, rfl⟩ := eq_of_start h
  · contradiction
  · obtain rfl := Option.some.inj hschedule
    exact hperiod

theorem pass_sleep_of_some {schedule : Schedule} (h : s.schedule = some schedule) (time : Nat) :
    s.pass .sleep time =
      ((schedule.sleep time).1, { s with schedule := some (schedule.sleep time).2 }) := by
  simp only [pass, h]

theorem pass_of_none (h : s.schedule = none) (how : Passing) (time : Nat) :
    s.pass how time = ([], s) := by
  simp only [pass, h]

namespace HasPeriod

variable (h : s.HasPeriod)
include h

theorem pass (time : Nat) : (s.pass .sleep time).2.HasPeriod := by
  cases hs : s.schedule with
  | none =>
      rw [pass_of_none hs]
      exact h
  | some first =>
      rw [pass_sleep_of_some hs]
      intro schedule hschedule
      obtain rfl := Option.some.inj hschedule
      exact h first hs

theorem pass_eq_append (hle : time ≤ later) :
    s.pass .sleep later =
      ((s.pass .sleep time).1 ++ ((s.pass .sleep time).2.pass .sleep later).1,
        ((s.pass .sleep time).2.pass .sleep later).2) := by
  cases hs : s.schedule with
  | none => simp only [pass_of_none hs, List.append_nil]
  | some first =>
      have hnext := pass_sleep_of_some (s := ⟨some (first.sleep time).2, s.isRunning⟩) rfl later
      rw [pass_sleep_of_some hs, pass_sleep_of_some hs, hnext,
        Schedule.sleep_eq_append (h first hs) hle]

theorem pairwise_pass (time : Nat) : (s.pass .sleep time).1.Pairwise (· < ·) := by
  cases hs : s.schedule with
  | none =>
      rw [pass_of_none hs]
      exact .nil
  | some first =>
      rw [pass_sleep_of_some hs]
      exact Schedule.pairwise_sleep (h first hs) time

/-- The sweeps that run while time passes run in the time that passes. -/
theorem mem_pass_pass {t : Nat} (ht : t ∈ ((s.pass .sleep time).2.pass .sleep later).1) :
    time < t ∧ t ≤ later := by
  cases hs : s.schedule with
  | none =>
      rw [pass_of_none hs, pass_of_none hs] at ht
      contradiction
  | some first =>
      have hperiod := h first hs
      rw [pass_sleep_of_some hs, pass_sleep_of_some rfl] at ht
      obtain ⟨hle, i, rfl⟩ := (Schedule.mem_sleep_iff (s := (first.sleep time).2) hperiod).1 ht
      exact ⟨Nat.lt_add_right _ (Schedule.lt_due_after_dueBy hperiod time), hle⟩

end HasPeriod

/-- When it is started, no sweep of a sweeper is due. -/
theorem pass_of_start {attended : Bool} {period now : Nat} (h : start attended period now = .ok s) :
    s.pass .sleep now = ([], s) := by
  obtain ⟨-, rfl⟩ | ⟨hperiod, rfl⟩ := eq_of_start h
  · rfl
  · have hnone : (⟨period, now + period⟩ : Schedule).dueBy now = 0 :=
      if_pos (Nat.lt_add_of_pos_right hperiod)
    rw [pass_sleep_of_some rfl, Schedule.sleep, hnone, Schedule.after_zero]
    rfl

/-- A sweep is due a period after a sweeper is started, and from then on once a period. -/
theorem mem_pass_iff_of_start {attended : Bool} {period now t : Nat}
    (h : start attended period now = .ok s) :
    t ∈ (s.pass .sleep time).1 ↔
      0 < period ∧ t ≤ time ∧ ∃ i, t = now + period + i * period := by
  obtain ⟨rfl, rfl⟩ | ⟨hperiod, rfl⟩ := eq_of_start h
  · constructor
    · intro ht
      contradiction
    · rintro ⟨hlt, -⟩
      contradiction
  · rw [pass_sleep_of_some rfl, Schedule.mem_sleep_iff hperiod]
    exact (and_iff_right hperiod).symm

/-- A sweeper runs all sweeps as long as none of them crashes. -/
theorem runs_of_not_crashed {results : List SweepResult} (h : .crashed ∉ results)
    (times : List Nat) : runs times results = (times, false, results.drop times.length) := by
  induction times generalizing results with
  | nil => rfl
  | cons time times ih =>
      cases results with
      | nil => simp only [runs, List.tail_nil, ih h, List.drop_nil]
      | cons result results =>
          have hrest : .crashed ∉ results := fun hmem => h (List.mem_cons_of_mem _ hmem)
          cases result with
          | crashed => exact absurd (List.mem_cons_self ..) h
          | done count => simp only [runs, List.tail_cons, ih hrest, List.length_cons,
              List.drop_succ_cons]
          | failed e => simp only [runs, List.tail_cons, ih hrest, List.length_cons,
              List.drop_succ_cons]

/-- Sweeps that fail change nothing of what a sweeper does. -/
theorem passWith_of_not_crashed {results : List SweepResult} (h : .crashed ∉ results)
    (s : Sweeper) (how : Passing) (time : Nat) :
    s.passWith how time results =
      ((s.pass how time).1, (s.pass how time).2,
        results.drop (s.pass how time).1.length) := by
  simp only [passWith, runs_of_not_crashed h, Bool.false_eq_true, if_false]

end Sweeper

end ReadOnce
