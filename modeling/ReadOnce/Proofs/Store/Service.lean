import Mathlib.Logic.Function.Iterate
import ReadOnce.Store.Service

/-!
# What happens to a store in service

A store in service is asked something, its clock is set, time passes and sweeps run, or it is
closed. All that a store keeps is changed by what it answers, a sweep being a purge, so what every
answer leaves true is true of what a store keeps after any steps.
-/

namespace ReadOnce

/-- A store after some purges at an instant. -/
def Store.purged (s : Store) (now : Instant) (n : Nat) : Store :=
  Nat.iterate (fun s => (s.answer (.purge now)).2) n s

namespace Service

/-- What may happen to a store in service. -/
inductive Step where
  | ask (r : Request)
  | clock (t : Instant)
  | pass (how : Passing) (ms : Nat)
  | close

/-- What a step makes of a store in service. -/
def step (s : Service) : Step → Service
  | .ask r => (s.answer r).2
  | .clock t => s.setClock t
  | .pass how ms => s.pass how ms
  | .close => s.close.2

/-- What steps in turn make of a store in service. -/
def after (s : Service) (steps : List Step) : Service :=
  steps.foldl step s

/-- What a store keeps. -/
def contents (s : Service) : Contents :=
  s.stored.store.contents

variable {P : Contents → Prop} {R : Request → Prop} {s : Service}

/-- An answer changes what is kept as the request does, or not at all. -/
theorem contents_store_answer (hanswer : ∀ c r, P c → R r → P (c.answer r).2) {s : Store}
    (h : P s.contents) {r : Request} (hr : R r) : P (s.answer r).2.contents := by
  simp only [Store.answer]
  split
  · exact h
  · exact hanswer _ r h hr

theorem contents_answer (hanswer : ∀ c r, P c → R r → P (c.answer r).2) (h : P s.contents)
    {r : Request} (hr : R r) : P (s.answer r).2.contents := by
  simp only [answer, contents, FaultyStore.answer]
  split
  · exact h
  · exact contents_store_answer hanswer h hr

/-- Time that passes changes the store by a purge for each sweep, the sweeper, and the time. -/
theorem pass_eq (s : Service) (how : Passing) (ms : Nat) :
    s.pass how ms =
      { s with
        stored.store :=
          s.stored.store.purged s.clock (s.sweeper.pass how (s.time + ms)).1.length
        sweeper := (s.sweeper.pass how (s.time + ms)).2
        time := s.time + ms } := by
  have hfold (times : List Nat) (s : Service) : times.foldl (fun s _ => s.sweep) s =
      { s with stored.store := s.stored.store.purged s.clock times.length } := by
    induction times generalizing s with
    | nil => rfl
    | cons time times ih => exact ih s.sweep
  simp only [pass, hfold]

/-- What a sweep at the clock leaves true is true once time has passed. -/
theorem stored_pass {Q : FaultyStore → Prop}
    (hsweep : ∀ f, Q f → Q { f with store := (f.store.answer (.purge s.clock)).2 })
    (h : Q s.stored) (how : Passing) (ms : Nat) : Q (s.pass how ms).stored := by
  rw [pass_eq]
  show Q { s.stored with store := s.stored.store.purged s.clock _ }
  generalize (s.sweeper.pass how (s.time + ms)).1.length = n
  generalize s.stored = f at h ⊢
  induction n generalizing f with
  | zero => exact h
  | succ n ih =>
      have hlater := ih _ (hsweep f h)
      exact hlater

theorem clock_pass (s : Service) (how : Passing) (ms : Nat) : (s.pass how ms).clock = s.clock := by
  rw [pass_eq]

theorem contents_pass (hanswer : ∀ c r, P c → R r → P (c.answer r).2)
    (hpurge : ∀ now, R (.purge now)) (h : P s.contents) (how : Passing) (ms : Nat) :
    P (s.pass how ms).contents := by
  refine stored_pass (Q := fun f => P f.store.contents) ?_ h how ms
  intro f hf
  exact contents_store_answer hanswer hf (hpurge s.clock)

@[simp] theorem contents_close (s : Service) : s.close.2.contents = s.contents := by
  simp only [close, contents, FaultyStore.close]
  split <;> rfl

/-- What answers to requests of a kind leave true, purges among them, is true of what is kept after
any steps. -/
theorem contents_induction (hanswer : ∀ c r, P c → R r → P (c.answer r).2)
    (hpurge : ∀ now, R (.purge now)) (h : P s.contents) {steps : List Step}
    (hsteps : ∀ r, .ask r ∈ steps → R r) : P (s.after steps).contents := by
  induction steps generalizing s with
  | nil => exact h
  | cons step steps ih =>
      refine ih ?_ fun r hr => hsteps r (List.mem_cons_of_mem _ hr)
      cases step with
      | ask r => exact contents_answer hanswer h (hsteps r (List.mem_cons_self ..))
      | clock t => exact h
      | pass how ms => exact contents_pass hanswer hpurge h how ms
      | close =>
          show P s.close.2.contents
          rwa [contents_close]

end Service

end ReadOnce
