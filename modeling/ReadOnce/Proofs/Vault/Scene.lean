import Mathlib.Logic.Function.Basic
import ReadOnce.Proofs.Store.Record
import ReadOnce.Proofs.Vault.Call

/-!
# Calls that overlap

A scene is a store, a clock and any number of calls on the message under one key, each with what is
left of its program. An event lets one of the calls take its next step, or is what happens besides:
the clock is set, somebody else asks the store for something, a purge that is under way looks at one
more message, or the store is closed. Events come in any order, and the log keeps who asked what and
what the answer was.
-/

namespace ReadOnce

/-- A request that was answered, by the call that asked, if it was a call of the scene. -/
structure Exchange (ι : Type) where
  caller : Option ι
  request : Request
  reply : request.Reply

/-- A store, a clock and calls on one message. -/
structure Scene (ι : Type) where
  store : Store
  clock : Instant
  calls : ι → Program Outcome
  /-- What has been asked, last first. -/
  log : List (Exchange ι)

/-- What may happen next. -/
inductive Event (ι : Type) where
  | call (i : ι)
  | clock (t : Instant)
  | request (r : Request)
  | sweep (now : Instant) (place : Bytes)
  | close

/-- Whether an event is a step of a call. -/
def Event.isCall {ι : Type} : Event ι → Bool
  | call _ => true
  | _ => false

namespace Scene

variable {ι : Type}

/-- A scene before any of its calls has taken a step. -/
def start (v : Vault) (key : Key) (ask : ι → Call) (store : Store) (clock : Instant) : Scene ι where
  store
  clock
  calls i := (ask i).program v key
  log := []

/-- The scene once somebody has asked the store. -/
def asked (s : Scene ι) (caller : Option ι) (r : Request) : Scene ι :=
  { s with store := (s.store.answer r).2, log := ⟨caller, r, (s.store.answer r).1⟩ :: s.log }

variable [DecidableEq ι]

/-- The scene once a call has gone on. -/
def resume (s : Scene ι) (i : ι) (p : Program Outcome) : Scene ι :=
  { s with calls := Function.update s.calls i p }

/-- What holds of a call that goes on, and of the other calls before, holds of all calls. -/
theorem forall_calls_resume_of_ne {P : ι → Program Outcome → Prop} {s : Scene ι} {i : ι}
    {p : Program Outcome} (hp : P i p) (h : ∀ j, j ≠ i → P j (s.calls j)) (j : ι) :
    P j ((s.resume i p).calls j) := by
  show P j (Function.update s.calls i p j)
  by_cases hj : j = i
  · subst hj
    rwa [Function.update_self]
  · rw [Function.update_of_ne hj]
    exact h j hj

/-- What holds of a call that goes on, and of all calls before, holds of all calls. -/
theorem forall_calls_resume {P : ι → Program Outcome → Prop} {s : Scene ι} {i : ι}
    {p : Program Outcome} (hp : P i p) (h : ∀ j, P j (s.calls j)) (j : ι) :
    P j ((s.resume i p).calls j) :=
  forall_calls_resume_of_ne hp (fun j _ => h j) j

/-- What an event makes of a scene. -/
def step (s : Scene ι) : Event ι → Scene ι
  | .call i =>
    match s.calls i with
    | .done _ => s
    | .now next => s.resume i (next s.clock)
    | .ask r next => (s.asked (some i) r).resume i (next (s.store.answer r).1)
  | .clock t => { s with clock := t }
  | .request r => s.asked none r
  | .sweep now place =>
    if s.store.isClosed then s
    else { s with store.contents := s.store.contents.purgeStep now place }
  | .close => { s with store := s.store.close }

@[simp] theorem step_request (s : Scene ι) (r : Request) :
    s.step (.request r) = s.asked none r := rfl

theorem step_sweep_of_open {s : Scene ι} (h : s.store.isClosed = false) (now : Instant)
    (place : Bytes) : s.step (.sweep now place) =
      { s with store.contents := s.store.contents.purgeStep now place } := by
  simp only [step, h, Bool.false_eq_true, if_false]

theorem step_of_ask {s : Scene ι} {i : ι} {r : Request} {next : r.Reply → Program Outcome}
    (h : s.calls i = .ask r next) :
    s.step (.call i) = (s.asked (some i) r).resume i (next (s.store.answer r).1) := by
  simp only [step, h]

/-- The three things that a step of a call can be: nothing, because it is over, a look at the clock,
or a request to the store. -/
theorem step_call {v : Vault} {key : Key} {call : Call} {ph : Phase} {s : Scene ι} {i : ι}
    (h : Phase.Runs v key call ph (s.calls i)) :
    (∃ o, ph = .ended o ∧ s.step (.call i) = s) ∨
      (∃ m next, ph = .dating m ∧ Phase.Runs v key call (.afterClock v call m s.clock) next ∧
        s.step (.call i) = s.resume i next) ∨
      ∃ r ph' next, Phase.Asks v key call ph r (s.store.answer r).1 ph' ∧
        Phase.Runs v key call ph' next ∧
        s.step (.call i) = (s.asked (some i) r).resume i next := by
  generalize hp : s.calls i = p at h
  cases h with
  | ended => exact .inl ⟨_, rfl, by simp only [step, hp]⟩
  | dating h => exact .inr (.inl ⟨_, _, rfl, h s.clock, by simp only [step, hp]⟩)
  | asking h => exact .inr (.inr ⟨_, _, _, .load _, h _, step_of_ask hp⟩)
  | expiring h => exact .inr (.inr ⟨_, _, _, .expire _, h _, step_of_ask hp⟩)
  | claiming h => exact .inr (.inr ⟨_, _, _, .claim _ _ _, h _, step_of_ask hp⟩)
  | counting h => exact .inr (.inr ⟨_, _, _, .count _ _, h _, step_of_ask hp⟩)
  | exhausting h => exact .inr (.inr ⟨_, _, _, .exhaust _ _, h _, step_of_ask hp⟩)

/-- No event but its own step changes what is left of a call. -/
theorem calls_step_of_ne {s : Scene ι} {e : Event ι} {i : ι} (h : e ≠ .call i) :
    (s.step e).calls i = s.calls i := by
  cases e with
  | call j =>
      have hij : i ≠ j := fun hij => h (congrArg Event.call hij.symm)
      simp only [step]
      split
      · rfl
      · exact Function.update_of_ne hij ..
      · exact Function.update_of_ne hij ..
  | sweep now place =>
      simp only [step]
      split <;> rfl
  | _ => rfl

/-- What events in turn make of a scene. -/
def run (s : Scene ι) (es : List (Event ι)) : Scene ι :=
  es.foldl step s

theorem run_append (s : Scene ι) (es es' : List (Event ι)) :
    s.run (es ++ es') = (s.run es).run es' :=
  List.foldl_append

/-- What holds of a scene and survives each event holds after any of them. -/
theorem run_induction {P : Scene ι → Prop} {ok : Event ι → Prop}
    (hstep : ∀ s e, P s → ok e → P (s.step e)) {s : Scene ι} (hs : P s) {es : List (Event ι)}
    (hes : ∀ e ∈ es, ok e) : P (s.run es) := by
  induction es generalizing s with
  | nil => exact hs
  | cons e es ih =>
      exact ih (hstep s e hs (hes e (List.mem_cons_self ..)))
        fun e' he' => hes e' (List.mem_cons_of_mem _ he')

theorem calls_run_of_not_mem {s : Scene ι} {es : List (Event ι)} {i : ι} (h : .call i ∉ es) :
    (s.run es).calls i = s.calls i := by
  induction es generalizing s with
  | nil => rfl
  | cons e es ih =>
      obtain ⟨he, hes⟩ := List.ne_and_not_mem_of_not_mem_cons h
      exact (ih hes).trans (calls_step_of_ne he.symm)

end Scene

end ReadOnce
