import ReadOnce.Store.Request

/-!
# Programs that use a store

What a caller does with a store and a clock, step by step: each step asks one request or looks at
the clock, and the rest depends on the reply. A program says nothing about what happens between its
steps, so the steps of several programs may be taken in any order; `Program.run` takes those of one
program without anything in between.
-/

namespace ReadOnce

/-- A computation that asks a store and looks at a clock. -/
inductive Program (α : Type) where
  | done (a : α)
  | now (next : Instant → Program α)
  | ask (r : Request) (next : r.Reply → Program α)

namespace Program

variable {α β σ : Type}

/-- A program with its result changed. -/
def map (f : α → β) : Program α → Program β
  | done a => done (f a)
  | now next => now fun t => (next t).map f
  | ask r next => ask r fun reply => (next reply).map f

/-- The result of a program that is run on a store by itself while the clock stands still, and the
store from then on. -/
def run (answer : σ → (r : Request) → r.Reply × σ) (clock : Instant) : Program α → σ → α × σ
  | done a, s => (a, s)
  | now next, s => (next clock).run answer clock s
  | ask r next, s => (next (answer s r).1).run answer clock (answer s r).2

section Run

variable (answer : σ → (r : Request) → r.Reply × σ) (clock : Instant) (s : σ)

@[simp] theorem run_done (a : α) : (done a).run answer clock s = (a, s) := rfl

@[simp] theorem run_now (next : Instant → Program α) :
    (now next).run answer clock s = (next clock).run answer clock s := rfl

@[simp] theorem run_ask (r : Request) (next : r.Reply → Program α) :
    (ask r next).run answer clock s = (next (answer s r).1).run answer clock (answer s r).2 := rfl

end Run

end Program

end ReadOnce
