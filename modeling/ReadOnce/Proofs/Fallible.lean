/-!
# Computations that may fail

What it takes for a computation to succeed that is put together from others. By these lemmas it is
taken apart step by step, without a look at how its errors are passed on.
-/

namespace ReadOnce

variable {ε ε' α β : Type} {x : Except ε α}

/-- Two steps succeed if the second one does with what the first one gives. -/
theorem bind_eq_ok_iff {f : α → Except ε β} {b : β} :
    x >>= f = .ok b ↔ ∃ a, x = .ok a ∧ f a = .ok b := by
  cases x with
  | error e => exact iff_of_false (by simp [bind, Except.bind]) (by simp)
  | ok a => simp [bind, Except.bind]

/-- A check in front has to pass first. -/
theorem ite_error_eq_ok_iff {p : Prop} [Decidable p] {e : ε} {a : α} :
    (if p then .error e else x) = .ok a ↔ ¬ p ∧ x = .ok a := by
  split <;> simp_all

@[simp] theorem mapError_ok (f : ε → ε') (a : α) :
    (Except.ok a : Except ε α).mapError f = .ok a := rfl

@[simp] theorem mapError_error (f : ε → ε') (e : ε) :
    (Except.error e : Except ε α).mapError f = .error (f e) := rfl

/-- What an error is called does not matter to success. -/
theorem mapError_eq_ok_iff {f : ε → ε'} {a : α} : x.mapError f = .ok a ↔ x = .ok a := by
  cases x with
  | error e =>
      have hleft : Except.error (f e) ≠ (.ok a : Except ε' α) := by simp
      exact iff_of_false hleft (by simp)
  | ok b =>
      have hsame : ((Except.ok b : Except ε' α) = .ok a) ↔ (Except.ok b : Except ε α) = .ok a := by
        simp
      exact hsame

end ReadOnce
