/-!
# Texts in fields

A text, of characters or of bytes, cut at every occurrence of a separator: one field more than there
are separators.
-/

namespace ReadOnce.Text

/-- The text that separated fields make. -/
def joinWith {α : Type} (sep : α) : List (List α) → List α
  | [] => []
  | [field] => field
  | field :: fields => field ++ sep :: joinWith sep fields

variable {α : Type} [DecidableEq α]

/-- The fields of a text between separators. -/
def splitAt (sep : α) : List α → List (List α)
  | [] => [[]]
  | c :: rest =>
    if c = sep then [] :: splitAt sep rest
    else match splitAt sep rest with
      | [] => [[c]]
      | field :: fields => (c :: field) :: fields

/-- What comes before the first separator of a text, and what comes after it. -/
def cutAt (sep : α) (s : List α) : List α × List α :=
  (s.takeWhile (· ≠ sep), (s.dropWhile (· ≠ sep)).drop 1)

/-- A text without separators is one field. -/
theorem splitAt_of_not_mem {sep : α} {s : List α} (h : sep ∉ s) : splitAt sep s = [s] := by
  induction s with
  | nil => rfl
  | cons c rest ih =>
    simp only [List.mem_cons, not_or] at h
    rw [splitAt, if_neg (Ne.symm h.1), ih h.2]

/-- The first field ends at the first separator. -/
theorem splitAt_append {sep : α} {s : List α} (h : sep ∉ s) (rest : List α) :
    splitAt sep (s ++ sep :: rest) = s :: splitAt sep rest := by
  induction s with
  | nil => simp [splitAt]
  | cons c s ih =>
    simp only [List.mem_cons, not_or] at h
    rw [List.cons_append, splitAt, if_neg (Ne.symm h.1), ih h.2]

end ReadOnce.Text
