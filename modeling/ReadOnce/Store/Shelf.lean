import ReadOnce.Store.Request

/-!
# Messages in memory

A shelf holds messages of pairwise distinct keys, as they are. It is lost with the program.
-/

namespace ReadOnce

/-- Messages of pairwise distinct keys. -/
structure Shelf where
  messages : List Message
  distinct : (messages.map Message.key).Nodup

namespace Shelf

def empty : Shelf :=
  ⟨[], List.nodup_nil⟩

def find? (s : Shelf) (key : Key) : Option Message :=
  s.messages.find? (·.key == key)

/-- A shelf with one more message, whose key is new. -/
def insert (s : Shelf) (m : Message) (new : s.find? m.key = none) : Shelf where
  messages := m :: s.messages
  distinct := by
    rw [List.map_cons, List.nodup_cons]
    refine ⟨fun h => ?_, s.distinct⟩
    obtain ⟨n, hn, hk⟩ := List.mem_map.1 h
    simpa [hk] using List.find?_eq_none.1 new n hn

def filter (s : Shelf) (keep : Message → Bool) : Shelf where
  messages := s.messages.filter keep
  distinct := List.Sublist.nodup (List.filter_sublist.map _) s.distinct

/-- A shelf on which the message under a key counts one more wrong pin. -/
def increment (s : Shelf) (key : Key) : Shelf where
  messages := s.messages.map fun m => if m.key = key then { m with errors := m.errors + 1 } else m
  distinct := by
    rw [List.map_map]
    have : Message.key ∘ (fun m : Message =>
        if m.key = key then { m with errors := m.errors + 1 } else m) = Message.key := by
      funext m
      simp only [Function.comp]
      split <;> rfl
    rw [this]
    exact s.distinct

/-- What a shelf answers, and the shelf from then on. -/
def answer (s : Shelf) : (r : Request) → r.Reply × Shelf
  | .save m =>
    match new : s.find? m.key with
    | some _ => (.error (.saveRejected s!"duplicate key {m.key.text}"), s)
    | none => (.ok (), s.insert m new)
  | .load key =>
    match s.find? key with
    | some m => (.ok m, s)
    | none => (.error .loadRejected, s)
  | .increment key =>
    match s.find? key with
    | some m => (.ok (m.errors + 1), s.increment key)
    | none => (.error .loadRejected, s)
  | .remove key => (.ok (s.find? key).isSome, s.filter (·.key != key))
  | .purge now =>
    (.ok (s.messages.countP (·.isExpired now)), s.filter fun m => !m.isExpired now)

section Answers

variable {s : Shelf} {m : Message} {key : Key}

@[simp] theorem answer_load_of_find? (h : s.find? key = some m) :
    s.answer (.load key) = (.ok m, s) := by
  simp only [answer, h]

@[simp] theorem answer_load_of_missing (h : s.find? key = none) :
    s.answer (.load key) = (.error .loadRejected, s) := by
  simp only [answer, h]

@[simp] theorem answer_increment_of_find? (h : s.find? key = some m) :
    s.answer (.increment key) = (.ok (m.errors + 1), s.increment key) := by
  simp only [answer, h]

@[simp] theorem answer_increment_of_missing (h : s.find? key = none) :
    s.answer (.increment key) = (.error .loadRejected, s) := by
  simp only [answer, h]

@[simp] theorem answer_remove (s : Shelf) (key : Key) :
    s.answer (.remove key) = (.ok (s.find? key).isSome, s.filter (·.key != key)) := rfl

@[simp] theorem answer_purge (s : Shelf) (now : Instant) :
    s.answer (.purge now) =
      (.ok (s.messages.countP (·.isExpired now)), s.filter fun m => !m.isExpired now) := rfl

end Answers

end Shelf

end ReadOnce
