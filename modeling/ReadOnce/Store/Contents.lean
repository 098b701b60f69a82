import ReadOnce.Store.Database
import ReadOnce.Store.Shelf
import ReadOnce.Store.Trees

/-!
# What a store keeps

The three ways to keep messages behind one interface, and a store of them, which answers until it is
closed.
-/

namespace ReadOnce

/-- Messages in one of three forms. -/
inductive Contents where
  | shelf (s : Shelf)
  | trees (t : Trees)
  | table (t : Table)

namespace Contents

/-- What is answered, and what is kept from then on. -/
def answer (c : Contents) (r : Request) : r.Reply × Contents :=
  match c with
  | shelf s => let (reply, s) := s.answer r; (reply, shelf s)
  | trees t => let (reply, t) := t.answer r; (reply, trees t)
  | table t => let (reply, t) := t.answer r; (reply, table t)

@[simp] theorem answer_shelf (s : Shelf) (r : Request) :
    (shelf s).answer r = ((s.answer r).1, shelf (s.answer r).2) := rfl

@[simp] theorem answer_trees (t : Trees) (r : Request) :
    (trees t).answer r = ((t.answer r).1, trees (t.answer r).2) := rfl

@[simp] theorem answer_table (t : Table) (r : Request) :
    (table t).answer r = ((t.answer r).1, table (t.answer r).2) := rfl

/-- The number of messages, where it is known without looking for them. -/
def size? : Contents → Option Nat
  | shelf s => some s.messages.length
  | trees t => some t.messages.entries.length
  | table _ => none

end Contents

structure Store where
  contents : Contents
  isClosed : Bool

namespace Store

/-- What a store answers, and the store from then on. -/
def answer (s : Store) (r : Request) : r.Reply × Store :=
  if s.isClosed then (.error .closed, s)
  else let (reply, contents) := s.contents.answer r; (reply, { s with contents })

@[simp] theorem answer_mk_false (c : Contents) (r : Request) :
    (Store.mk c false).answer r = ((c.answer r).1, ⟨(c.answer r).2, false⟩) := rfl

@[simp] theorem answer_mk_true (c : Contents) (r : Request) :
    (Store.mk c true).answer r = (.error .closed, ⟨c, true⟩) := rfl

/-- A store that answers nothing any more. -/
def close (s : Store) : Store :=
  { s with isClosed := true }

@[simp] theorem contents_close (s : Store) : s.close.contents = s.contents := rfl

@[simp] theorem isClosed_close (s : Store) : s.close.isClosed = true := rfl

end Store

end ReadOnce
