import ReadOnce.Store.Contents

/-!
# Stores with faults

For trials, a store may be told to fail its next call of a kind, once. A call that fails so does not
reach the store.
-/

namespace ReadOnce

/-- A call that is to fail, and how. -/
inductive Fault where
  | save (e : StoreError)
  | load (e : StoreError)
  | increment (e : StoreError)
  /-- The next message is not dropped; without an error, because there is none. -/
  | remove (e : Option StoreError)
  | purge (e : StoreError)
  | close (e : StoreError)
  deriving DecidableEq

namespace Fault

/-- The reply that a fault gives to a request, if it is meant for it. -/
def reply? : Fault → (r : Request) → Option r.Reply
  | save e, .save _ => some (.error e)
  | load e, .load _ => some (.error e)
  | increment e, .increment _ => some (.error e)
  | remove none, .remove _ => some (.ok false)
  | remove (some e), .remove _ => some (.error e)
  | purge e, .purge _ => some (.error e)
  | _, _ => none

/-- The error that a fault gives to closing, if it is meant for it. -/
def close? : Fault → Option StoreError
  | close e => some e
  | _ => none

/-- The first answer that faults give, and the faults without the one that gave it. -/
def take? {α : Type} (meant : Fault → Option α) : List Fault → Option (α × List Fault)
  | [] => none
  | f :: fs =>
    match meant f with
    | some a => some (a, fs)
    | none => (take? meant fs).map fun (a, fs) => (a, f :: fs)

end Fault

/-- A store with the faults that wait for its calls, oldest first. -/
structure FaultyStore where
  store : Store
  faults : List Fault

namespace FaultyStore

/-- What is answered, and the store from then on. -/
def answer (s : FaultyStore) (r : Request) : r.Reply × FaultyStore :=
  match Fault.take? (fun f => f.reply? r) s.faults with
  | some (reply, faults) => (reply, { s with faults })
  | none => let (reply, store) := s.store.answer r; (reply, { s with store })

/-- Closes the store, unless that is to fail. -/
def close (s : FaultyStore) : Except StoreError Unit × FaultyStore :=
  match Fault.take? Fault.close? s.faults with
  | some (e, faults) => (.error e, { s with faults })
  | none => (.ok (), { s with store := s.store.close })

end FaultyStore

end ReadOnce
