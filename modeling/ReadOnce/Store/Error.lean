import ReadOnce.Text.Quoted

/-!
# Failures of a store

Why a store does not do what it is asked: a message that cannot be saved, a key under which there is
no message, a failure of what the messages are kept in, and a store that has been closed.
-/

namespace ReadOnce

/-- Why a store refuses. -/
inductive StoreError where
  | saveRejected (why : String)
  | loadRejected
  /-- What the messages are kept in has failed. -/
  | backend (why : String)
  | closed
  deriving DecidableEq, Repr

namespace StoreError

def message : StoreError → String
  | saveRejected why => s!"can't save message: {why}"
  | loadRejected => "message expired or deleted"
  | backend why => s!"storage backend error: {why}"
  | closed => "store closed"

def debug : StoreError → String
  | saveRejected why => s!"SaveRejected({Text.quoted why})"
  | loadRejected => "LoadRejected"
  | backend why => s!"Backend({Text.quoted why})"
  | closed => "Closed"

end StoreError

end ReadOnce
