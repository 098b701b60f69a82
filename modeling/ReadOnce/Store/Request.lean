import ReadOnce.Message.Basic
import ReadOnce.Store.Error

/-!
# Requests to a store

The five things that a store of messages is asked, each with the kind of its answer. A store is a
function that takes a request and what is kept, and gives an answer and what is kept from then on.
-/

namespace ReadOnce

/-- What a store is asked. -/
inductive Request where
  | save (m : Message)
  | load (key : Key)
  | increment (key : Key)
  | remove (key : Key)
  | purge (now : Instant)

namespace Request

/-- What a request is answered with: the message under a key, the number of wrong pins counted from
now on, whether there was a message to drop, or how many messages were dropped. -/
abbrev Answer : Request → Type
  | save _ => Unit
  | load _ => Message
  | increment _ => UInt32
  | remove _ => Bool
  | purge _ => Nat

/-- An answer, or why there is none. -/
abbrev Reply (r : Request) : Type :=
  Except StoreError r.Answer

/-- Whether a request may change what is kept. -/
def isChange : Request → Bool
  | load _ => false
  | _ => true

/-- How many bytes the texts and byte strings of a request have, the key first. -/
def valueSizes : Request → List Nat
  | save m => [m.key.text.utf8ByteSize, m.data.length, m.pinHash.utf8ByteSize]
  | load key | increment key | remove key => [key.text.utf8ByteSize]
  | purge _ => []

end Request

end ReadOnce
