import ReadOnce.Message.Codec
import ReadOnce.Store.Request
import ReadOnce.Store.Tree

/-!
# Messages in two trees

One tree maps the key of a message to its bytes. The other is an index of deadlines: its keys are
the deadline in milliseconds, most significant byte first, followed by the key of the message, and
its values are empty. The index is in the order of deadlines, so a purge looks at no more than the
messages that may have to go. Deadlines before the epoch are indexed as the epoch.

Each change to both trees happens at once. A purge is one change for each index entry that it
visits, and stops at the first message that cannot be read.
-/

namespace ReadOnce

/-- Messages and the index of their deadlines. -/
structure Trees where
  /-- From the key of a message to its bytes. -/
  messages : Tree
  /-- The deadlines, each followed by the key of its message. -/
  expiry : Tree

namespace Trees

def empty : Trees :=
  ⟨.empty, .empty⟩

/-- The number of bytes that a deadline takes in the index. -/
def stampSize : Nat := 8

/-- The milliseconds by which an instant is indexed. -/
def stamp (t : Instant) : Nat :=
  t.unixMillis.toNat

/-- The index key of a message: its deadline, then its key. -/
def indexKey (t : Instant) (key : Bytes) : Bytes :=
  Bytes.ofNatBE stampSize (stamp t) ++ key

/-- The bound below which the index is visited by a purge at an instant. -/
def purgeBound (now : Instant) : Bytes :=
  Bytes.ofNatBE stampSize (stamp now + 1)

/-- The failure that unreadable bytes cause. -/
def unreadable (e : Message.DecodeError) : StoreError :=
  .backend s!"codec: {e.message}"

def save (t : Trees) (m : Message) : Except StoreError Unit × Trees :=
  let key := Text.utf8 m.key.text
  match t.messages.get? key with
  | some _ => (.error (.saveRejected s!"duplicate key {m.key.text}"), t)
  | none =>
    (.ok (), ⟨t.messages.insert key m.encode, t.expiry.insert (indexKey m.expiresAt key) []⟩)

def load (t : Trees) (key : Key) : Except StoreError Message :=
  match t.messages.get? (Text.utf8 key.text) with
  | none => .error .loadRejected
  | some b =>
    match Message.decode b with
    | .ok m => .ok m
    | .error e => .error (unreadable e)

def increment (t : Trees) (key : Key) : Except StoreError UInt32 × Trees :=
  match t.load key with
  | .error e => (.error e, t)
  | .ok m =>
    let m := { m with errors := m.errors + 1 }
    (.ok m.errors, { t with messages := t.messages.insert (Text.utf8 key.text) m.encode })

/-- Drops a message, and its index entry if its deadline can be read. -/
def remove (t : Trees) (key : Key) : Bool × Trees :=
  let key := Text.utf8 key.text
  match t.messages.get? key with
  | none => (false, t)
  | some b =>
    let expiry := match Message.decode b with
      | .ok m => t.expiry.erase (indexKey m.expiresAt key)
      | .error _ => t.expiry
    (true, ⟨t.messages.erase key, expiry⟩)

/-- What a purge does at an index entry, and whether it drops a message: an entry that names no
message is dropped, an entry of a message that has reached its deadline is dropped together with it,
and any other is left. -/
def purgeEntry (t : Trees) (now : Instant) (entry : Bytes) : Except StoreError Bool × Trees :=
  let key := entry.drop stampSize
  match t.messages.get? key with
  | none => (.ok false, { t with expiry := t.expiry.erase entry })
  | some b =>
    match Message.decode b with
    | .error e => (.error (unreadable e), t)
    | .ok m =>
      if m.isExpired now then (.ok true, ⟨t.messages.erase key, t.expiry.erase entry⟩)
      else (.ok false, t)

/-- What a purge does at index entries in turn, with `count` messages dropped before them. -/
def purgeEntries (now : Instant) :
    List Bytes → (count : Nat) → Trees → Except StoreError Nat × Trees
  | [], count, t => (.ok count, t)
  | entry :: entries, count, t =>
    match t.purgeEntry now entry with
    | (.error e, t) => (.error e, t)
    | (.ok dropped, t) => purgeEntries now entries (if dropped then count + 1 else count) t

/-- Drops all messages that have reached their deadline. -/
def purge (t : Trees) (now : Instant) : Except StoreError Nat × Trees :=
  purgeEntries now (t.expiry.keysBelow (purgeBound now)) 0 t

/-- What trees answer, and the trees from then on. -/
def answer (t : Trees) : (r : Request) → r.Reply × Trees
  | .save m => t.save m
  | .load key => (t.load key, t)
  | .increment key => t.increment key
  | .remove key => let (removed, t) := t.remove key; (.ok removed, t)
  | .purge now => t.purge now

section Answers

variable (t : Trees) (m : Message) (key : Key) (now : Instant)

@[simp] theorem answer_save : t.answer (.save m) = t.save m := rfl

@[simp] theorem answer_load : t.answer (.load key) = (t.load key, t) := rfl

@[simp] theorem answer_increment : t.answer (.increment key) = t.increment key := rfl

@[simp] theorem answer_remove :
    t.answer (.remove key) = (.ok (t.remove key).1, (t.remove key).2) := rfl

@[simp] theorem answer_purge : t.answer (.purge now) = t.purge now := rfl

end Answers

end Trees

end ReadOnce
