import ReadOnce.Cell.Basic
import ReadOnce.Store.Request

/-!
# Messages in a table

A message is a row of six cells, and its deadline is kept in nanoseconds since the epoch, in 64
bits. Rows may have been written by others, so that any cell may hold anything: a row whose cells
do not read back is not loaded, but it is still counted on, dropped and purged by the rules that
hold for cells.

No value and no row may have more than a thousand million bytes, and a table that is only read is
not changed. `Table.refusal?` is what stands against a request for such a reason. Otherwise it is
carried out, which is `Table.perform`.
-/

namespace ReadOnce

namespace Table

structure Row where
  id : Cell
  exp : Cell
  data : Cell
  pinHash : Cell
  errors : Cell
  clientEncrypted : Cell
  deriving DecidableEq

def failure (why : String) : StoreError :=
  .backend s!"sqlite: {why}"

structure Column where
  index : Nat
  name : String

/-- The failure of a cell that holds another kind of value than its column is read as. -/
def Column.mistyped (c : Column) (cell : Cell) : StoreError :=
  failure s!"Invalid column type {cell.kind} at index: {c.index}, name: {c.name}"

/-- The failure of a whole number that its column cannot be read as. -/
def Column.outOfRange (c : Column) (n : Int64) : StoreError :=
  failure s!"Integer {n.toInt} out of range at index {c.index}"

def Column.integer (c : Column) : Cell → Except StoreError Int64
  | .integer n => .ok n
  | cell => .error (c.mistyped cell)

def Column.bytes (c : Column) : Cell → Except StoreError Bytes
  | .blob b => .ok b
  | cell => .error (c.mistyped cell)

def Column.text (c : Column) : Cell → Except StoreError String
  | .text s => .ok s
  | cell => .error (c.mistyped cell)

/-- The count of a cell. -/
def Column.count (c : Column) : Cell → Except StoreError UInt32
  | .integer n =>
    if 0 ≤ n.toInt ∧ n.toInt < 4294967296 then .ok (UInt32.ofNat n.toInt.toNat)
    else .error (c.outOfRange n)
  | cell => .error (c.mistyped cell)

/-- The flag of a cell: any whole number but 0. -/
def Column.flag (c : Column) : Cell → Except StoreError Bool
  | .integer n => .ok (n != 0)
  | cell => .error (c.mistyped cell)

/-- The nanoseconds of an instant since the epoch, if they fit in 64 bits. Before the epoch they are
counted back from the end of the second, which has to fit too: there are seconds before the first
one that fits whose leap seconds would. -/
def nanos? (t : Instant) : Option Int64 :=
  if t.secs < -9223372037 then none else Cell.int64? t.unixNanos

/-- The nanoseconds of an instant since the epoch, or the end of 64 bits on its side. -/
def clampedNanos (t : Instant) : Int64 :=
  match nanos? t with
  | some n => n
  | none => if t.secs < 0 then Int64.minValue else Int64.maxValue

/-- The instant at a number of nanoseconds since the epoch. -/
def instantOf (n : Int64) : Instant where
  secs := n.toInt / 1000000000
  nanos := (n.toInt % 1000000000).toNat
  first_le := by have := n.le_toInt; omega
  le_last := by have := n.toInt_lt; omega
  nanos_lt := by omega

/-- The row of a message with a deadline in nanoseconds. -/
def Row.ofMessage (m : Message) (exp : Int64) : Row where
  id := .text m.key.text
  exp := .integer exp
  data := .blob m.data
  pinHash := .text m.pinHash
  errors := .integer (Int64.ofNat m.errors.toNat)
  clientEncrypted := .integer (if m.clientEncrypted then 1 else 0)

/-- The message of a row that was found under a key; the first cell that does not read back
fails. -/
def Row.message (row : Row) (key : Key) : Except StoreError Message := do
  let exp ← (Column.mk 0 "exp").integer row.exp
  let data ← (Column.mk 1 "data").bytes row.data
  let pinHash ← (Column.mk 2 "pin_hash").text row.pinHash
  let errors ← (Column.mk 3 "errors").count row.errors
  let clientEncrypted ← (Column.mk 4 "client_enc").flag row.clientEncrypted
  .ok { key, expiresAt := instantOf exp, data, pinHash, errors, clientEncrypted }

/-- Whether a row is found under a key. -/
def Row.isAt (row : Row) (key : Key) : Bool :=
  row.id == .text key.text

/-- A row that counts one more wrong pin. -/
def Row.increment (row : Row) : Row :=
  { row with errors := (row.errors.plus 1).asInteger }

/-- The most bytes of a value and of a row. -/
def maxSize : Nat := 1000000000

/-- The bytes of a row: its cells, and one that tells how many the tags take. -/
def Row.size (row : Row) : Nat :=
  1 + row.id.size + row.exp.size + row.data.size + row.pinHash.size + row.errors.size +
    row.clientEncrypted.size

def Row.isTooBig (row : Row) : Bool :=
  maxSize < row.size

/-- What is said of too many bytes. -/
def tooBig : String :=
  "string or blob too big"

/-- What is said of a change to what is only read. -/
def readOnly : String :=
  "attempt to write a readonly database"

/-- What is said of a value with so many bytes, if they are too many; from 2³¹ - 1 on they are not
even handed on. -/
def overlong? (bytes : Nat) : Option String :=
  if 2147483647 ≤ bytes then some "Error code 18: String or BLOB exceeds size limit"
  else if maxSize < bytes then some tooBig
  else none

end Table

/-- Rows in the order of their insertion. -/
structure Table where
  version : Int
  rows : List Table.Row
  isReadOnly : Bool
  deriving DecidableEq

namespace Table

/-- The current version of the layout, and the lowest one that is left as it is: deadlines are in
nanoseconds. -/
def currentVersion : Int := 1

def empty : Table :=
  ⟨currentVersion, [], false⟩

def find? (t : Table) (key : Key) : Option Row :=
  t.rows.find? (·.isAt key)

def save (t : Table) (m : Message) : Except StoreError Unit × Table :=
  match nanos? m.expiresAt with
  | none => (.error (.saveRejected s!"expiry {m.expiresAt.display} out of range"), t)
  | some exp =>
    match t.find? m.key with
    | some _ => (.error (.saveRejected "UNIQUE constraint failed: messages.id"), t)
    | none => (.ok (), { t with rows := t.rows ++ [Row.ofMessage m exp] })

def load (t : Table) (key : Key) : Except StoreError Message :=
  match t.find? key with
  | none => .error .loadRejected
  | some row => row.message key

/-- Counts one more wrong pin. The row keeps what was counted even if it does not read back. -/
def increment (t : Table) (key : Key) : Except StoreError UInt32 × Table :=
  match t.find? key with
  | none => (.error .loadRejected, t)
  | some row =>
    ((Column.mk 0 "errors").count row.increment.errors,
      { t with rows := t.rows.map fun row => if row.isAt key then row.increment else row })

def remove (t : Table) (key : Key) : Bool × Table :=
  ((t.find? key).isSome, { t with rows := t.rows.filter fun row => !row.isAt key })

def purge (t : Table) (now : Instant) : Nat × Table :=
  let isDue (row : Row) : Bool := row.exp.atMost (clampedNanos now)
  (t.rows.countP isDue, { t with rows := t.rows.filter fun row => !isDue row })

/-- What a table answers when nothing stands against a request, and the table from then on. -/
def perform (t : Table) : (r : Request) → r.Reply × Table
  | .save m => t.save m
  | .load key => (t.load key, t)
  | .increment key => t.increment key
  | .remove key => let (removed, t) := t.remove key; (.ok removed, t)
  | .purge now => let (count, t) := t.purge now; (.ok count, t)

section Performed

variable (t : Table) (m : Message) (key : Key) (now : Instant)

@[simp] theorem perform_save : t.perform (.save m) = t.save m := rfl

@[simp] theorem perform_load : t.perform (.load key) = (t.load key, t) := rfl

@[simp] theorem perform_increment : t.perform (.increment key) = t.increment key := rfl

@[simp] theorem perform_remove :
    t.perform (.remove key) = (.ok (t.remove key).1, (t.remove key).2) := rfl

@[simp] theorem perform_purge :
    t.perform (.purge now) = (.ok (t.purge now).1, (t.purge now).2) := rfl

end Performed

/-- The row that a request writes under its key, if it writes one. -/
def written? (t : Table) : Request → Option Row
  | .save m =>
    if (t.find? m.key).isSome then none else (nanos? m.expiresAt).map (Row.ofMessage m)
  | .increment key => (t.find? key).map Row.increment
  | _ => none

/-- What stands against a request, if anything does: a value that is too long, in the order in which
they are handed on, that the table is only read, and at last a row that would be too big. -/
def obstacle? (t : Table) (r : Request) : Option String :=
  r.valueSizes.findSome? overlong? <|>
    (if t.isReadOnly ∧ r.isChange then some readOnly else none) <|>
    (if (t.written? r).any Row.isTooBig then some tooBig else none)

/-- The failure of a request that something stands against. A message whose deadline cannot be kept
does not get that far. -/
def refusal? (t : Table) : Request → Option StoreError
  | .save m =>
    if (nanos? m.expiresAt).isNone then none else (t.obstacle? (.save m)).map .saveRejected
  | r => (t.obstacle? r).map failure

/-- What a table answers, and the table from then on. -/
def answer (t : Table) (r : Request) : r.Reply × Table :=
  match t.refusal? r with
  | some e => (.error e, t)
  | none => t.perform r

end Table

end ReadOnce
