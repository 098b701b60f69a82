import ReadOnce.Store.Table

/-!
# Tables in files

A file may hold a table that was written before the current layout: without the column that tells
who encrypted the payload, or with deadlines in seconds. `Database.migrate` brings it to the
current layout, in which nothing more is changed. Deadlines in seconds become nanoseconds; those
that leave 64 bits at the upper end become the end. A row that would be too big with its deadline in
nanoseconds stands against it.

A file also tells whether changes go to a log before they go to the file, and whether its deadlines
are indexed.
-/

namespace ReadOnce

namespace Table

/-- The cells of a message in the layout without the flag. -/
structure OldRow where
  id : Cell
  exp : Cell
  data : Cell
  pinHash : Cell
  errors : Cell
  deriving DecidableEq

/-- A row with the flag, which is not set. -/
def OldRow.flagged (row : OldRow) : Row :=
  { id := row.id, exp := row.exp, data := row.data, pinHash := row.pinHash, errors := row.errors
    clientEncrypted := .integer 0 }

/-- A row as the columns of a table keep it. -/
def Row.declared (row : Row) : Row where
  id := row.id.asText
  exp := row.exp.asInteger
  data := row.data
  pinHash := row.pinHash.asText
  errors := row.errors.asInteger
  clientEncrypted := row.clientEncrypted.asInteger

/-- A row without the flag as the columns of a table keep it. -/
def OldRow.declared (row : OldRow) : OldRow where
  id := row.id.asText
  exp := row.exp.asInteger
  data := row.data
  pinHash := row.pinHash.asText
  errors := row.errors.asInteger

/-- The last deadline in seconds that is converted and not cut. -/
def lastSecond : Int64 := 9223372036

/-- A deadline in seconds, in nanoseconds. -/
def nanosOfSeconds (exp : Cell) : Cell :=
  if exp.exceeds lastSecond then .integer Int64.maxValue
  else (exp.times 1000000000).asInteger

end Table

inductive Layout where
  | absent
  | old (rows : List Table.OldRow)
  | current (rows : List Table.Row)
  deriving DecidableEq

/-- The rows of a layout, with the flag. -/
def Layout.rows : Layout → List Table.Row
  | absent => []
  | old rows => rows.map Table.OldRow.flagged
  | current rows => rows

/-- What a file of a table holds. -/
structure Database where
  /-- The version of the layout; deadlines are in seconds below `Table.currentVersion`. -/
  version : Int
  layout : Layout
  isLogged : Bool
  isIndexed : Bool
  deriving DecidableEq

namespace Database

/-- What a new file holds. -/
def new : Database :=
  ⟨0, .absent, false, false⟩

/-- What a file holds that keeps a table. -/
def ofTable (isLogged : Bool) (t : Table) : Database :=
  ⟨t.version, .current t.rows, isLogged, true⟩

/-- The table of a file in the current layout. -/
def migrate (d : Database) : Table :=
  if Table.currentVersion ≤ d.version then ⟨d.version, d.layout.rows, false⟩
  else
    { version := Table.currentVersion
      rows := d.layout.rows.map fun row => { row with exp := Table.nanosOfSeconds row.exp }
      isReadOnly := false }

/-- Whether a row becomes too big on the way to the current layout. -/
def overflows (d : Database) : Bool :=
  d.version < Table.currentVersion && d.migrate.rows.any Table.Row.isTooBig

theorem overflows_of_le {d : Database} (h : Table.currentVersion ≤ d.version) :
    d.overflows = false := by
  simp [overflows, Int.not_lt.2 h]

/-- Whether nothing is left to do to reach the current layout. -/
def isCurrent (d : Database) : Bool :=
  match d.layout with
  | .current _ => Table.currentVersion ≤ d.version && d.isIndexed
  | _ => false

@[simp] theorem isReadOnly_migrate (d : Database) : d.migrate.isReadOnly = false := by
  unfold migrate
  split <;> rfl

theorem migrate_ofTable {isLogged : Bool} {t : Table} (h : Table.currentVersion ≤ t.version)
    (hwritable : t.isReadOnly = false) : (ofTable isLogged t).migrate = t := by
  unfold migrate ofTable
  rw [if_pos h, ← hwritable]
  rfl

end Database

end ReadOnce
