import ReadOnce.Store.Address
import ReadOnce.Store.Contents
import ReadOnce.Store.Disk

/-!
# Media of stores

Where a store keeps its messages: in memory, or at a path of a disk, where the trees take a
directory and a table takes a file. Opening looks at what is there and makes what is missing; a
table needs the directory of its file, the trees make theirs.

The way to the file of a table is followed name by name before it is opened, and two dots take back
a name that leads nowhere; the way to the directory of trees is made as it goes.

A table that is only read is opened if there is nothing to change, and its file stays as it is.
-/

namespace ReadOnce

/-- Where a store keeps its messages. -/
inductive Medium where
  /-- In memory, as they are. -/
  | shelf
  /-- In trees: in memory, or in a directory. -/
  | trees (path : Option String)
  /-- In a table: in memory, or in a file. -/
  | table (address : Option String)
  deriving DecidableEq, Repr

namespace Trees

/-- The failure to open the directory of trees. -/
def noDirectory (why : String) : StoreError :=
  .backend s!"sled: IO error: {why}"

/-- The most bytes in the path of the directory of trees. -/
def maxPath : Nat := 4089

def «open» (path : String) (d : Disk) : Except StoreError (Trees × Disk) :=
  let bytes := Text.utf8 path
  if 0 ∈ bytes then .error (noDirectory "file name contained an unexpected NUL byte")
  else if maxPath < bytes.length then .error (noDirectory Obstacle.longName.message)
  else match d.makeDirectories (Path.steps bytes) with
    | .error o => .error (noDirectory o.message)
    | .ok d =>
      match d.at? (Path.ofText path) with
      | some (.trees t) => .ok (t, d)
      | _ => .ok (.empty, d.put (Path.ofText path) (.trees .empty))

end Trees

namespace Table

/-- The most bytes in the path of the file of a table. -/
def maxPath : Nat := 504

/-- The most bytes in the name of the file of a table, which leaves room for what is added to it in
the names of other files. -/
def maxName : Nat := 247

/-- Where a name leads on the way to the file of a table, if nothing is in the way. -/
def step? (d : Disk) (p : Path) (name : Bytes) : Option Path :=
  let next := p.step name
  if name = Path.dots then some next
  else if maxPath + 7 < next.size then none
  else (d.find next).toOption.map fun _ => next

/-- The path of the file of a table, if it can have one. -/
def path? (d : Disk) (written : Bytes) : Option Path := do
  let p ← (Path.steps written).foldlM (step? d) []
  if p = [] ∨ maxPath < p.size then none else some p

/-- The failure to open the file at an address. -/
def noFile (address : String) : StoreError :=
  failure s!"unable to open database file: {address}"

/-- The failure to read or write a file. -/
def noAccess : StoreError :=
  failure "disk I/O error"

/-- The failure to open what goes with a file. -/
def noCompanion : StoreError :=
  failure "unable to open database file"

/-- What the file at a path holds: a file is made if it is missing and may be made, and one without
content holds no table yet. -/
def file (a : Address) (address : String) (p : Path) (d : Disk) : Except StoreError Database :=
  match d.find p with
  | .ok none =>
    if a.access = .create ∧ d.isDirectory p.dropLast then .ok .new else .error (noFile address)
  | .ok (some (.database found)) => .ok found
  | .ok (some (.file b)) =>
    if b.length ≤ 1 then .ok .new else .error (failure "file is not a database")
  | .ok (some _) => .error (if a.access = .read then noAccess else noFile address)
  | .error _ => .error (noFile address)

/-- Whether the file at a path has permissions for a new file to take. -/
def hasPermissions (d : Disk) (path : String) : Bool :=
  path ≠ "" && (d.at? (Path.ofText path)).isSome

/-- Opens the table at an address. Unless it is only read, it is brought to the current layout, and
changes are logged ahead if they can be; if it is only read, neither may be left to do. A log that
is there must be usable, except that it is not looked at if the file is promised not to change. -/
def «open» (address : String) (d : Disk) : Except StoreError (Table × Disk) := do
  let a ← (Address.ofText address).mapError fun e => failure e.message
  if a.inMemory then
    if a.isReadOnly then .error (failure readOnly) else .ok (Database.new.migrate, d)
  else match path? d a.file with
    | none => .error (noFile address)
    | some p =>
      if ¬ a.permissionsOf.all (hasPermissions d) then .error noAccess
      else
        let found ← file a address p d
        let isLong := p.getLast?.any fun name => maxName < name.length
        if found.isLogged ∧ ¬ a.isImmutable ∧ (¬ a.canLog ∨ isLong) then .error noCompanion
        else if a.isReadOnly then
          if found.isCurrent ∧ (a.isImmutable ∨ found.isLogged = a.canLog) then
            .ok ({ found.migrate with isReadOnly := true }, d)
          else .error (failure readOnly)
        else if isLong then .error noCompanion
        else if found.overflows then .error (failure tooBig)
        else .ok (found.migrate, d.put p (.database (.ofTable a.canLog found.migrate)))

/-- A disk on which the table at an address is kept. -/
def keep (address : String) (t : Table) (d : Disk) : Disk :=
  match Address.ofText address with
  | .ok a =>
    if a.inMemory || a.isReadOnly then d
    else d.put (Path.ofBytes a.file) (.database (.ofTable a.canLog t))
  | .error _ => d

end Table

namespace Medium

def «open» (m : Medium) (d : Disk) : Except StoreError (Contents × Disk) :=
  match m with
  | shelf => .ok (.shelf .empty, d)
  | trees none => .ok (.trees .empty, d)
  | trees (some path) => do let (t, d) ← Trees.open path d; .ok (.trees t, d)
  | table none => .ok (.table Database.new.migrate, d)
  | table (some address) => do let (t, d) ← Table.open address d; .ok (.table t, d)

/-- A disk on which a medium keeps some contents. -/
def keep (m : Medium) (c : Contents) (d : Disk) : Disk :=
  match m, c with
  | trees (some path), .trees t => d.put (Path.ofText path) (.trees t)
  | table (some address), .table t => Table.keep address t d
  | _, _ => d

end Medium

end ReadOnce
