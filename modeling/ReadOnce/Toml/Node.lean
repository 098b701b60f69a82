/-!
# Values of a TOML document

A document is a table of values and further tables, in the order in which they are first written. A
table may be defined once only: by its header, by the dotted keys that name it, or between braces.
Each table remembers how it came to be, since that decides what may still be added to it.
-/

namespace ReadOnce.Toml

/-- How a table came to be. -/
structure Origin where
  /-- It has only been named on the way to something in it. -/
  implicit : Bool
  dotted : Bool
  braced : Bool
  deriving DecidableEq, Repr

inductive Node where
  | string (s : String)
  | integer (n : Int)
  | float (x : Float)
  | boolean (b : Bool)
  | date
  | array (items : List Node)
  | tables (items : List Node)
  | table (origin : Origin) (entries : List (String × Node))

/-- The parts of a table. -/
structure Section where
  origin : Origin
  entries : List (String × Node)

namespace Section

/-- A table that has a header of its own, or is the document. -/
def plain : Section :=
  ⟨⟨false, false, false⟩, []⟩

/-- A table between braces. -/
def braced : Section :=
  ⟨⟨false, false, true⟩, []⟩

/-- A table as a value. -/
def node (t : Section) : Node :=
  .table t.origin t.entries

def get? (t : Section) (key : String) : Option Node :=
  (t.entries.find? (·.1 == key)).map Prod.snd

/-- A table with a value under a key: in place, or at the end if the key is new. -/
def set (t : Section) (key : String) (v : Node) : Section :=
  if (t.get? key).isSome then
    { t with entries := t.entries.map fun e => if e.1 = key then (key, v) else e }
  else { t with entries := t.entries ++ [(key, v)] }

def erase (t : Section) (key : String) : Section :=
  { t with entries := t.entries.filter (·.1 != key) }

/-- Changes the table at the end of a path and answers something about it. Tables that are missing
on the way are made; `dotted` tells whether the path comes from a dotted key, which must not enter a
table that is defined elsewhere. Of tables in double brackets the last one is entered. -/
def descend {α : Type} (dotted : Bool) (change : Section → Option (α × Section)) :
    List String → Section → Option (α × Section)
  | [], t => change t
  | key :: path, t =>
    match t.get? key with
    | none => do
      let (a, inner) ← descend dotted change path ⟨⟨true, dotted, t.origin.braced⟩, []⟩
      some (a, t.set key inner.node)
    | some (.table origin entries) =>
      if origin.braced != t.origin.braced || (dotted && !origin.implicit) then none
      else do
        let (a, inner) ← descend dotted change path ⟨origin, entries⟩
        some (a, t.set key inner.node)
    | some (.tables items) =>
      match items.getLast? with
      | some (.table origin entries) => do
        let (a, inner) ← descend dotted change path ⟨origin, entries⟩
        some (a, t.set key (.tables (items.dropLast ++ [inner.node])))
      | _ => none
    | some _ => none

/-- A table with a new value under a dotted key. -/
def put? (t : Section) (path : List String) (key : String) (v : Node) : Option Section :=
  (descend true (fun t =>
    if t.origin.dotted == path.isEmpty || (t.get? key).isSome then none
    else some ((), t.set key v)) path t).map Prod.snd

end Section

/-- A document that is being read: what is complete, and the table whose header came last. -/
structure Draft where
  root : Section
  /-- The names of the current table; none before the first header. -/
  path : List String
  /-- Whether its header is in double brackets. -/
  repeated : Bool
  current : Section

namespace Draft

/-- The document before its first line. -/
def empty : Draft :=
  ⟨.plain, [], false, .plain⟩

/-- The document with the current table in its place. -/
def finish? (d : Draft) : Option Section :=
  match d.path.getLast? with
  | none => some d.current
  | some key =>
    (d.root.descend false (fun t =>
      if d.repeated then
        match t.get? key with
        | some (.tables items) => some ((), t.set key (.tables (items ++ [d.current.node])))
        | _ => none
      else some ((), t.set key d.current.node)) d.path.dropLast).map Prod.snd

/-- Begins the table of a header. A table that has only been named so far keeps what is in it. -/
def openTable? (d : Draft) (path : List String) : Option Draft := do
  let root ← d.finish?
  let key ← path.getLast?
  let (entries, root) ← root.descend false (fun t =>
    match t.get? key with
    | none => some ([], t)
    | some (.table origin entries) =>
      if origin.implicit && !origin.dotted && !origin.braced then some (entries, t.erase key)
      else none
    | some _ => none) path.dropLast
  some ⟨root, path, false, { Section.plain with entries }⟩

/-- Begins one more table of a header in double brackets. -/
def openTables? (d : Draft) (path : List String) : Option Draft := do
  let root ← d.finish?
  let key ← path.getLast?
  let (_, root) ← root.descend false (fun t =>
    match t.get? key with
    | none => some ((), t.set key (.tables []))
    | some (.tables _) => some ((), t)
    | some _ => none) path.dropLast
  some ⟨root, path, true, .plain⟩

/-- Adds a value under a dotted key to the current table. -/
def put? (d : Draft) (path : List String) (v : Node) : Option Draft := do
  let key ← path.getLast?
  let current ← d.current.put? path.dropLast key v
  some { d with current }

end Draft

end ReadOnce.Toml
