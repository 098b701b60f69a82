import ReadOnce.Toml.Number

/-!
# TOML documents

Reading a document line by line. `parse?` gives the table that a document is, or nothing if it is
none. Values may be nested less than 80 deep, and a dotted key has less than 80 parts.
-/

namespace ReadOnce.Toml

/-- The nesting at which a document is refused. -/
def nestingLimit : Nat := 80

/-- Whether a character may stand in a key without quotes. -/
def isBare (c : Char) : Bool :=
  ('a' ≤ c && c ≤ 'z') || ('A' ≤ c && c ≤ 'Z') || ('0' ≤ c && c ≤ '9') || c == '_' || c == '-'

/-- One part of a dotted key. -/
def keyPart (s : List Char) : Option (String × List Char) :=
  match s with
  | '"' :: _ | '\'' :: _ => lineText s
  | _ =>
    let cs := s.takeWhile isBare
    if cs.isEmpty then none else some (String.ofList cs, s.drop cs.length)

/-- Parts of a dotted key, with blanks around each; the first argument bounds their number. -/
def keyParts : Nat → Reader (List String)
  | 0, _ => none
  | n + 1, s => do
    let (part, s) ← keyPart (skipBlank s)
    match skipBlank s with
    | '.' :: s =>
      let (parts, s) ← keyParts n s
      some (part :: parts, s)
    | s => some ([part], s)

def key : Reader (List String) :=
  keyParts (nestingLimit - 1)

mutual

/-- A text without the blanks, line ends and comments at its front. -/
def skipGap : List Char → List Char
  | '\r' :: '\n' :: rest => skipGap rest
  | c :: rest =>
    if c = ' ' ∨ c = '\t' ∨ c = '\n' then skipGap rest
    else if c = '#' then skipComment rest
    else c :: rest
  | [] => []

/-- A text without the rest of a comment and what may follow it; nothing if the comment does not
end. -/
def skipComment : List Char → List Char
  | '\r' :: '\n' :: rest => skipGap rest
  | c :: rest => if c = '\n' then skipGap rest else if isPlain c then skipComment rest else []
  | [] => []

end

/-- The rest of an array, given how its items are read; the first argument bounds their number. -/
def arrayItems (item : Reader Node) : Nat → Reader (List Node)
  | 0, _ => none
  | n + 1, s =>
    match skipGap s with
    | ']' :: s => some ([], s)
    | s => do
      let (v, s) ← item s
      match skipGap s with
      | ']' :: s => some ([v], s)
      | ',' :: s =>
        let (vs, s) ← arrayItems item n s
        some (v :: vs, s)
      | _ => none

/-- A key and a value with an equals sign between them. -/
def pair (item : Reader Node) (s : List Char) : Option ((List String × Node) × List Char) := do
  let (path, s) ← key s
  let (_, s) ← char '=' s
  let (v, s) ← item (skipBlank s)
  some ((path, v), skipBlank s)

/-- The rest of a table between braces that has a pair to come; the first argument bounds their
number. -/
def bracedPairs (item : Reader Node) : Nat → Section → Reader Section
  | 0, _, _ => none
  | n + 1, t, s => do
    let ((path, v), s) ← pair item s
    let key ← path.getLast?
    let t ← t.put? path.dropLast key v
    match s with
    | '}' :: s => some (t, s)
    | ',' :: s => bracedPairs item n t s
    | _ => none

/-- The rest of a table between braces. -/
def braces (item : Reader Node) (s : List Char) : Option (Section × List Char) :=
  match skipBlank s with
  | '}' :: s => some (.braced, s)
  | s => bracedPairs item s.length .braced s

/-- A value; the first argument bounds the nesting. -/
def value : Nat → Reader Node
  | _, 't' :: 'r' :: 'u' :: 'e' :: rest => some (.boolean true, rest)
  | _, 'f' :: 'a' :: 'l' :: 's' :: 'e' :: rest => some (.boolean false, rest)
  | 0, '[' :: _ => none
  | n + 1, '[' :: rest =>
    (arrayItems (value n) (rest.length + 1) rest).map fun (vs, rest) => (.array vs, rest)
  | 0, '\x7b' :: _ => none
  | n + 1, '\x7b' :: rest => (braces (value n) rest).map fun (t, rest) => (t.node, rest)
  | _, s =>
    match s with
    | '"' :: _ | '\'' :: _ => (text s).map fun (t, rest) => (.string t, rest)
    | _ => number s

/-- What follows the end of a line, after blanks and a comment. -/
def endLine? (s : List Char) : Option (List Char) :=
  let s := match skipBlank s with
    | '#' :: s => s.dropWhile isPlain
    | s => s
  if s.isEmpty then some [] else lineEnd? s

/-- Reads one line that is not blank. -/
def line (d : Draft) : List Char → Option (Draft × List Char)
  | '[' :: '[' :: s => do
    let (path, s) ← key s
    let (_, s) ← char ']' s
    let (_, s) ← char ']' s
    let d ← d.openTables? path
    some (d, s)
  | '[' :: s => do
    let (path, s) ← key s
    let (_, s) ← char ']' s
    let d ← d.openTable? path
    some (d, s)
  | s => do
    let ((path, v), s) ← pair (value (nestingLimit - 1)) s
    let d ← d.put? path v
    some (d, s)

/-- Reads the lines of a document; the first argument bounds their number. -/
def lines : Nat → Draft → List Char → Option Draft
  | 0, _, _ => none
  | n + 1, d, s =>
    match skipBlank s with
    | [] => some d
    | c :: rest =>
      if c = '#' ∨ c = '\n' ∨ c = '\r' then do
        let s ← endLine? (c :: rest)
        lines n d s
      else do
        let (d, s) ← line d (c :: rest)
        let s ← endLine? s
        lines n d s

/-- The table that a document is. A byte order mark may precede it. -/
def parse? (s : String) : Option Section := do
  let cs := match s.toList with
    | '\ufeff' :: cs => cs
    | cs => cs
  let d ← lines (cs.length + 1) .empty cs
  d.finish?

end ReadOnce.Toml
