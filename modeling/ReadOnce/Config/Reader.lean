import ReadOnce.Config.Basic
import ReadOnce.Number.Shortest
import ReadOnce.Toml.Parser

/-!
# Configuration files

Reading a configuration from a TOML document. What the document does not name keeps its default,
and what a configuration does not know is passed over. Values are read in the order of the
document, and the first one of the wrong kind fails. A part with names may also be given as an
array in the order of its names.
-/

namespace ReadOnce.Config

open ReadOnce.Toml

/-- Why a document is no configuration. -/
inductive ReadError where
  | malformed
  /-- A value is of another kind than expected. -/
  | mistyped (found expected : String)
  /-- A whole number is beyond what is expected. -/
  | outOfRange (n : Int) (expected : String)
  | unknownEngine (name : String)
  /-- An engine is given by something that is no name. -/
  | notEngine
  deriving DecidableEq, Repr

/-- The wording of a read error, where it is settled. -/
def ReadError.message? : ReadError → Option String
  | malformed => none
  | mistyped found expected => some s!"invalid type: {found}, expected {expected}"
  | outOfRange n expected => some s!"invalid value: integer `{n}`, expected {expected}"
  | unknownEngine name =>
    let names := ", ".intercalate (Engine.all.map fun e => s!"`{e.name}`")
    some s!"unknown variant `{name}`, expected one of {names}"
  | notEngine => none

/-- A value as an error names it. -/
def found : Node → String
  | .string s => s!"string {Text.quoted s}"
  | .integer n => s!"integer `{n}`"
  | .float x => s!"floating point `{Binary64.shortestText x}`"
  | .boolean b => s!"boolean `{b}`"
  | .array _ | .tables _ => "sequence"
  | .date | .table _ _ => "map"

def readText (expected : String) : Node → Except ReadError String
  | .string s => .ok s
  | v => .error (.mistyped (found v) expected)

def readBool : Node → Except ReadError Bool
  | .boolean b => .ok b
  | v => .error (.mistyped (found v) "a boolean")

/-- Reads a whole number below a bound. -/
def readNat (expected : String) (bound : Nat) : Node → Except ReadError Nat
  | .integer n => if 0 ≤ n ∧ n < bound then .ok n.toNat else .error (.outOfRange n expected)
  | v => .error (.mistyped (found v) expected)

/-- Reads a whole number of 64 bits that counts things in memory. -/
def readSize : Node → Except ReadError Nat :=
  readNat "usize" UInt64.size

/-- Reads a whole number of 64 bits. -/
def readLong : Node → Except ReadError Nat :=
  readNat "u64" UInt64.size

/-- Reads a whole number of 32 bits. -/
def readWord (v : Node) : Except ReadError UInt32 :=
  (readNat "u32" UInt32.size v).map UInt32.ofNat

def readEngineName (s : String) : Except ReadError Engine :=
  match Engine.ofName? s with
  | some e => .ok e
  | none => .error (.unknownEngine s)

/-- Reads an engine: its name, or a table with its name as the only key of something empty. -/
def readEngine : Node → Except ReadError Engine
  | .string s => readEngineName s
  | .table _ [(s, v)] => do
    let e ← readEngineName s
    match v with
    | .table _ [] | .array [] => .ok e
    | _ => .error .notEngine
  | _ => .error .notEngine

/-- A named part of a configuration, and how it is read into one. -/
structure Field (α : Type) where
  name : String
  read : α → Node → Except ReadError α

/-- Reads named parts over their defaults: from a table by name, or from an array in order. A date
has none of them. -/
def readFields {α : Type} (what : String) (fields : List (Field α)) (default : α) :
    Node → Except ReadError α
  | .table _ entries =>
    entries.foldlM (fun a (name, v) =>
      match fields.find? (·.name == name) with
      | some f => f.read a v
      | none => .ok a) default
  | .array vs | .tables vs => (fields.zip vs).foldlM (fun a (f, v) => f.read a v) default
  | .date => .ok default
  | v => .error (.mistyped (found v) s!"struct {what}")

def readLimits : Node → Except ReadError LimitSettings :=
  readFields "LimitsConfig"
    [⟨"max_duration_secs", fun l v => do .ok { l with maxDurationSecs := ← readLong v }⟩,
      ⟨"max_pin_attempts", fun l v => do .ok { l with maxPinAttempts := ← readWord v }⟩,
      ⟨"max_file_size", fun l v => do .ok { l with maxFileSize := ← readSize v }⟩]
    .default

def readStorage : Node → Except ReadError Storage :=
  readFields "StorageConfig"
    [⟨"engine", fun s v => do .ok { s with engine := ← readEngine v }⟩,
      ⟨"path", fun s v => do .ok { s with path := some (← readText "path string" v) }⟩,
      ⟨"in_memory", fun s v => do .ok { s with inMemory := ← readBool v }⟩,
      ⟨"cleanup_interval_secs", fun s v => do .ok { s with cleanupIntervalSecs := ← readLong v }⟩]
    .default

def readCost : Node → Except ReadError Argon2.Cost :=
  readFields "HasherConfig"
    [⟨"m_cost", fun c v => do .ok { c with memory := ← readWord v }⟩,
      ⟨"t_cost", fun c v => do .ok { c with time := ← readWord v }⟩,
      ⟨"p_cost", fun c v => do .ok { c with lanes := ← readWord v }⟩]
    .default

def readLog : Node → Except ReadError Log :=
  readFields "LogConfig"
    [⟨"level", fun l v => do .ok { l with level := ← readText "a string" v }⟩,
      ⟨"json", fun l v => do .ok { l with json := ← readBool v }⟩]
    .default

def readConfig : Node → Except ReadError Config :=
  readFields "BurnboxConfig"
    [⟨"sign_key", fun c v => do .ok { c with signKey := ← readText "a string" v }⟩,
      ⟨"pin_size", fun c v => do .ok { c with pinSize := ← readSize v }⟩,
      ⟨"limits", fun c v => do .ok { c with limits := ← readLimits v }⟩,
      ⟨"storage", fun c v => do .ok { c with storage := ← readStorage v }⟩,
      ⟨"hasher", fun c v => do .ok { c with hasher := ← readCost v }⟩,
      ⟨"log", fun c v => do .ok { c with log := ← readLog v }⟩]
    Config.default

/-- The configuration of a document, unchecked. -/
def ofToml (s : String) : Except ReadError Config :=
  match Toml.parse? s with
  | some t => readConfig t.node
  | none => .error .malformed

/-- Why there is no configuration. -/
inductive LoadError where
  /-- The file cannot be read as text. -/
  | unreadable (path why : String)
  | read (e : ReadError)
  | fault (f : Fault)

/-- The configuration of a document, checked. -/
def ofTomlChecked (s : String) : Except LoadError Config :=
  match ofToml s with
  | .error e => .error (.read e)
  | .ok c =>
    match c.validate with
    | .ok () => .ok c
    | .error f => .error (.fault f)

/-- The configuration of a file with some content, or of a missing one. -/
def ofFile (path : String) (content : Option Bytes) : Except LoadError Config :=
  match content with
  | none => .error (.unreadable path "No such file or directory (os error 2)")
  | some b =>
    match Text.ofUtf8? b with
    | none => .error (.unreadable path "stream did not contain valid UTF-8")
    | some s => ofTomlChecked s

/-- What stands before the wording of an error in a document at a path. -/
def invalidContext (path : String) : String :=
  s!"invalid config {path}"

/-- The wording of an error in a file at a path, where it is settled. -/
def LoadError.message? (path : String) : LoadError → Option String
  | unreadable path why => some s!"failed to read config {path}: {why}"
  | read e => e.message?
  | fault f => some s!"{invalidContext path}: {f.message}"

end ReadOnce.Config
