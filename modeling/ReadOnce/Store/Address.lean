import ReadOnce.Store.Path
import ReadOnce.Text.Decimal
import ReadOnce.Text.Hexadecimal
import ReadOnce.Text.Utf8

/-!
# Addresses of tables

A table is addressed by a path or, after `file:`, by a URI: a host, which can only be this one, a
path, and options after a question mark. Where options of one name follow each other, each of those
that restrict the access must fit what the one before it left, the last file system counts, and of
any other option the first.

`Address.ofText` reads an address; a text that is no URI is a path as it stands.
-/

namespace ReadOnce

/-- What may be done with the file of a table. -/
inductive Access where
  /-- There is no file: the table is in memory. -/
  | memory
  | read
  | write
  | create
  deriving DecidableEq, Repr

namespace Access

def ofName? : String → Option Access
  | "memory" => some memory
  | "ro" => some read
  | "rw" => some write
  | "rwc" => some create
  | _ => none

/-- Whether an access may be replaced by another: one that does not do more, or any if the table was
to be in memory. -/
def allows : Access → Access → Bool
  | memory, _ | create, _ => true
  | write, next => next ≠ create
  | read, next => next = read ∨ next = memory

end Access

/-- Where a table is, and how it is opened. -/
structure Address where
  /-- The path of the file as it is written. -/
  file : Bytes
  access : Access
  /-- Whether the file is promised not to change. -/
  isImmutable : Bool
  /-- Whether the file is not locked against others. -/
  isUnlocked : Bool
  system : String
  /-- The path of the file whose permissions a new file takes. -/
  permissionsOf : Option String
  deriving DecidableEq

namespace Address

/-- Why a text is no address. -/
inductive Error where
  | zeroByte (place : Nat)
  | host (name : String)
  | sharing (name : String)
  | access (name : String)
  | wider (name : String)
  | system (name : String)
  deriving DecidableEq, Repr

def Error.message : Error → String
  | zeroByte place => s!"nul byte found in provided data at position: {place}"
  | host name => s!"invalid uri authority: {name}"
  | sharing name => s!"no such cache mode: {name}"
  | access name => s!"no such access mode: {name}"
  | wider name => s!"access mode not allowed: {name}"
  | system name => s!"no such vfs: {name}"

/-- The byte that a percent sign and two hexadecimal digits stand for. -/
def escaped? (sign a b : UInt8) : Option UInt8 :=
  if sign = 0x25 then do
    let high ← Text.hexDigit? (Char.ofNat a.toNat)
    let low ← Text.hexDigit? (Char.ofNat b.toNat)
    some (UInt8.ofNat (16 * high + low))
  else none

/-- What a part of a URI stands for. A zero byte that is written so ends it. -/
def unescape : Bytes → Bytes
  | [] => []
  | [a] => [a]
  | [a, b] => [a, b]
  | a :: b :: c :: rest =>
    match escaped? a b c with
    | none => a :: unescape (b :: c :: rest)
    | some byte => if byte = 0 then [] else byte :: unescape rest

/-- The option of a field: its name, which is not blank, and its value. -/
def option? (field : Bytes) : Option (String × String) :=
  let (name, value) := Text.cutAt 0x3D field
  let read (part : Bytes) := Text.ofUtf8Lossy (unescape part)
  if unescape name = [] then none else some (read name, read value)

/-- What follows the host of a URI. -/
def afterHost (uri : Bytes) : Except Error Bytes :=
  match Bytes.strip? [Path.slash, Path.slash] uri with
  | none => .ok uri
  | some rest =>
    let host := Text.ofUtf8Lossy (rest.takeWhile (· ≠ Path.slash))
    if host = "" ∨ host = "localhost" then .ok (rest.dropWhile (· ≠ Path.slash))
    else .error (.host host)

/-- The path and the options of a URI. A number sign ends it. -/
def parts (uri : Bytes) : Except Error (Bytes × List (String × String)) := do
  let (path, options) := Text.cutAt 0x3F ((← afterHost uri).takeWhile (· ≠ 0x23))
  .ok (unescape path, (Text.splitAt 0x26 options).filterMap option?)

/-- The access that an option leaves. -/
def restrict (access : Access) : String × String → Except Error Access
  | ("mode", name) =>
    match Access.ofName? name with
    | none => .error (.access name)
    | some next => if access.allows next then .ok next else .error (.wider name)
  | ("cache", name) =>
    if name = "shared" ∨ name = "private" then .ok access else .error (.sharing name)
  | _ => .ok access

/-- Whether the value of an option is yes: in words, or by a number that is not zero in its last
eight bits and fits 32 bits with a sign. -/
def isYes (value : String) : Bool :=
  match value.toList.takeWhile Text.isDigit with
  | [] => value.toLower ∈ ["on", "yes", "true"]
  | digits =>
    let n := Text.decimalValue digits
    n % 256 ≠ 0 && n < Nat.pow 2 31

/-- The file systems. The last one is in memory. -/
def systems : List String :=
  ["unix", "unix-none", "unix-dotfile", "unix-excl", "memdb"]

def ofPath (path : Bytes) : Address :=
  ⟨path, .create, false, false, "unix", none⟩

/-- The address of a URI, without what shows that it is one. -/
def ofUri (uri : Bytes) : Except Error Address := do
  let (file, options) ← parts uri
  let access ← options.foldlM restrict .create
  let system := (options.reverse.lookup "vfs").getD "unix"
  if system ∈ systems then
    .ok {
      file, access, system
      isImmutable := (options.lookup "immutable").any isYes
      isUnlocked := (options.lookup "nolock").any isYes
      permissionsOf := options.lookup "modeof" }
  else .error (.system system)

def ofText (text : String) : Except Error Address :=
  let bytes := Text.utf8 text
  match bytes.findIdx? (· = 0), Bytes.strip? (Text.utf8 "file:") bytes with
  | some place, _ => .error (.zeroByte place)
  | none, none => .ok (ofPath bytes)
  | none, some uri => ofUri uri

def isNameless (a : Address) : Bool :=
  a.file = [] || a.file = Text.utf8 ":memory:" || a.access = .memory

def inMemory (a : Address) : Bool :=
  a.isNameless || a.system = "memdb"

def isReadOnly (a : Address) : Bool :=
  a.access = .read || (a.isImmutable && !a.isNameless)

/-- Whether changes can be logged ahead: others have to be able to read the log meanwhile. -/
def canLog (a : Address) : Bool :=
  a.system ∈ ["unix", "unix-excl"] && !a.isUnlocked

end Address

end ReadOnce
