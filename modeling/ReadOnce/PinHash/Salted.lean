import ReadOnce.PinHash.Argon2
import ReadOnce.PinHash.Basic
import ReadOnce.PinHash.Phc
import ReadOnce.Text.Utf8

/-!
# Argon2 hashes of pins

A pin is hashed by the variant `id` of Argon2, with 16 bytes of salt and 32 bytes of output, and
kept as a PHC string that carries all settings. A stored string is therefore checked by its own
settings, whatever the cost that new hashes are made with.

The functions take Argon2 as an argument, since nothing here depends on what it computes.
-/

namespace ReadOnce

namespace Argon2

/-- Why a cost is refused. -/
inductive CostError where
  /-- Fewer than 8 blocks of memory, or fewer than 8 for each lane. -/
  | memoryTooSmall
  | timeTooSmall
  | tooFewLanes
  /-- More than 16777215 lanes. -/
  | tooManyLanes
  deriving DecidableEq, Repr

def CostError.message : CostError → String
  | .memoryTooSmall => "memory cost is too small"
  | .timeTooSmall => "time cost is too small"
  | .tooFewLanes => "not enough threads"
  | .tooManyLanes => "too many threads"

/-- Checks a cost. The memory for all lanes is counted in 32 bits; where that wraps, there are too
many lanes in any case. -/
def Cost.check (c : Cost) : Except CostError Unit :=
  if c.memory < 8 then .error .memoryTooSmall
  else if c.memory < c.lanes * 8 then .error .memoryTooSmall
  else if c.time < 1 then .error .timeTooSmall
  else if c.lanes < 1 then .error .tooFewLanes
  else if 16777215 < c.lanes then .error .tooManyLanes
  else .ok ()

/-- The cost of new hashes unless another is chosen. -/
def Cost.default : Cost := ⟨19456, 2, 1⟩

def Cost.debug (c : Cost) : String :=
  s!"Argon2Params \x7b m_cost: {c.memory}, t_cost: {c.time}, p_cost: {c.lanes} \x7d"

def Variant.ofName? : String → Option Variant
  | "argon2d" => some .d
  | "argon2i" => some .i
  | "argon2id" => some .id
  | _ => none

def Version.ofCode? : Nat → Option Version
  | 16 => some .replacing
  | 19 => some .adding
  | _ => none

end Argon2

namespace PinHash

open Argon2

def saltSize : Nat := 16

def outputSize : Nat := 32

def minSaltSize : Nat := 8

/-- What the parameters of a stored hash set. -/
structure Params where
  cost : Cost
  data : Bytes

def maxKeyId : Nat := 8

def maxData : Nat := 32

/-- A byte string of bounded length. -/
def bounded? (most : Nat) (s : String) : Option Bytes := do
  let b ← Text.Base64.decode? s.toList
  if b.length ≤ most then some b else none

/-- Settings with one more parameter read. The identifier of a key must be well formed, and is not
used. -/
def Params.set? (p : Params) (param : String × String) : Option Params :=
  match param.1 with
  | "m" => do
    let n ← Phc.decimal? param.2.toList
    some { p with cost.memory := UInt32.ofNat n }
  | "t" => do
    let n ← Phc.decimal? param.2.toList
    some { p with cost.time := UInt32.ofNat n }
  | "p" => do
    let n ← Phc.decimal? param.2.toList
    some { p with cost.lanes := UInt32.ofNat n }
  | "keyid" => do
    let _ ← bounded? maxKeyId param.2
    some p
  | "data" => do
    let b ← bounded? maxData param.2
    some { p with data := b }
  | _ => none

/-- The settings of a list of parameters; of a parameter given twice the last one counts. -/
def Params.ofList? (params : List (String × String)) : Option Params := do
  let p ← params.foldlM Params.set? ⟨Cost.default, []⟩
  match p.cost.check with
  | .ok () => some p
  | .error _ => none

/-- The settings, salt and output that a stored hash carries. -/
def read? (hash : String) : Option (Setting × Bytes × Bytes) := do
  let phc ← Phc.parse? hash
  let salt ← phc.salt
  let output ← phc.hash
  let variant ← Variant.ofName? phc.algorithm
  let version ← Version.ofCode? (phc.version.getD 19)
  let params ← Params.ofList? phc.params
  let salt ← Text.Base64.decode? salt.toList
  if minSaltSize ≤ salt.length then
    some ({ variant, version, cost := params.cost, data := params.data, size := output.length },
      salt, output)
  else none

/-- The settings of new hashes of a cost. -/
def setting (cost : Cost) : Setting :=
  { variant := .id, version := .adding, cost, data := [], size := outputSize }

/-- The stored form of an output of `setting cost`. -/
def write (cost : Cost) (salt output : Bytes) : String :=
  Phc.text
    { algorithm := "argon2id"
      version := some 19
      params := [("m", toString cost.memory), ("t", toString cost.time), ("p", toString cost.lanes)]
      salt := some (String.ofList (Text.Base64.encode salt))
      hash := some output }

/-- The stored hash of a pin. -/
def make (digest : Setting → Bytes → Bytes → Bytes) (cost : Cost) (salt : Bytes) (pin : String) :
    String :=
  write cost salt (digest (setting cost) (Text.utf8 pin) salt)

/-- Whether a stored hash is of a pin. -/
def matches? (digest : Setting → Bytes → Bytes → Bytes) (hash pin : String) : Bool :=
  match read? hash with
  | none => false
  | some (setting, salt, output) => digest setting (Text.utf8 pin) salt == output

end PinHash

namespace PinHasher

/-- The hasher that makes Argon2 hashes of a cost. Pins have to have fewer than 2³² bytes, which is
as much as Argon2 takes; longer ones are not considered. -/
def argon2 (cost : Argon2.Cost) : PinHasher where
  hash salt pin := .ok (PinHash.make Argon2.hash cost salt pin)
  verify := PinHash.matches? Argon2.hash

end PinHasher

end ReadOnce
