import ReadOnce.Text.Base64
import ReadOnce.Text.Decimal
import ReadOnce.Text.Split

/-!
# Password hashes as text

The PHC string format: dollar signs before the name of the algorithm, its version, its parameters,
the salt and the hash. All but the name may be left out at the end, the version and the parameters
also before a salt.
-/

namespace ReadOnce

/-- The parts of a password hash. -/
structure Phc where
  algorithm : String
  version : Option Nat
  params : List (String × String)
  salt : Option String
  hash : Option Bytes
  deriving DecidableEq, Repr

namespace Phc

/-- Whether a character may stand in a name. -/
def isNameChar (c : Char) : Bool :=
  ('a' ≤ c && c ≤ 'z') || Text.isDigit c || c == '-'

/-- Whether a character may stand in a value. -/
def isValueChar (c : Char) : Bool :=
  ('a' ≤ c && c ≤ 'z') || ('A' ≤ c && c ≤ 'Z') || Text.isDigit c || c == '/' || c == '+' ||
    c == '.' || c == '-'

/-- A name: 1 to 32 characters. -/
def name? (s : List Char) : Option String :=
  if 1 ≤ s.length ∧ s.length ≤ 32 ∧ s.all isNameChar then some (String.ofList s) else none

/-- A value: at most 64 characters. -/
def value? (s : List Char) : Option String :=
  if s.length ≤ 64 ∧ s.all isValueChar then some (String.ofList s) else none

/-- The number that a value writes: digits without a leading zero, below 2^32. -/
def decimal? (s : List Char) : Option Nat :=
  if s.all Text.isDigit ∧ ¬ s.isEmpty ∧ (s.head? = some '0' → s.length = 1) then
    let n := Text.decimalValue s
    if n < 4294967296 then some n else none
  else none

/-- A parameter: a name and a value with one equals sign between them. -/
def param? (s : List Char) : Option (String × String) :=
  match Text.splitAt '=' s with
  | [n, v] => do
    let n ← name? n
    let v ← value? v
    some (n, v)
  | _ => none

/-- The most characters of a list of parameters. -/
def maxParams : Nat := 127

/-- Parameters with commas between them. -/
def params? (s : List Char) : Option (List (String × String)) :=
  if s.length ≤ maxParams then (Text.splitAt ',' s).mapM param? else none

/-- A salt: a value of 4 to 64 characters. -/
def salt? (s : List Char) : Option String :=
  if 4 ≤ s.length then value? s else none

/-- A hash: 10 to 64 bytes. -/
def hash? (s : List Char) : Option Bytes := do
  let b ← Text.Base64.decode? s
  if 10 ≤ b.length ∧ b.length ≤ 64 then some b else none

/-- Takes the version off the fields, if it comes first. -/
def version? (fields : List (List Char)) : Option (Option Nat × List (List Char)) :=
  match fields with
  | ('v' :: '=' :: v) :: rest =>
    if ',' ∈ v then some (none, fields)
    else do
      let _ ← value? v
      let n ← decimal? v
      some (some n, rest)
  | _ => some (none, fields)

/-- Takes the parameters off the fields, if they come first. -/
def paramsField? (fields : List (List Char)) :
    Option (List (String × String) × List (List Char)) :=
  match fields with
  | field :: rest =>
    if '=' ∈ field then do
      let ps ← params? field
      some (ps, rest)
    else some ([], fields)
  | [] => some ([], [])

/-- The parts of a password hash that a text writes. -/
def parse? (s : String) : Option Phc :=
  match Text.splitAt '$' s.toList with
  | [] :: algorithm :: fields => do
    let algorithm ← name? algorithm
    let (version, fields) ← version? fields
    let (params, fields) ← paramsField? fields
    match fields with
    | [] => some { algorithm, version, params, salt := none, hash := none }
    | [salt] => do
      let salt ← salt? salt
      some { algorithm, version, params, salt := some salt, hash := none }
    | [salt, hash] => do
      let salt ← salt? salt
      let hash ← hash? hash
      some { algorithm, version, params, salt := some salt, hash := some hash }
    | _ => none
  | _ => none

def paramText (p : String × String) : List Char :=
  p.1.toList ++ '=' :: p.2.toList

/-- The fields of a password hash after the name. -/
def fields (p : Phc) : List (List Char) :=
  (p.version.map fun n => 'v' :: '=' :: Nat.toDigits 10 n).toList ++
    (if p.params.isEmpty then [] else [Text.joinWith ',' (p.params.map paramText)]) ++
    (p.salt.map String.toList).toList ++ (p.hash.map Text.Base64.encode).toList

def text (p : Phc) : String :=
  String.ofList (Text.joinWith '$' ([] :: p.algorithm.toList :: p.fields))

end Phc

end ReadOnce
