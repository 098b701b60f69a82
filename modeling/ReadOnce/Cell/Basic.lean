import ReadOnce.Cell.Numeral
import ReadOnce.Number.Rounded
import ReadOnce.Text.Utf8

/-!
# Cells of a table

What a column of a table may hold, whatever it was declared for: nothing, a whole number of 64
bits, a floating-point number, a text, or bytes. A column declared for whole numbers turns numeric
texts and whole floating-point numbers into whole numbers, and a column declared for texts turns
numbers into texts; anything else is kept as it comes.

Arithmetic takes a text or bytes for the numeral that they start with. A result that leaves 64 bits
becomes a floating-point number.

A cell takes a tag in its row, which tells its kind and its size, and as many bytes as its value
needs.
-/

namespace ReadOnce

/-- What a column of a table holds. -/
inductive Cell where
  | null
  | integer (n : Int64)
  | real (x : Float)
  | text (s : String)
  | blob (b : Bytes)
  deriving DecidableEq

namespace Cell

def kind : Cell → String
  | null => "Null"
  | integer _ => "Integer"
  | real _ => "Real"
  | text _ => "Text"
  | blob _ => "Blob"

/-- The 64-bit number that a whole number is. -/
def int64? (n : Int) : Option Int64 :=
  if -9223372036854775808 ≤ n ∧ n ≤ 9223372036854775807 then some (Int64.ofInt n) else none

/-- A floating-point number, as a whole number if it is one strictly between the ends of 64 bits. -/
def ofFloat (x : Float) : Cell :=
  match Binary64.toInt? x with
  | some n =>
    if -9223372036854775808 < n ∧ n < 9223372036854775807 then integer (Int64.ofInt n) else real x
  | none => real x

/-- A cell as a column for whole numbers keeps it. -/
def asInteger : Cell → Cell
  | real x => ofFloat x
  | text s =>
    let n := Numeral.read s.toList
    if n.isComplete then
      match (if n.isInteger then int64? n.toInt else none) with
      | some i => integer i
      | none => ofFloat n.toFloat
    else text s
  | c => c

/-- A cell as a column for texts keeps it. -/
def asText : Cell → Cell
  | integer n => text (toString n.toInt)
  | real x => text (Binary64.text x)
  | c => c

/-- The number that a text stands for in arithmetic. -/
def ofNumeral (s : List Char) : Cell :=
  let n := Numeral.read s
  if n.isInteger then
    match int64? n.toInt with
    | some i => integer i
    | none => real n.toFloat
  else if n.digits.isEmpty then integer 0
  else real n.toFloat

/-- A cell as a number; nothing stays nothing. -/
def numeric : Cell → Cell
  | text s => ofNumeral s.toList
  | blob b => ofNumeral (b.map fun x => Char.ofNat x.toNat)
  | c => c

def plus (c : Cell) (n : Int64) : Cell :=
  match c.numeric with
  | integer m =>
    match int64? (m.toInt + n.toInt) with
    | some i => integer i
    | none => real (Float.ofInt m.toInt + Float.ofInt n.toInt)
  | real x => real (x + Float.ofInt n.toInt)
  | c => c

def times (c : Cell) (n : Int64) : Cell :=
  match c.numeric with
  | integer m =>
    match int64? (m.toInt * n.toInt) with
    | some i => integer i
    | none => real (Float.ofInt m.toInt * Float.ofInt n.toInt)
  | real x => real (x * Float.ofInt n.toInt)
  | c => c

/-- Whether a cell is at most a whole number. Texts and bytes come after all numbers, and nothing is
never compared. -/
def atMost (c : Cell) (n : Int64) : Bool :=
  match c with
  | integer m => m ≤ n
  | real x => Binary64.atMost x n.toInt
  | _ => false

/-- Whether a cell is more than a whole number. -/
def exceeds (c : Cell) (n : Int64) : Bool :=
  match c with
  | null => false
  | c => !c.atMost n

/-- The bytes that a tag takes, with seven bits in each. -/
def tagSize (tag : Nat) : Nat :=
  1 + [128, 16384, 2097152, 268435456].countP (· ≤ tag)

/-- The bytes that a whole number takes besides its tag; the tag tells 0 and 1. -/
def integerSize (n : Int64) : Nat :=
  let reach := if n.toInt < 0 then -n.toInt - 1 else n.toInt
  if n = 0 ∨ n = 1 then 0
  else if reach < 128 then 1
  else if reach < 32768 then 2
  else if reach < 8388608 then 3
  else if reach < 2147483648 then 4
  else if reach < 140737488355328 then 6
  else 8

/-- The bytes that a cell takes in a row. -/
def size : Cell → Nat
  | null => tagSize 0
  | integer n => tagSize 9 + integerSize n
  | real _ => tagSize 7 + 8
  | text s => tagSize (2 * s.utf8ByteSize + 13) + s.utf8ByteSize
  | blob b => tagSize (2 * b.length + 12) + b.length

end Cell

end ReadOnce
