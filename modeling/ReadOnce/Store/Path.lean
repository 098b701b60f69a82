import ReadOnce.Text.Split
import ReadOnce.Text.Utf8

/-!
# Paths

A path is the names on the way from the top to a file or a directory. It is written with slashes
between the names; blank names and dots stay where they are, and two dots go back to where the last
name led from. No path leads above the top, and one that is not written from the top on is taken to
start there all the same.
-/

namespace ReadOnce

/-- The names from the top on. -/
abbrev Path := List Bytes

namespace Path

/-- The byte between the names of a written path. -/
def slash : UInt8 := 0x2F

/-- The name that stays where it is. -/
def dot : Bytes := [0x2E]

/-- The name that goes back. -/
def dots : Bytes := [0x2E, 0x2E]

/-- The names of a written path that lead elsewhere. -/
def steps (written : Bytes) : List Bytes :=
  (Text.splitAt slash written).filter fun name => name ≠ [] ∧ name ≠ dot

/-- Where a name leads from a path. -/
def step (p : Path) (name : Bytes) : Path :=
  if name = dots then p.dropLast else p ++ [name]

def ofBytes (written : Bytes) : Path :=
  (steps written).foldl step []

def ofText (written : String) : Path :=
  ofBytes (Text.utf8 written)

/-- The number of bytes that write a path, each name after a slash. -/
def size : Path → Nat
  | [] => 0
  | name :: p => name.length + 1 + size p

def maxName : Nat := 255

end Path

end ReadOnce
