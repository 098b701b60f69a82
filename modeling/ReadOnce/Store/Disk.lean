import ReadOnce.Store.Database
import ReadOnce.Store.Path
import ReadOnce.Store.Trees

/-!
# Disks

What stands at which path. On the way to a path there must be directories only, and no name may be
too long. `Disk.find` tells what there is at a path or what is in the way, and
`Disk.makeDirectories` makes the directories that are missing.
-/

namespace ReadOnce

/-- What stands at a path. -/
inductive Entry where
  | directory
  | trees (t : Trees)
  | database (d : Database)
  | file (b : Bytes)

def Entry.isDirectory : Entry → Bool
  | directory | trees _ => true
  | database _ | file _ => false

/-- What is in the way to a path. -/
inductive Obstacle where
  | file
  | longName
  deriving DecidableEq, Repr

def Obstacle.message : Obstacle → String
  | file => "Not a directory (os error 20)"
  | longName => "File name too long (os error 36)"

/-- What stands at which path; the top is a directory. -/
structure Disk where
  entries : List (Path × Entry)

namespace Disk

/-- What stands at a path. -/
def at? (d : Disk) (p : Path) : Option Entry :=
  match p, (d.entries.find? (·.1 == p)).map Prod.snd with
  | [], none => some .directory
  | _, e => e

def isDirectory (d : Disk) (p : Path) : Bool :=
  (d.at? p).any Entry.isDirectory

/-- Puts an entry at a path, in place of what stands there. -/
def put (d : Disk) (p : Path) (e : Entry) : Disk :=
  ⟨(p, e) :: d.entries.filter (·.1 != p)⟩

/-- What there is to find if some names are followed from a path on. Nothing is found beyond a path
at which nothing stands. -/
def findFrom (d : Disk) (p : Path) : List Bytes → Except Obstacle (Option Entry)
  | [] => .ok (d.at? p)
  | name :: names =>
    match d.at? p with
    | none => .ok none
    | some e =>
      if ¬ e.isDirectory then .error .file
      else if Path.maxName < name.length then .error .longName
      else findFrom d (p ++ [name]) names

/-- What there is to find at a path. -/
def find (d : Disk) (p : Path) : Except Obstacle (Option Entry) :=
  d.findFrom [] p

/-- Makes the directories that are missing if some names are followed from a path on. -/
def makeDirectoriesFrom (d : Disk) (p : Path) : List Bytes → Except Obstacle Disk
  | [] => .ok d
  | name :: names =>
    let next := p.step name
    if Path.maxName < name.length then .error .longName
    else match d.at? next with
      | none => makeDirectoriesFrom (d.put next .directory) next names
      | some e => if e.isDirectory then makeDirectoriesFrom d next names else .error .file

/-- Makes the directories that are missing on the way that some names lead from the top. -/
def makeDirectories (d : Disk) (names : List Bytes) : Except Obstacle Disk :=
  d.makeDirectoriesFrom [] names

end Disk

end ReadOnce
