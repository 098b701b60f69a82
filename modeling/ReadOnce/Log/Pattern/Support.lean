import ReadOnce.Log.Pattern.Basic

/-!
# Patterns that can be matched

Patterns are matched against texts in UTF-8, without the tables of Unicode. So in Unicode mode there
are no shorthands, no properties, no words and no letters in either case, and outside of it no
pattern may match part of a character. Nor may a pattern be nested too deeply.
-/

namespace ReadOnce.Log

/-- The switches that decide whether a pattern can be matched. -/
structure Mode where
  caseless : Bool
  unicode : Bool
  deriving DecidableEq, Repr

/-- The mode after some switches have changed. -/
def Mode.after (m : Mode) (changes : Changes) : Mode where
  caseless := (changes.lookup .caseless).getD m.caseless
  unicode := (changes.lookup .unicode).getD m.unicode

namespace CharSet

mutual

/-- How deeply a set is nested. -/
def depth : CharSet → Nat
  | bracketed _ s => s.depth + 1
  | union sets => depthOfAll 0 sets + 1
  | joined _ left right => max left.depth right.depth + 1
  | _ => 0

/-- How deeply the deepest of several sets is nested, if it is deeper than `d`. -/
def depthOfAll (d : Nat) : List CharSet → Nat
  | [] => d
  | s :: sets => depthOfAll (max d s.depth) sets

end

mutual

/-- Whether no table of Unicode is needed for a set. Only the empty set and its complement are the
same in either case. -/
def isPlain (caseless : Bool) : CharSet → Bool
  | empty => true
  | single _ | range _ _ | named _ => !caseless
  | shorthand _ | property => false
  | bracketed _ s => s.isPlain caseless
  | union sets => areAllPlain caseless sets
  | joined _ left right => left.isPlain caseless && right.isPlain caseless

/-- Whether no table of Unicode is needed for any of several sets. -/
def areAllPlain (caseless : Bool) : List CharSet → Bool
  | [] => true
  | s :: sets => s.isPlain caseless && areAllPlain caseless sets

end

mutual

/-- Whether a set of bytes holds those beyond ASCII: it holds all of them or none. Nothing if the
set is not one of bytes, or if a set in brackets in it holds parts of characters. -/
def beyondAscii? : CharSet → Option Bool
  | empty => some false
  | single l => if l.isAscii then some false else none
  | range low high => if low.isAscii && high.isAscii then some false else none
  | named negated => some negated
  | shorthand negated => if negated then none else some false
  | property => none
  | bracketed negated s => do
    let b ← s.beyondAscii?
    if b = negated then some false else none
  | union sets => anyBeyondAscii? false sets
  | joined j left right => do
    let l ← left.beyondAscii?
    let r ← right.beyondAscii?
    match j with
    | .intersection => some (l && r)
    | .difference => some (l && !r)
    | .symmetricDifference => some (l != r)

/-- Whether one of several sets of bytes holds those beyond ASCII, or `found`. -/
def anyBeyondAscii? (found : Bool) : List CharSet → Option Bool
  | [] => some found
  | s :: sets => do
    let b ← s.beyondAscii?
    anyBeyondAscii? (found || b) sets

end

/-- Whether a set can be matched in a mode. -/
def isSupported (m : Mode) (s : CharSet) : Bool :=
  if m.unicode then s.isPlain m.caseless else s.beyondAscii? = some false

end CharSet

namespace Pattern

mutual

/-- How deeply a pattern is nested. -/
def depth : Pattern → Nat
  | set s => s.depth
  | repeated p => p.depth + 1
  | group _ p => p.depth + 1
  | sequence ps => depthOfAll 0 ps + 1
  | choice ps => depthOfAll 0 ps + 1
  | _ => 0

/-- How deeply the deepest of several patterns is nested, if it is deeper than `d`. -/
def depthOfAll (d : Nat) : List Pattern → Nat
  | [] => d
  | p :: ps => depthOfAll (max d p.depth) ps

end

mutual

/-- The mode after a pattern that can be matched in a mode. -/
def modeAfter? (m : Mode) : Pattern → Option Mode
  | empty => some m
  | change changes => some (m.after changes)
  | literal l =>
    if (if m.unicode then !m.caseless else l.isAscii || !l.isByte) then some m else none
  | dot => if m.unicode then some m else none
  | anchor ofWord => if ofWord && m.unicode then none else some m
  | set s => if s.isSupported m then some m else none
  | repeated p => p.modeAfter? m
  | group changes p => (p.modeAfter? (m.after changes)).map fun _ => m
  | sequence ps => modeAfterAll? m ps
  | choice ps => modeAfterAll? m ps

/-- The mode after several patterns that can be matched one after the other. -/
def modeAfterAll? (m : Mode) : List Pattern → Option Mode
  | [] => some m
  | p :: ps =>
    match p.modeAfter? m with
    | none => none
    | some m => modeAfterAll? m ps

end

/-- How deeply a pattern may be nested. -/
def maxDepth : Nat := 250

/-- Whether a pattern can be matched. -/
def isSupported (p : Pattern) : Bool :=
  p.depth ≤ maxDepth && (p.modeAfter? ⟨false, true⟩).isSome

end Pattern

end ReadOnce.Log
