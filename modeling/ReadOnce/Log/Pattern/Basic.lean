/-!
# Patterns

A pattern describes texts: characters, sets of characters, anchors, repetitions, alternatives and
groups. Switches change how the rest of a group is read and matched.

A set in brackets may hold other sets, and may be made of two sets that are intersected or
subtracted.
-/

namespace ReadOnce.Log

/-- What a pattern can turn on and off. -/
inductive Switch where
  /-- Letters match in either case. -/
  | caseless
  /-- Anchors also match at the ends of lines. -/
  | lines
  /-- A dot also matches the end of a line. -/
  | dotAll
  /-- Repetitions match as little as possible. -/
  | swapGreed
  /-- Characters are those of Unicode, and not bytes. -/
  | unicode
  /-- A line may also end with a carriage return. -/
  | crlf
  /-- Blanks and comments in the pattern are passed over. -/
  | verbose
  deriving DecidableEq, Repr

/-- Switches that are turned on or off. -/
abbrev Changes := List (Switch × Bool)

structure Literal where
  char : Char
  /-- Whether it is written as a byte, with two hexadecimal digits. -/
  isByte : Bool
  deriving DecidableEq, Repr

def Literal.isAscii (l : Literal) : Bool :=
  l.char.toNat < 0x80

/-- How two sets make one. -/
inductive Joining where
  | intersection
  | difference
  | symmetricDifference
  deriving DecidableEq, Repr

inductive CharSet where
  | empty
  | single (l : Literal)
  | range (low high : Literal)
  /-- A set of ASCII characters that has a name, or all others. -/
  | named (negated : Bool)
  /-- Digits, blanks or the characters of words, or all others. -/
  | shorthand (negated : Bool)
  /-- The characters with a property of Unicode. -/
  | property
  /-- A set in brackets, or all characters that are not in it. -/
  | bracketed (negated : Bool) (s : CharSet)
  /-- The characters of any of several sets. -/
  | union (sets : List CharSet)
  /-- Two sets that make one. -/
  | joined (j : Joining) (left right : CharSet)

inductive Pattern where
  | empty
  /-- Nothing, but switches change for the rest of the group. -/
  | change (changes : Changes)
  | literal (l : Literal)
  | dot
  /-- The beginning or the end of something; of a word, or of a line or the text. -/
  | anchor (ofWord : Bool)
  | set (s : CharSet)
  | repeated (p : Pattern)
  /-- A pattern in parentheses, with switches that change inside. -/
  | group (changes : Changes) (p : Pattern)
  | sequence (ps : List Pattern)
  | choice (ps : List Pattern)

end ReadOnce.Log
