import ReadOnce.Log.Pattern.Basic
import ReadOnce.Text.Alphabet
import ReadOnce.Text.Blank
import ReadOnce.Text.Hexadecimal

/-!
# Reading patterns

A pattern is read from left to right, with the groups that are open on a stack, and a set in
brackets with the sets that are open on another. No pattern with a brace outside of a set is read:
a brace begins a count or a name that a second brace ends, and the text of a pattern ends before
the first closing brace.
-/

namespace ReadOnce.Log

open ReadOnce.Text

/-- The switch that a letter stands for. -/
def Switch.ofChar? : Char → Option Switch
  | 'i' => some caseless
  | 'm' => some lines
  | 's' => some dotAll
  | 'U' => some swapGreed
  | 'u' => some unicode
  | 'R' => some crlf
  | 'x' => some verbose
  | _ => none

namespace Pattern

/-- A text without the blanks and comments that it starts with; `inComment` tells whether it starts
inside a comment. -/
def skipComments (inComment : Bool) : List Char → List Char
  | [] => []
  | c :: rest =>
    if inComment then skipComments (c != '\n') rest
    else if isBlank c then skipComments false rest
    else if c = '#' then skipComments true rest
    else c :: rest

/-- A text without what may be passed over at its start. -/
def skip (verbose : Bool) (s : List Char) : List Char :=
  if verbose then skipComments false s else s

/-- The character after a hyphen that tells whether the hyphen makes a range. -/
def peek (verbose : Bool) (s : List Char) : Option Char :=
  if verbose then
    let found := match skipBlanks s with
      | '#' :: rest => skipBlanks rest
      | rest => rest
    found.head?.or s.head?
  else s.head?

/-- What a backslash and what follows it stand for. -/
inductive Escape where
  | literal (l : Literal)
  /-- Digits, blanks or the characters of words, or all others. -/
  | shorthand (negated : Bool)
  /-- The characters with a property. -/
  | property
  | anchor (ofWord : Bool)

def readHex? (verbose : Bool) : Nat → List Char → Option (List Char × List Char)
  | 0, s => some ([], s)
  | count + 1, s =>
    match skip verbose s with
    | [] => none
    | c :: rest =>
      if (hexDigit? c).isSome then
        (readHex? verbose count rest).map fun (ds, rest) => (c :: ds, rest)
      else none

/-- A character given by some hexadecimal digits. -/
def readCode? (verbose : Bool) (count : Nat) (s : List Char) : Option (Escape × List Char) := do
  let (ds, rest) ← readHex? verbose count s
  let c ← charOfHex? ds
  some (.literal ⟨c, count = 2⟩, rest)

def readProperty? (verbose : Bool) (s : List Char) : Option (Escape × List Char) :=
  match skip verbose s with
  | [] | '\x7b' :: _ | '\\' :: _ => none
  | _ :: rest => some (.property, rest)

def readEscape? (verbose : Bool) : List Char → Option (Escape × List Char)
  | [] => none
  | c :: rest =>
    let char (c : Char) : Option (Escape × List Char) := some (.literal ⟨c, false⟩, rest)
    match c with
    | 'x' => readCode? verbose 2 rest
    | 'u' => readCode? verbose 4 rest
    | 'U' => readCode? verbose 8 rest
    | 'p' | 'P' => readProperty? verbose rest
    | 'd' | 's' | 'w' => some (.shorthand false, rest)
    | 'D' | 'S' | 'W' => some (.shorthand true, rest)
    | 'A' | 'z' => some (.anchor false, rest)
    | 'b' | 'B' | '<' | '>' => some (.anchor true, rest)
    | 'a' => char '\x07'
    | 'f' => char '\x0c'
    | 't' => char '\t'
    | 'n' => char '\n'
    | 'r' => char '\r'
    | 'v' => char '\x0b'
    | c => if c.toNat < 0x80 ∧ ¬ c.isAlphanum then char c else none

/-- The names of sets of ASCII characters. -/
def setNames : List String :=
  ["alnum", "alpha", "ascii", "blank", "cntrl", "digit", "graph", "lower", "print", "punct",
    "space", "upper", "word", "xdigit"]

/-- What follows the bracket of a set that has a name: whether it is negated, and what is left. -/
def readName? : List Char → Option (Bool × List Char)
  | ':' :: s =>
    let negated := s.head? = some '^'
    let s := if negated then s.tail else s
    let name := s.takeWhile (· != ':')
    match s.drop name.length with
    | ':' :: ']' :: rest =>
      if setNames.contains (String.ofList name) then some (negated, rest) else none
    | _ => none
  | _ => none

/-- One character of a set, or a set that an escape stands for. -/
def readItem? (verbose : Bool) : List Char → Option (CharSet × List Char)
  | [] => none
  | '\\' :: s => do
    match ← readEscape? verbose s with
    | (.literal l, rest) => some (.single l, rest)
    | (.shorthand negated, rest) => some (.shorthand negated, rest)
    | (.property, rest) => some (.property, rest)
    | (.anchor _, _) => none
  | c :: rest => some (.single ⟨c, false⟩, rest)

/-- A character or a range of characters of a set. -/
def readRange? (verbose : Bool) (s : List Char) : Option (CharSet × List Char) := do
  let (low, rest) ← readItem? verbose s
  match skip verbose rest with
  | '-' :: rest =>
    if peek verbose rest = some ']' ∨ peek verbose rest = some '-' then some (low, '-' :: rest)
    else
      match low, ← readItem? verbose (skip verbose rest) with
      | .single low, (.single high, rest) =>
        if low.char ≤ high.char then some (.range low high, rest) else none
      | _, _ => none
  | rest => some (low, rest)

structure OpenSet where
  negated : Bool
  /-- Whether hyphens, and a bracket in the first place, still stand for themselves. -/
  isFresh : Bool
  /-- What has been read before the last joining, and the joining. -/
  left : Option (Joining × CharSet)
  /-- The sets since, last first. -/
  sets : List CharSet

def OpenSet.value (o : OpenSet) : CharSet :=
  let right := match o.sets with
    | [] => .empty
    | [s] => s
    | sets => .union sets.reverse
  match o.left with
  | none => right
  | some (j, left) => .joined j left right

def OpenSet.add (o : OpenSet) (s : CharSet) : OpenSet :=
  { o with sets := s :: o.sets }

/-- A set that is to be joined with what follows. -/
def OpenSet.join (o : OpenSet) (j : Joining) : OpenSet :=
  { o with left := some (j, o.value), sets := [] }

/-- A set whose bracket has just been read, and what is left. -/
def OpenSet.start (verbose : Bool) (s : List Char) : OpenSet × List Char :=
  match skip verbose s with
  | '^' :: rest => (⟨true, true, none, []⟩, rest)
  | rest => (⟨false, true, none, []⟩, rest)

/-- The rest of the innermost set `o` and of the sets around it; the first argument bounds the
number of steps. -/
def readSets? (verbose : Bool) :
    Nat → OpenSet → List OpenSet → List Char → Option (CharSet × List Char)
  | 0, _, _, _ => none
  | fuel + 1, o, outer, s =>
    let s := skip verbose s
    let first := o.isFresh && o.sets.isEmpty
    let settled := { o with isFresh := false }
    if o.isFresh ∧ s.head? = some '-' then
      readSets? verbose fuel (o.add (.single ⟨'-', false⟩)) outer s.tail
    else if first ∧ s.head? = some ']' then
      readSets? verbose fuel (settled.add (.single ⟨']', false⟩)) outer s.tail
    else
      match s with
      | [] => none
      | '[' :: rest =>
        match readName? rest with
        | some (negated, rest) => readSets? verbose fuel (settled.add (.named negated)) outer rest
        | none =>
          let (inner, rest) := OpenSet.start verbose rest
          readSets? verbose fuel inner (settled :: outer) rest
      | ']' :: rest =>
        let whole := CharSet.bracketed o.negated o.value
        match outer with
        | [] => some (whole, rest)
        | o :: outer => readSets? verbose fuel (o.add whole) outer rest
      | '&' :: '&' :: rest => readSets? verbose fuel (settled.join .intersection) outer rest
      | '-' :: '-' :: rest => readSets? verbose fuel (settled.join .difference) outer rest
      | '~' :: '~' :: rest => readSets? verbose fuel (settled.join .symmetricDifference) outer rest
      | s =>
        match readRange? verbose s with
        | some (part, rest) => readSets? verbose fuel (settled.add part) outer rest
        | none => none

/-- A set, after the bracket that opens it. -/
def readSet? (verbose : Bool) (s : List Char) : Option (CharSet × List Char) :=
  let (o, rest) := OpenSet.start verbose s
  readSets? verbose (s.length + 1) o [] rest

/-- The switches at the start of a group, the colon or parenthesis that ends them, and what is left;
`off` tells whether they are turned off, and `hanging` whether a hyphen has just been read. -/
def readChanges? (off hanging : Bool) (changes : Changes) :
    List Char → Option (Changes × Char × List Char)
  | [] => none
  | c :: rest =>
    if c = ':' ∨ c = ')' then if hanging then none else some (changes, c, rest)
    else if c = '-' then if off then none else readChanges? true true changes rest
    else
      match Switch.ofChar? c with
      | none => none
      | some s =>
        if (changes.lookup s).isSome then none
        else readChanges? off false (changes ++ [(s, !off)]) rest

/-- The name of a group and what is left after it. -/
def readGroupName? (s : List Char) : Option (List Char × List Char) :=
  let name := s.takeWhile (· != '>')
  match s.drop name.length, name with
  | '>' :: rest, c :: cs =>
    if (c = '_' ∨ isAlphabetic c) ∧
        cs.all fun c => "_.[]".toList.contains c || isAlphanumeric c then
      some (name, rest)
    else none
  | _, _ => none

/-- A group that is being read. -/
structure OpenGroup where
  /-- The switches that change inside. -/
  changes : Changes
  /-- Whether blanks are passed over after it. -/
  verboseAfter : Bool
  /-- The alternatives that have been read, last first. -/
  options : List Pattern
  /-- The patterns of the alternative that is being read, last first. -/
  items : List Pattern

/-- The alternative that is being read. -/
def OpenGroup.last (g : OpenGroup) : Pattern :=
  match g.items with
  | [] => .empty
  | [p] => p
  | items => .sequence items.reverse

def OpenGroup.value (g : OpenGroup) : Pattern :=
  match g.options with
  | [] => g.last
  | options => .choice (g.last :: options).reverse

def OpenGroup.add (g : OpenGroup) (p : Pattern) : OpenGroup :=
  { g with items := p :: g.items }

def OpenGroup.next (g : OpenGroup) : OpenGroup :=
  { g with options := g.last :: g.options, items := [] }

/-- A group whose last pattern is repeated. Switches cannot be. -/
def OpenGroup.repeat? (g : OpenGroup) : Option OpenGroup :=
  match g.items with
  | [] | .change _ :: _ => none
  | p :: items => some { g with items := .repeated p :: items }

/-- A pattern that is being read. -/
structure Reading where
  /-- Whether blanks are passed over. -/
  verbose : Bool
  /-- The names of groups so far. -/
  names : List (List Char)
  inner : OpenGroup
  /-- The groups around it, innermost first. -/
  outer : List OpenGroup

def Reading.add (r : Reading) (p : Pattern) : Reading :=
  { r with inner := r.inner.add p }

/-- A pattern that goes on in a new group. -/
def Reading.openGroup (r : Reading) (changes : Changes) : Reading :=
  { r with
    verbose := (changes.lookup .verbose).getD r.verbose
    inner := ⟨changes, r.verbose, [], []⟩
    outer := r.inner :: r.outer }

/-- A pattern that goes on after the innermost group. -/
def Reading.closeGroup? (r : Reading) : Option Reading :=
  match r.outer with
  | [] => none
  | g :: outer =>
    let whole := Pattern.group r.inner.changes r.inner.value
    some { r with verbose := r.inner.verboseAfter, inner := g.add whole, outer }

/-- What follows an opening parenthesis: a group with a name, with switches or with neither, or
switches alone. -/
def Reading.readGroup? (r : Reading) (s : List Char) : Option (Reading × List Char) :=
  let named (s : List Char) : Option (Reading × List Char) := do
    let (name, rest) ← readGroupName? s
    if r.names.contains name then none
    else some ({ r.openGroup [] with names := name :: r.names }, rest)
  match skip r.verbose s with
  | '?' :: 'P' :: '<' :: rest => named rest
  | '?' :: '<' :: rest => named rest
  | '?' :: rest => do
    let (changes, c, rest) ← readChanges? false false [] rest
    if c = ':' then some (r.openGroup changes, rest)
    else if changes.isEmpty then none
    else some ({ r.add (.change changes) with
      verbose := (changes.lookup .verbose).getD r.verbose }, rest)
  | rest => some (r.openGroup [], rest)

/-- A pattern that goes on after the part that its rest begins with. -/
def Reading.step? (r : Reading) : List Char → Option (Reading × List Char)
  | [] => none
  | '(' :: rest => r.readGroup? rest
  | ')' :: rest => r.closeGroup?.map (·, rest)
  | '|' :: rest => some ({ r with inner := r.inner.next }, rest)
  | '[' :: rest => do
    let (s, rest) ← readSet? r.verbose rest
    some (r.add (.set s), rest)
  | '\x7b' :: _ => none
  | '\\' :: rest => do
    let (e, rest) ← readEscape? r.verbose rest
    let part : Pattern := match e with
      | .literal l => .literal l
      | .shorthand negated => .set (.shorthand negated)
      | .property => .set .property
      | .anchor ofWord => .anchor ofWord
    some (r.add part, rest)
  | c :: rest =>
    if c = '?' ∨ c = '*' ∨ c = '+' then do
      let inner ← r.inner.repeat?
      some ({ r with inner }, if rest.head? = some '?' then rest.tail else rest)
    else if c = '.' then some (r.add .dot, rest)
    else if c = '^' ∨ c = '$' then some (r.add (.anchor false), rest)
    else some (r.add (.literal ⟨c, false⟩), rest)

/-- The rest of a pattern; the first argument bounds the number of steps. -/
def Reading.run? : Nat → Reading → List Char → Option Pattern
  | 0, _, _ => none
  | fuel + 1, r, s =>
    let s := skip r.verbose s
    if s.isEmpty then if r.outer.isEmpty then some r.inner.value else none
    else
      match r.step? s with
      | some (r, rest) => run? fuel r rest
      | none => none

/-- The pattern that a text writes. -/
def read? (s : List Char) : Option Pattern :=
  Reading.run? (s.length + 1) ⟨false, [], ⟨[], false, [], []⟩, []⟩ s

end Pattern

end ReadOnce.Log
