import ReadOnce.Log.Pattern.Reader
import ReadOnce.Log.Pattern.Support
import ReadOnce.Text.Alphabet
import ReadOnce.Text.Blank
import ReadOnce.Text.Decimal
import ReadOnce.Text.Split

/-!
# Log filters

A filter is a list of directives with commas between them. A directive is a level, or a target, a
span in brackets with fields in braces, or both, with an equals sign and a level after it. What
matters here is only whether the directives can be read, since nothing is logged.
-/

namespace ReadOnce.Log

open ReadOnce.Text

def levelNames : List String :=
  ["error", "warn", "info", "debug", "trace", "off"]

/-- Whether a text is a level: empty, a name in any case, or a number up to 5. -/
def isLevel (s : List Char) : Bool :=
  let ds := match s with
    | '+' :: ds => ds
    | ds => ds
  s.isEmpty || levelNames.contains (String.ofList (s.map Char.toLower)) ||
    (!ds.isEmpty && ds.all isDigit && decimalValue ds ≤ 5)

/-- Whether a target may start with a character. -/
def startsTarget (c : Char) : Bool :=
  isAlphanumeric c || c == '-' || c == ':' || c == '_'

/-- A text without the sign that it may start with. -/
def dropSign : List Char → List Char
  | '+' :: rest => rest
  | '-' :: rest => rest
  | rest => rest

/-- Whether a text is empty or a power of ten. -/
def isPower : List Char → Bool
  | [] => true
  | c :: rest =>
    let ds := dropSign rest
    (c == 'e' || c == 'E') && !ds.isEmpty && ds.all isDigit

/-- The names of numbers that are not finite. -/
def numberNames : List String :=
  ["inf", "infinity", "nan"]

/-- Whether a text is a number: digits with at most one point among them and a power of ten after
them, or a name in any case. -/
def isNumber (s : List Char) : Bool :=
  let s := dropSign s
  let whole := s.takeWhile isDigit
  let rest := s.drop whole.length
  let fraction := if rest.head? = some '.' then rest.tail.takeWhile isDigit else []
  let power := if rest.head? = some '.' then rest.tail.drop fraction.length else rest
  numberNames.contains (String.ofList (s.map Char.toLower)) ||
    (!(whole ++ fraction).isEmpty && isPower power)

/-- Whether a text is the value of a field: a number, or else a pattern that can be matched. -/
def isValue (s : List Char) : Bool :=
  isNumber s || (Pattern.read? s).any Pattern.isSupported

/-- Whether a field of a span can be read. What follows a second equals sign is passed over. -/
def isField (s : List Char) : Bool :=
  match splitAt '=' s with
  | _ :: value :: _ => isValue value
  | _ => !s.isEmpty

/-- Where in a directive a character stands. Each state remembers the directive from where its part
begins. -/
inductive Place where
  | start
  /-- In the level or the target that comes first. -/
  | target
  | span
  | field (from_ : Nat)
  | fields
  | after
  /-- In the level after an equals sign. -/
  | level (from_ : Nat)

/-- The place after one more character, the `i`-th, of a directive; nothing if it may not stand
there. -/
def Place.next? (whole : List Char) (i : Nat) (c : Char) : Place → Option Place
  | start => if c = '[' then some span else if startsTarget c then some target else none
  | target => some (if c = '=' then level (i + 1) else if c = '[' then span else target)
  | span => some (if c = ']' then after else if c = '\x7b' then field (i + 1) else span)
  | field from_ =>
    if c = '\x7d' then if isField ((whole.take i).drop from_) then some fields else none
    else some (field from_)
  | fields => if c = ']' then some after else none
  | after => if c = '=' then some (level (i + 1)) else none
  | level from_ => some (level from_)

/-- Whether a directive may end at a place. -/
def Place.isEnd (whole : List Char) : Place → Bool
  | target | after => true
  | level from_ => isLevel (whole.drop from_)
  | start | span | field _ | fields => false

/-- Whether a text is a directive. Blanks around it are passed over, but its parts are taken from
the text with them. -/
def isDirective (s : List Char) : Bool :=
  let trimmed := ((skipBlanks s).reverse.dropWhile isBlank).reverse
  let place := trimmed.zipIdx.foldlM (fun p (c, i) => p.next? s i c) Place.start
  place.any (·.isEnd s)

/-- Whether a text is a list of directives; empty ones are passed over. -/
def isFilter (s : String) : Bool :=
  (splitAt ',' s.toList).all fun d => d.isEmpty || isDirective d

/-- Why a log cannot be set up. -/
inductive SetupError where
  | filter
  | installed
  deriving DecidableEq, Repr

/-- The wording of a set-up error, where it is settled. -/
def SetupError.message? : SetupError → Option String
  | filter => none
  | installed => some ("failed to set tracing subscriber: " ++
      "a global default trace dispatcher has already been set")

/-- Sets up a log, where `installed` tells whether there is one already. The filter of the
environment comes before the one of the configuration, unless it cannot be read. -/
def setUp (environment : Option String) (level : String) (installed : Bool) :
    Except SetupError Unit :=
  if environment.any isFilter || isFilter level then
    if installed then .error .installed else .ok ()
  else .error .filter

end ReadOnce.Log
