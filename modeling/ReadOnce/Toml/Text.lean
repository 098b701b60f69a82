import ReadOnce.Text.Hexadecimal

/-!
# Texts of a TOML document

Texts stand between double quotes, with escapes, or between single quotes, without; between three
quotes they may have several lines. Control characters must be escaped.
-/

namespace ReadOnce.Toml

open ReadOnce.Text

/-- Reads something off the front of a text. -/
abbrev Reader (α : Type) := List Char → Option (α × List Char)

/-- Whether a character may stand unescaped on a line. -/
def isPlain (c : Char) : Bool :=
  c == '\t' || (0x20 ≤ c.toNat && c != '\x7f')

/-- The character that follows a backslash, and what is left. -/
def escaped : Reader Char
  | 'b' :: rest => some ('\x08', rest)
  | 't' :: rest => some ('\t', rest)
  | 'n' :: rest => some ('\n', rest)
  | 'f' :: rest => some ('\x0c', rest)
  | 'r' :: rest => some ('\r', rest)
  | '"' :: rest => some ('"', rest)
  | '\\' :: rest => some ('\\', rest)
  | 'u' :: rest =>
    if 4 ≤ rest.length then (charOfHex? (rest.take 4)).map (·, rest.drop 4) else none
  | 'U' :: rest =>
    if 8 ≤ rest.length then (charOfHex? (rest.take 8)).map (·, rest.drop 8) else none
  | _ => none

/-- The rest of a text between double quotes on one line; the first argument bounds its length. -/
def quotedBody : Nat → Reader (List Char)
  | 0, _ => none
  | _ + 1, '"' :: rest => some ([], rest)
  | n + 1, '\\' :: rest => do
    let (c, rest) ← escaped rest
    let (cs, rest) ← quotedBody n rest
    some (c :: cs, rest)
  | n + 1, c :: rest =>
    if isPlain c then do
      let (cs, rest) ← quotedBody n rest
      some (c :: cs, rest)
    else none
  | _ + 1, [] => none

/-- The rest of a text between single quotes on one line. -/
def literalBody : Reader (List Char)
  | '\'' :: rest => some ([], rest)
  | c :: rest =>
    if isPlain c then do
      let (cs, rest) ← literalBody rest
      some (c :: cs, rest)
    else none
  | [] => none

/-- A text without the blanks of a line. -/
def skipBlank : List Char → List Char :=
  List.dropWhile fun c => c == ' ' || c == '\t'

/-- A text without a line end. -/
def lineEnd? : List Char → Option (List Char)
  | '\n' :: rest => some rest
  | '\r' :: '\n' :: rest => some rest
  | _ => none

/-- A text without the blanks and line ends at its front. -/
def skipLines : List Char → List Char
  | '\r' :: '\n' :: rest => skipLines rest
  | c :: rest => if c = ' ' ∨ c = '\t' ∨ c = '\n' then skipLines rest else c :: rest
  | [] => []

/-- Three or more quotes that close a text of several lines: up to two of them belong to it. -/
def closing (quote : Char) (s : List Char) : Option (List Char × List Char) :=
  let n := (s.takeWhile (· == quote)).length
  if n < 3 then none
  else
    let extra := min (n - 3) 2
    some (List.replicate extra quote, s.drop (extra + 3))

/-- The rest of a text of several lines between `quote` characters; the first argument bounds its
length. Escapes are read where the quote is the double one. -/
def linesBody (quote : Char) : Nat → Reader (List Char)
  | 0, _ => none
  | n + 1, s =>
    match closing quote s with
    | some r => some r
    | none =>
      match lineEnd? s with
      | some rest => do
        let (cs, rest) ← linesBody quote n rest
        some ('\n' :: cs, rest)
      | none =>
        match s with
        | [] => none
        | c :: rest =>
          if c = '\\' ∧ quote = '"' then
            match lineEnd? (skipBlank rest) with
            | some rest => linesBody quote n (skipLines rest)
            | none => do
              let (c, rest) ← escaped rest
              let (cs, rest) ← linesBody quote n rest
              some (c :: cs, rest)
          else if isPlain c then do
            let (cs, rest) ← linesBody quote n rest
            some (c :: cs, rest)
          else none

/-- A text on one line. -/
def lineText : Reader String
  | '"' :: rest => (quotedBody rest.length rest).map fun (cs, rest) => (String.ofList cs, rest)
  | '\'' :: rest => (literalBody rest).map fun (cs, rest) => (String.ofList cs, rest)
  | _ => none

/-- The rest of a text of several lines, after the quotes; a line end that follows them is left
out. -/
def linesText (quote : Char) (s : List Char) : Option (String × List Char) :=
  let s := (lineEnd? s).getD s
  (linesBody quote s.length s).map fun (cs, rest) => (String.ofList cs, rest)

def text : Reader String
  | '"' :: '"' :: '"' :: rest => linesText '"' rest
  | '\'' :: '\'' :: '\'' :: rest => linesText '\'' rest
  | s => lineText s

end ReadOnce.Toml
