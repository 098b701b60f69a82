import ReadOnce.Text.Blank
import ReadOnce.Text.Utf8

/-!
# Files inside messages

A message that holds a file starts with a marker in the clear. Once opened, the marker is followed
by a header line, with the file's name and content type closed by a delimiter each, and by the
bytes of the file. The header is looked for in a window of bounded size after the marker.
-/

namespace ReadOnce

namespace Framing

/-- The bytes that start a message with a file. -/
def marker : Bytes := Text.utf8 "!!FILE!!"

/-- The number of bytes after the marker among which the header must end. -/
def window : Nat := 4096

def maxNameLength : Nat := 255

def newline : UInt8 := 10

/-- What a header tells of a file. -/
structure Header where
  name : String
  contentType : String
  /-- Where the bytes of the file start. -/
  dataOffset : Nat
  deriving DecidableEq, Repr

/-- Whether data holds a file: something follows the marker. -/
def isFile (data : Bytes) : Bool :=
  marker.length < data.length && marker.isPrefixOf data

/-- The text before the first delimiter and the text after it, if there is one. -/
def cut : List Char → List Char × Option (List Char)
  | [] => ([], none)
  | '!' :: '!' :: rest => ([], some rest)
  | c :: rest => let (before, after) := cut rest; (c :: before, after)

/-- The name and content type that a header line holds. -/
def fields? (line : List Char) : Option (String × String) :=
  match cut line with
  | (_, none) => none
  | (name, some rest) => some (String.ofList name, String.ofList (cut rest).1)

/-- The bytes before the first newline, if there is one. -/
def line? (data : Bytes) : Option Bytes :=
  if newline ∈ data then some (data.takeWhile (· != newline)) else none

/-- The header of data that holds a file. -/
def parse? (data : Bytes) : Option Header :=
  if isFile data then
    match line? ((data.drop marker.length).take window) with
    | none => none
    | some line =>
      match Text.ofUtf8? line with
      | none => none
      | some text =>
        match fields? text.toList with
        | none => none
        | some (name, contentType) =>
          some { name, contentType, dataOffset := marker.length + line.length + 1 }
  else none

def encodeHeader (name contentType : String) : Bytes :=
  Text.utf8 (name ++ "!!" ++ contentType ++ "!!\n")

/-- Whether a text holds two given characters in a row. -/
def hasPair (a b : Char) : List Char → Bool
  | [] => false
  | c :: rest => (c == a && rest.head? == some b) || hasPair a b rest

/-- Whether a name may be stored: it is neither empty nor too long, would not be misread as the end
of a field, and cannot leave the directory that it is saved to. -/
def isValidName (name : String) : Bool :=
  let cs := name.toList
  !cs.isEmpty && (Text.utf8 name).length ≤ maxNameLength && !hasPair '!' '!' cs &&
    !hasPair '.' '.' cs && !cs.any (fun c => c == '/' || c == '\\') && !cs.any Text.isControl

/-- Whether a content type may be stored. -/
def isValidContentType (contentType : String) : Bool :=
  !hasPair '!' '!' contentType.toList && !contentType.toList.any Text.isControl

end Framing

end ReadOnce
