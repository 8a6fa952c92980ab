import FlameFold.Toml.Reader

/-!
# Reading a settings document

A document is read line by line: keys with their values, headers of tables, comments
and blank lines. A header says which table the keys after it belong to.
-/

namespace FlameFold.Toml

/-- A document that has been read up to some line. -/
structure Document where
  /-- The keys and values so far. -/
  entries : Entries
  /-- The header that the next keys belong to. -/
  header : List String

namespace Document

/-- The document with nothing in it. -/
def empty : Document := ⟨[], []⟩

/-- Pass spaces, a comment if there is one, and the end of the line or of the text. -/
def endLine (cs : List Char) : Option (List Char) :=
  match skipComment (skipSpaces cs) with
  | [] => some []
  | rest => lineEnd? rest

/-- Pass the characters `mark`. -/
def pass (mark cs : List Char) : Option (List Char) :=
  if mark.isPrefixOf cs then some (cs.drop mark.length) else none

/-- Read one line of a document, from its first character that is no space. -/
def readLine (document : Document) : List Char → Option (Document × List Char)
  | '[' :: '[' :: rest => do
    let ((path, key), rest) ← Key.read rest
    let rest ← endLine (← pass [']', ']'] rest)
    let entries ← document.entries.openElement path key
    return (⟨entries, path ++ [key]⟩, rest)
  | '[' :: rest => do
    let ((path, key), rest) ← Key.read rest
    let rest ← endLine (← pass [']'] rest)
    let entries ← document.entries.openTable path key
    return (⟨entries, path ++ [key]⟩, rest)
  | '#' :: rest => (endLine ('#' :: rest)).map fun rest => (document, rest)
  | cs =>
    match lineEnd? cs with
    | some rest => some (document, rest)
    | none => do
      let ((path, key), rest) ← Key.read cs
      let (value, rest) ← Value.read (skipSpaces (← pass ['='] rest))
      let rest ← endLine rest
      let entries ← document.entries.setUnder document.header path key value
      return (⟨entries, document.header⟩, rest)

/-- Read at most `fuel` lines. -/
def readLines : Nat → Document → List Char → Option Document
  | 0, _, _ => none
  | fuel + 1, document, cs =>
    match skipSpaces cs with
    | [] => some document
    | start => do
      let (document, rest) ← document.readLine start
      readLines fuel document rest

/-- Drop the mark that may stand before the first character of a text. -/
def withoutMark : List Char → List Char
  | '\uFEFF' :: rest => rest
  | cs => cs

/-- The keys and values of a document; nothing if the text is no document. -/
def parse? (text : String) : Option Entries :=
  let cs := withoutMark text.toList
  (readLines (cs.length + 1) empty cs).map Document.entries

end Document

end FlameFold.Toml
