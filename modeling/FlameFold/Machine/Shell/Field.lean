import FlameFold.FileSystem.Lookup
import FlameFold.Machine.Shell.Pattern

/-!
# Fields

A word of a command becomes fields when it is expanded: separators in the values of
variables cut it, and names of files take the place of patterns.
-/

namespace FlameFold.Machine.Shell

/-- The text of bytes without the newlines at their end. -/
def substituted (bytes : List UInt8) : String :=
  Text.decodeLossy ((bytes.reverse.dropWhile (· == 0x0A)).reverse.filter (· != 0))

/-- The separators when a script does not say others. -/
def usualSeparators : String := " \t\n"

/-- Whether a separator is white space, of which a row separates like one. -/
def isWhite (c : Char) : Bool := c == ' ' || c == '\t' || c == '\n'

/-- The fields of a word that is being expanded: those that are complete, and the one
that is not, if one has begun. -/
structure Fields where
  /-- The complete fields, the last one first. -/
  done : List Marked
  /-- The field that is not complete, its last character first. -/
  begun : Option Marked
  /-- Whether white space has completed a field, so that a separator which is not white
  space belongs to it. -/
  cut : Bool

namespace Fields

/-- No fields. -/
def none : Fields := ⟨[], .none, false⟩

/-- Add characters to the field that is not complete. -/
def add (fields : Fields) (text : String) (quoted : Bool) : Fields :=
  if text.isEmpty ∧ ¬ quoted then fields
  else { fields with
    begun := some (text.toList.foldl (fun field c => (c, quoted) :: field)
      (fields.begun.getD []))
    cut := false }

/-- Complete the field. -/
def close (fields : Fields) : Fields :=
  match fields.begun with
  | some field => { fields with done := field.reverse :: fields.done, begun := .none }
  | .none => fields

/-- Take one character of a value that separators cut into fields. -/
def take (separators : List Char) (fields : Fields) (c : Char) : Fields :=
  if !separators.contains c then fields.add (String.ofList [c]) false
  else if isWhite c then { fields.close with cut := fields.begun.isSome || fields.cut }
  else if fields.cut ∧ fields.begun.isNone then { fields with cut := false }
  else ({ fields with begun := some (fields.begun.getD []) }).close

/-- Add a value that separators cut into fields. -/
def split (fields : Fields) (separators text : String) : Fields :=
  text.toList.foldl (take separators.toList) fields

/-- Add a value, which is cut unless it is quoted. -/
def addValue (fields : Fields) (separators : String) (quoted : Bool) (value : String) : Fields :=
  if quoted then fields.add value true else fields.split separators value

/-- Add some words, which are cut one by one. -/
def splitEach (fields : Fields) (separators : String) : List String → Fields
  | [] => fields
  | [last] => fields.split separators last
  | word :: rest => splitEach (fields.split separators word).close separators rest

/-- Add each of some words as a field of its own. -/
def addEach (fields : Fields) : List String → Fields
  | [] => fields
  | [last] => fields.add last true
  | word :: rest => addEach (fields.add word true).close rest

/-- The fields in order. -/
def all (fields : Fields) : List Marked := fields.close.done.reverse

end Fields

/-- The text of a field. -/
def fieldText (field : Marked) : String := String.ofList (field.map Prod.fst)

/-- Cut a line into as many texts as are wanted; the last one takes what is left. Quoted
characters do not separate. -/
def pieces (separators : List Char) : Nat → Marked → List String
  | 0, _ => []
  | wanted + 1, line =>
    let isWhiteHere (p : Char × Bool) : Bool := !p.2 && separators.contains p.1 && isWhite p.1
    let line := line.dropWhile isWhiteHere
    let (field, after) := line.span fun p => p.2 || !separators.contains p.1
    let after := after.dropWhile isWhiteHere
    let after := match after with
      | p :: rest =>
        if !p.2 ∧ separators.contains p.1 ∧ ¬ isWhite p.1 then rest.dropWhile isWhiteHere
        else after
      | [] => []
    if wanted = 0 then
      let last := (line.reverse.dropWhile isWhiteHere).reverse
      [fieldText (if after.isEmpty then field else last)]
    else fieldText field :: pieces separators wanted after

/-- The paths that lead on from a place and match the pieces of a pattern; a name that begins
with a dot is found only where the dot is given. -/
def globFrom (files : FileSystem) : List Marked → Location → List String
  | [], _ => [""]
  | piece :: rest, place =>
    let found := ((files.entries place).map fun entry => Text.decodeLossy entry.1).filter
      fun name => fits piece name.toList &&
        (name.toList.head? != some '.' || piece.head?.map Prod.fst = some '.')
    let names := if isPattern piece then found.mergeSort fun a b => a ≤ b else [fieldText piece]
    names.flatMap fun name =>
      match files.step place (Text.encode name) with
      | .error _ => []
      | .ok next => (globFrom files rest next).map fun after =>
        if rest.isEmpty then name else name ++ "/" ++ after

/-- The paths that a field matches, or else the field itself. -/
def globbed (files : FileSystem) (field : Marked) : List String :=
  if isPattern field then
    let pieces := field.splitOnP fun p => p.1 == '/'
    let isAbsolute := field.head?.map Prod.fst = some '/'
    let found := if isAbsolute then (globFrom files (pieces.drop 1) []).map ("/" ++ ·)
      else globFrom files pieces files.here
    if found.isEmpty then [fieldText field] else found
  else [fieldText field]

/-- Cut the shortest or the longest beginning or end that matches a pattern. -/
def cutMatch (front longest : Bool) (pattern : Marked) (text : String) : String :=
  let cs := text.toList
  let sizes := List.range (cs.length + 1)
  let found (size : Nat) : Bool :=
    fits pattern (if front then cs.take size else cs.drop (cs.length - size))
  match if longest then sizes.reverse.find? found else sizes.find? found with
  | none => text
  | some size => String.ofList (if front then cs.drop size else cs.take (cs.length - size))

end FlameFold.Machine.Shell
