/-!
# Lines of a text

Two readings of a text as lines. Cutting at the newline alone keeps an empty
last piece; the reading by terminators drops it and takes a carriage return
before a newline as part of the terminator.
-/

namespace FlameFold.Text

/-- The pieces between newlines; a text without a newline is one piece. -/
def pieces (text : String) : List String :=
  (text.toList.splitOn '\n').map String.ofList

/-- Drop one carriage return at the end. -/
def withoutReturn (line : List Char) : List Char :=
  if line.getLast? = some '\r' then line.dropLast else line

/-- The lines of a text. Every piece but the last was closed by a newline, with
or without a carriage return before it; the last piece is a line only if it is
not empty. -/
def lines (text : String) : List String :=
  let cut := text.toList.splitOn '\n'
  (cut.dropLast.map withoutReturn ++ (cut.getLast?.filter (· ≠ [])).toList).map String.ofList

end FlameFold.Text
