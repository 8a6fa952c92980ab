import FlameFold.Regex.Pattern
import FlameFold.Text.Lines

/-!
# Faults of patterns

What can be wrong with a pattern, and how that is shown: the pattern, a mark under each
stretch that is meant, and the wording of the fault.
-/

namespace FlameFold.Regex

/-- What is wrong with a pattern. -/
inductive FaultKind where
  /-- An escape has no meaning in a class. -/
  | classEscape
  /-- A range ends before it begins. -/
  | classRange
  /-- A range begins or ends in a class. -/
  | rangeLiteral
  /-- A class is not closed. -/
  | openClass
  /-- A number is too large. -/
  | badNumber
  /-- Braces hold no digit. -/
  | hexEmpty
  /-- Digits stand for no character. -/
  | hexInvalid
  /-- Something stands in the place of a digit. -/
  | hexDigit
  /-- An escape is cut off. -/
  | escapeEnd
  /-- An escape has no meaning. -/
  | escapeUnknown
  /-- A negation has no flag. -/
  | flagDangling
  /-- A flag is named twice. -/
  | flagTwice
  /-- Flags are negated twice. -/
  | negationTwice
  /-- Flags are cut off. -/
  | flagEnd
  /-- A letter is no flag. -/
  | flagUnknown
  /-- Two groups have one name. -/
  | nameTwice
  /-- A name is empty. -/
  | nameEmpty
  /-- A name has a character that it may not have. -/
  | nameInvalid
  /-- A name is cut off. -/
  | nameEnd
  /-- A group is not closed. -/
  | openGroup
  /-- A group is not opened. -/
  | closedGroup
  /-- Parts stand deeper in one another than the limit. -/
  | tooDeep (limit : Nat)
  /-- A count ends before it begins. -/
  | countRange
  /-- A count has no digit. -/
  | countEmpty
  /-- A count is not closed. -/
  | openCount
  /-- Nothing is there to be repeated. -/
  | nothingRepeated
  /-- The name of an edge is not closed. -/
  | openEdge
  /-- The name of an edge has no meaning. -/
  | edgeUnknown
  /-- The name of an edge, or a count, is cut off. -/
  | edgeEnd
  /-- A property cannot be named so. -/
  | propertyInvalid
  /-- A group is asked for. -/
  | backreference
  /-- A stretch beside the match is asked for. -/
  | lookAround
  /-- A property or a character is asked for where bytes are meant. -/
  | notOfBytes
  /-- A part can match bytes that are no text. -/
  | notText
  /-- A property is not known. -/
  | propertyUnknown
  /-- A value of a property is not known. -/
  | valueUnknown
  /-- A short name needs a table. -/
  | shortUnknown
  /-- The cases of letters need a table. -/
  | noCases
  deriving DecidableEq, Repr

/-- The wording of what is wrong. -/
def FaultKind.message : FaultKind → String
  | .classEscape => "invalid escape sequence found in character class"
  | .classRange => "invalid character class range, the start must be <= the end"
  | .rangeLiteral => "invalid range boundary, must be a literal"
  | .openClass => "unclosed character class"
  | .badNumber => "decimal literal invalid"
  | .hexEmpty => "hexadecimal literal empty"
  | .hexInvalid => "hexadecimal literal is not a Unicode scalar value"
  | .hexDigit => "invalid hexadecimal digit"
  | .escapeEnd => "incomplete escape sequence, reached end of pattern prematurely"
  | .escapeUnknown => "unrecognized escape sequence"
  | .flagDangling => "dangling flag negation operator"
  | .flagTwice => "duplicate flag"
  | .negationTwice => "flag negation operator repeated"
  | .flagEnd => "expected flag but got end of regex"
  | .flagUnknown => "unrecognized flag"
  | .nameTwice => "duplicate capture group name"
  | .nameEmpty => "empty capture group name"
  | .nameInvalid => "invalid capture group character"
  | .nameEnd => "unclosed capture group name"
  | .openGroup => "unclosed group"
  | .closedGroup => "unopened group"
  | .tooDeep limit => "exceed the maximum number of nested parentheses/brackets (" ++
      Nat.repr limit ++ ")"
  | .countRange => "invalid repetition count range, the start must be <= the end"
  | .countEmpty => "repetition quantifier expects a valid decimal"
  | .openCount => "unclosed counted repetition"
  | .nothingRepeated => "repetition operator missing expression"
  | .openEdge => "special word boundary assertion is either unclosed or contains an " ++
      "invalid character"
  | .edgeUnknown => "unrecognized special word boundary assertion, valid choices are: " ++
      "start, end, start-half or end-half"
  | .edgeEnd => "found either the beginning of a special word boundary or a bounded " ++
      "repetition on a \\b with an opening brace, but no closing brace"
  | .propertyInvalid => "invalid Unicode character class"
  | .backreference => "backreferences are not supported"
  | .lookAround => "look-around, including look-ahead and look-behind, is not supported"
  | .notOfBytes => "Unicode not allowed here"
  | .notText => "pattern can match invalid UTF-8"
  | .propertyUnknown => "Unicode property not found"
  | .valueUnknown => "Unicode property value not found"
  | .shortUnknown => "Unicode-aware Perl class not found (make sure the unicode-perl " ++
      "feature is enabled)"
  | .noCases => "Unicode-aware case insensitivity matching is not available (make sure " ++
      "the unicode-case feature is enabled)"

/-- Something wrong at a place in a pattern. -/
structure Fault where
  /-- What is wrong. -/
  kind : FaultKind
  /-- Where. -/
  span : Span
  /-- Another place that has to do with it. -/
  other : Option Span
  deriving DecidableEq, Repr

/-- Why a pattern is not used. -/
inductive Refusal where
  /-- Something in it is wrong. -/
  | faulty (pattern : String) (fault : Fault)
  /-- It would take more bytes than the limit. -/
  | tooLarge (limit : Nat)
  /-- It asks for edges of words, which need a table. -/
  | noEdges
  deriving DecidableEq, Repr

/-- The line and the column of a place in a pattern, both counted from one. -/
def position (pattern : List Char) (place : Nat) : Nat × Nat :=
  let before := pattern.take place
  (before.count '\n' + 1, (before.reverse.takeWhile (· != '\n')).length + 1)

/-- Marks under some columns of a line, each given by its first column and the one after its
last; the column `next` comes next. -/
def marks (next : Nat) : List (Nat × Nat) → String
  | [] => ""
  | (first, last) :: rest =>
    let size := max 1 (last - first)
    String.ofList (List.replicate (first - next) ' ' ++ List.replicate size '^') ++
      marks (max next first + size) rest

/-- The columns of the spans that lie on one line, in order. -/
def columnsOn (pattern : List Char) (line : Nat) (spans : List Span) : List (Nat × Nat) :=
  let found := spans.filterMap fun span =>
    let (a, first) := position pattern span.first
    let (b, last) := position pattern span.last
    if a = line ∧ b = line then some (first, last) else none
  found.mergeSort fun a b => a.1 ≤ b.1

/-- The lines of a pattern with marks below them; `width` is that of the numbers of the
lines, which are left out where it is zero. -/
def notated (pattern : List Char) (spans : List Span) (width : Nat) : String :=
  let lines := Text.lines (String.ofList pattern)
  String.join <| lines.zipIdx.map fun (text, i) =>
    let number := Nat.repr (i + 1)
    let front :=
      if width = 0 then "    "
      else String.ofList (List.replicate (width - number.length) ' ') ++ number ++ ": "
    let columns := columnsOn pattern (i + 1) spans
    front ++ text ++ "\n" ++
      if columns.isEmpty then ""
      else String.ofList (List.replicate front.length ' ') ++ marks 1 columns ++ "\n"

/-- A note about a span over several lines. -/
def spanNote (pattern : List Char) (span : Span) : Option String :=
  let (a, first) := position pattern span.first
  let (b, last) := position pattern span.last
  if a = b then none
  else some ("on line " ++ Nat.repr a ++ " (column " ++ Nat.repr first ++ ") through line " ++
    Nat.repr b ++ " (column " ++ Nat.repr (last - 1) ++ ")\n")

/-- The wording of a refusal. -/
def Refusal.message : Refusal → String
  | .tooLarge limit => "Compiled regex exceeds size limit of " ++ Nat.repr limit ++ " bytes."
  | .noEdges => "error building NFA"
  | .faulty pattern fault =>
    let chars := pattern.toList
    let spans := (fault.span :: fault.other.toList).mergeSort fun a b => a.first ≤ b.first
    let shown :=
      if chars.contains '\n' then
        let divider := String.ofList (List.replicate 79 '~') ++ "\n"
        let count := (Text.lines pattern).length + if chars.getLast? = some '\n' then 1 else 0
        let width := if count ≤ 1 then 0 else (Nat.repr count).length
        divider ++ notated chars spans width ++ divider ++
          String.join (spans.filterMap (spanNote chars))
      else notated chars spans 0
    "regex parse error:\n" ++ shown ++ "error: " ++ fault.kind.message

end FlameFold.Regex
