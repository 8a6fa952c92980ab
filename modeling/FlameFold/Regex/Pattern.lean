/-!
# Patterns

A pattern is a regular expression as it is written. Each of its parts knows where it
stands, so that what cannot be meant can be shown.
-/

namespace FlameFold.Regex

/-- A stretch of a pattern: the number of characters before it, and before its end. -/
structure Span where
  /-- Where it begins. -/
  first : Nat
  /-- Where it ends. -/
  last : Nat
  deriving DecidableEq, Repr

/-- A way of reading a part of a pattern that can be turned on and off. -/
inductive Flag where
  /-- Letters stand for both cases. -/
  | anyCase
  /-- Lines have a beginning and an end. -/
  | manyLines
  /-- A point stands for line feeds too. -/
  | wholeText
  /-- Long matches come first or last. -/
  | swapGreed
  /-- Characters are meant, and not bytes. -/
  | unicode
  /-- Lines may end in a return and a line feed. -/
  | crlf
  /-- Blanks and comments mean nothing. -/
  | loose
  deriving DecidableEq, Repr

/-- The flag of a letter. -/
def Flag.ofLetter? (c : Char) : Option Flag :=
  match c with
  | 'i' => some .anyCase
  | 'm' => some .manyLines
  | 's' => some .wholeText
  | 'U' => some .swapGreed
  | 'u' => some .unicode
  | 'R' => some .crlf
  | 'x' => some .loose
  | _ => none

/-- Flags that are turned on or off. -/
abbrev FlagChanges := List (Flag × Bool)

/-- What an assertion asks. -/
inductive Assertion where
  /-- The beginning of the text or of a line. -/
  | lineStart
  /-- The end of the text or of a line. -/
  | lineStop
  /-- The beginning of the text. -/
  | start
  /-- The end of the text. -/
  | stop
  /-- An edge of a word. -/
  | wordEdge
  /-- No edge of a word. -/
  | noWordEdge
  /-- The beginning of a word. -/
  | wordStart
  /-- The end of a word. -/
  | wordStop
  /-- No character of a word before. -/
  | noWordBefore
  /-- No character of a word after. -/
  | noWordAfter
  deriving DecidableEq, Repr

/-- A character that is written in a pattern. -/
structure Literal where
  /-- Where it stands. -/
  span : Span
  /-- The character. -/
  char : Char
  /-- Whether it is written as a byte, with two digits in base sixteen. -/
  isByte : Bool
  deriving DecidableEq, Repr

/-- The name of a property of characters. -/
inductive Property where
  /-- The property itself. -/
  | named (name : String)
  /-- A value of a property. -/
  | valued (name value : String)
  deriving DecidableEq, Repr

/-- A class with a short name. -/
inductive ShortClass where
  /-- The digits. -/
  | digits
  /-- The white space. -/
  | spaces
  /-- The characters of words. -/
  | wordChars
  deriving DecidableEq, Repr

/-- How two sets are joined. -/
inductive SetJoint where
  /-- What is in both. -/
  | common
  /-- What is in the first only. -/
  | without
  /-- What is in one only. -/
  | difference
  deriving DecidableEq, Repr

/-- A part of a bracketed class. -/
inductive ClassPart where
  /-- Nothing. -/
  | empty (span : Span)
  /-- A character. -/
  | literal (literal : Literal)
  /-- The characters from one to another. -/
  | range (span : Span) (first last : Literal)
  /-- A class with a name in colons. -/
  | named (span : Span) (name : String) (negated : Bool)
  /-- A class with a short name. -/
  | short (span : Span) (name : ShortClass) (negated : Bool)
  /-- The characters with a property. -/
  | property (span : Span) (property : Property) (negated : Bool)
  /-- A class in brackets of its own. -/
  | bracketed (span : Span) (negated : Bool) (inside : ClassPart)
  /-- Parts one after another. -/
  | union (span : Span) (parts : List ClassPart)
  /-- Two sets joined. -/
  | joined (joint : SetJoint) (a b : ClassPart)

/-- Where a part of a class stands. -/
def ClassPart.span : ClassPart → Span
  | .empty span => span
  | .literal written => written.span
  | .range span _ _ | .named span _ _ | .short span _ _ | .property span _ _
  | .bracketed span _ _ | .union span _ => span
  | .joined _ a b => ⟨a.span.first, b.span.last⟩

/-- A part of a pattern. -/
inductive Pattern where
  /-- Nothing. -/
  | empty (span : Span)
  /-- Flags for what follows in the same group. -/
  | flags (span : Span) (changes : FlagChanges)
  /-- A character. -/
  | literal (literal : Literal)
  /-- A point. -/
  | dot (span : Span)
  /-- An assertion. -/
  | assertion (span : Span) (assertion : Assertion)
  /-- A class with a short name. -/
  | short (span : Span) (name : ShortClass) (negated : Bool)
  /-- The characters with a property. -/
  | property (span : Span) (property : Property) (negated : Bool)
  /-- A class in brackets. -/
  | bracketed (span : Span) (negated : Bool) (inside : ClassPart)
  /-- A part repeated. -/
  | repeated (span : Span) (least : Nat) (most : Option Nat) (part : Pattern)
  /-- A part in parentheses, with flags of its own. -/
  | group (span : Span) (changes : FlagChanges) (captures : Bool) (part : Pattern)
  /-- Any of some parts. -/
  | branches (span : Span) (parts : List Pattern)
  /-- Parts one after another. -/
  | sequence (span : Span) (parts : List Pattern)

namespace Pattern

/-- Where a part of a pattern stands. -/
def span : Pattern → Span
  | .literal written => written.span
  | .empty span | .flags span _ | .dot span | .assertion span _ | .short span _ _
  | .property span _ _ | .bracketed span _ _ | .repeated span _ _ _ | .group span _ _ _
  | .branches span _ | .sequence span _ => span

/-- Whether a part can be repeated. -/
def canRepeat : Pattern → Bool
  | .empty _ | .flags _ _ => false
  | _ => true

/-- Parts one after another, as one part. -/
def ofSequence (span : Span) : List Pattern → Pattern
  | [] => .empty span
  | [part] => part
  | parts => .sequence span parts

end Pattern

mutual

/-- Where a class first stands too deep, `room` levels being left. -/
def ClassPart.tooDeep? (room : Nat) : ClassPart → Option Span
  | .empty _ | .literal _ | .range _ _ _ | .named _ _ _ | .short _ _ _ | .property _ _ _ => none
  | .bracketed span _ inside => if room = 0 then some span else inside.tooDeep? (room - 1)
  | .union span parts => if room = 0 then some span else ClassPart.anyTooDeep? (room - 1) parts
  | .joined _ a b =>
    if room = 0 then some ⟨a.span.first, b.span.last⟩
    else (a.tooDeep? (room - 1)).or (b.tooDeep? (room - 1))

/-- Where one of some classes first stands too deep. -/
def ClassPart.anyTooDeep? (room : Nat) : List ClassPart → Option Span
  | [] => none
  | part :: rest => (part.tooDeep? room).or (ClassPart.anyTooDeep? room rest)

end

mutual

/-- Where a pattern first has a part too deep in others, `room` levels being left. -/
def Pattern.tooDeep? (room : Nat) : Pattern → Option Span
  | .empty _ | .flags _ _ | .literal _ | .dot _ | .assertion _ _ | .short _ _ _
  | .property _ _ _ => none
  | .bracketed span _ inside => if room = 0 then some span else inside.tooDeep? (room - 1)
  | .repeated span _ _ part => if room = 0 then some span else part.tooDeep? (room - 1)
  | .group span _ _ part => if room = 0 then some span else part.tooDeep? (room - 1)
  | .branches span parts => if room = 0 then some span else Pattern.anyTooDeep? (room - 1) parts
  | .sequence span parts => if room = 0 then some span else Pattern.anyTooDeep? (room - 1) parts

/-- Where one of some patterns first has a part too deep. -/
def Pattern.anyTooDeep? (room : Nat) : List Pattern → Option Span
  | [] => none
  | part :: rest => (part.tooDeep? room).or (Pattern.anyTooDeep? room rest)

end

end FlameFold.Regex
