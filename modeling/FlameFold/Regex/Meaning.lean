import FlameFold.Regex.Basic
import FlameFold.Regex.Reader

/-!
# What patterns mean

A pattern means a regular expression. The flags that are on decide what its parts mean. No
table of all characters is at hand: properties, short names, cases of letters and edges of
words are refused where they would need one, and mean what they mean for the characters
below 128 where bytes are asked for.
-/

namespace FlameFold.Regex

/-- The flags that are on, and what has been asked for so far. -/
structure Mode where
  /-- Letters stand for both cases. -/
  anyCase : Bool
  /-- Lines have a beginning and an end. -/
  manyLines : Bool
  /-- A point stands for line feeds too. -/
  wholeText : Bool
  /-- Characters are meant, and not bytes. -/
  unicode : Bool
  /-- Lines may end in a return and a line feed. -/
  crlf : Bool
  /-- Edges of words have been asked for that need a table. -/
  edges : Bool
  deriving DecidableEq, Repr

namespace Mode

/-- The flags that are on at first. -/
def start : Mode := ⟨false, false, false, true, false, false⟩

/-- Turn a flag on or off. -/
def change (mode : Mode) : Flag × Bool → Mode
  | (.anyCase, on) => { mode with anyCase := on }
  | (.manyLines, on) => { mode with manyLines := on }
  | (.wholeText, on) => { mode with wholeText := on }
  | (.unicode, on) => { mode with unicode := on }
  | (.crlf, on) => { mode with crlf := on }
  | (.swapGreed, _) | (.loose, _) => mode

/-- Turn flags on or off. -/
def changeAll (mode : Mode) (changes : FlagChanges) : Mode := changes.foldl change mode

/-- Take back the flags of another mode. -/
def restore (mode before : Mode) : Mode := { before with edges := mode.edges }

end Mode

/-- A step of finding what a pattern means. -/
abbrev Meaning := StateT Mode (Except Fault)

/-- Something is wrong with a stretch of a pattern. -/
def refuse (kind : FaultKind) (span : Span) : Meaning α := throw ⟨kind, span, none⟩

/-- The set with both cases of its letters, if they are asked for. -/
def folded (span : Span) (set : CharSet) : Meaning CharSet := do
  let mode ← get
  if !mode.anyCase || set.isVoid then return set
  else if mode.unicode then refuse .noCases span
  else return .anyCase set

/-- A set of which only the characters below 128 may be left where bytes are meant. -/
def asText (span : Span) (set : CharSet) : Meaning CharSet := do
  if !(← get).unicode && !set.isNarrow then refuse .notText span else return set

/-- A set, or all other characters. -/
def negatedIf (negated : Bool) (set : CharSet) : CharSet := if negated then .others set else set

/-- The number of a character where bytes may be meant. -/
def scalar (literal : Literal) : Meaning Nat := do
  if !(← get).unicode && literal.isByte && 127 < literal.char.toNat then
    refuse .notText literal.span
  else return literal.char.toNat

/-- The number of a character of a class. -/
def classScalar (literal : Literal) : Meaning Nat := do
  let n ← scalar literal
  if !(← get).unicode && 127 < n then refuse .notOfBytes literal.span else return n

/-- The set of a class with a short name. -/
def shortSet (span : Span) (name : ShortClass) (negated : Bool) : Meaning CharSet := do
  if (← get).unicode then refuse .shortUnknown span
  else
    let set := match name with
      | .digits => CharSet.digits
      | .spaces => CharSet.spaces
      | .wordChars => CharSet.wordChars
    asText span (negatedIf negated set)

/-- The name of a property without what does not count in it. -/
def plainName (name : String) : String :=
  let cs := name.toList
  let isMarked := ["is", "IS", "iS", "Is"].contains (String.ofList (cs.take 2))
  let kept := (if isMarked then cs.drop 2 else cs).filter fun c =>
    decide (c.toNat < 128) && c != ' ' && c != '_' && c != '-'
  let plain := String.ofList (kept.map Char.toLower)
  if isMarked ∧ plain = "c" then "isc" else plain

/-- The set of a property: there is none without a table. -/
def propertySet (span : Span) (property : Property) : Meaning CharSet := do
  if !(← get).unicode then refuse .notOfBytes span
  else match property with
    | .named name =>
      if ["cf", "sc", "lc"].contains (plainName name) then refuse .valueUnknown span
      else refuse .propertyUnknown span
    | .valued _ _ => refuse .propertyUnknown span

/-- A class with both cases of its letters if they are asked for, or all characters that are
not in it. -/
def closedSet (span : Span) (negated : Bool) (set : CharSet) : Meaning CharSet := do
  asText span (negatedIf negated (← folded span set))

mutual

/-- The set of a part of a class. -/
def classSet : ClassPart → Meaning CharSet
  | .empty _ => return .nothing
  | .literal literal => do
    let n ← classScalar literal
    return .range n n
  | .range _ first last => do
    let a ← classScalar first
    let b ← classScalar last
    return .range a b
  | .named span name negated => closedSet span negated ((CharSet.named? name).getD .nothing)
  | .short span name negated => shortSet span name negated
  | .property span property _ => propertySet span property
  | .bracketed span negated inside => do closedSet span negated (← classSet inside)
  | .union _ parts => do return CharSet.unions (← classSets parts)
  | .joined joint a b => do
    let first ← classSet a
    let second ← classSet b
    let second ← folded b.span second
    let first ← folded a.span first
    return match joint with
      | .common => .common first second
      | .without => .without first second
      | .difference => .difference first second

/-- The sets of some parts of a class. -/
def classSets : List ClassPart → Meaning (List CharSet)
  | [] => return []
  | part :: rest => do
    let set ← classSet part
    return set :: (← classSets rest)

end

/-- What an assertion looks for; edges of words need a table where characters are meant. -/
def lookOf (assertion : Assertion) : Meaning Look := do
  let mode ← get
  let edge (look : Look) : Meaning Look := do
    if mode.unicode then modify fun mode => { mode with edges := true }
    return look
  match assertion with
  | .lineStart =>
    return if !mode.manyLines then .start else if mode.crlf then .lineStartCrlf else .lineStart
  | .lineStop =>
    return if !mode.manyLines then .stop else if mode.crlf then .lineStopCrlf else .lineStop
  | .start => return .start
  | .stop => return .stop
  | .wordEdge => edge .wordEdge
  | .noWordEdge => edge .noWordEdge
  | .wordStart => edge .wordStart
  | .wordStop => edge .wordStop
  | .noWordBefore => edge .noWordBefore
  | .noWordAfter => edge .noWordAfter

/-- The characters that a point stands for. -/
def dotSet (span : Span) : Meaning CharSet := do
  let mode ← get
  if !mode.unicode then refuse .notText span
  else if mode.wholeText then return .others .nothing
  else if mode.crlf then return .others (.union (.single '\n') (.single '\r'))
  else return .others (.single '\n')

mutual

/-- The regular expression that a pattern means. -/
def meaning : Pattern → Meaning (Regex CharSet Look)
  | .empty _ => return .empty
  | .flags _ changes => do
    modify fun mode => mode.changeAll changes
    return .empty
  | .literal literal => do
    let n ← scalar literal
    return .one (← folded literal.span (.range n n))
  | .dot span => do return .one (← dotSet span)
  | .assertion _ assertion => do return .look (← lookOf assertion)
  | .short span name negated => do return .one (← shortSet span name negated)
  | .property span property _ => do return .one (← propertySet span property)
  | .bracketed span negated inside => do
    return .one (← closedSet span negated (← classSet inside))
  | .repeated _ least most part => do
    let before ← get
    let regex ← meaning part
    if most = some 0 then
      modify fun mode => { mode with edges := before.edges }
      return .empty
    return .repeated least most regex
  | .group _ changes captures part => do
    let before ← get
    set (before.changeAll changes)
    let regex ← meaning part
    modify fun mode => mode.restore before
    return if captures then .group 0 regex else regex
  | .branches _ parts => do return eithers (← meanings parts)
  | .sequence _ parts => do return sequences (← meanings parts)

/-- The regular expressions that some patterns mean. -/
def meanings : List Pattern → Meaning (List (Regex CharSet Look))
  | [] => return []
  | part :: rest => do
    let regex ← meaning part
    return regex :: (← meanings rest)

end

/-- Whether a set holds characters that take more than one byte. -/
def CharSet.isWide : CharSet → Bool
  | .nothing => false
  | .range _ last => decide (127 < last)
  | .others _ => true
  | .union a b | .common a b | .without a b | .difference a b => a.isWide || b.isWide
  | .anyCase a => a.isWide

/-- About how many bytes a regular expression takes that is ready for matching. -/
def weight : Regex CharSet Look → Nat
  | .empty => 32
  | .one (.range first last) =>
    if first = last then 32 * (Char.ofNat first).utf8Size else if last < 128 then 32 else 300
  | .one set => if set.isWide then 300 else 56
  | .look _ => 32
  | .sequence a b => weight a + weight b
  | .either a b => weight a + weight b + 36
  | .repeated least most a =>
    match most with
    | none => max least 1 * weight a + 64
    | some most => least * weight a + (most - least) * (weight a + 40) + 32
  | .group _ a => weight a + 64

/-- How many bytes a regular expression may take. -/
def weightLimit : Nat := 10485760

/-- The regular expression that a text means, or why it is refused. -/
def ofText (text : String) : Except Refusal (Regex CharSet Look) :=
  match Pattern.parse text with
  | .error fault => .error (.faulty text fault)
  | .ok pattern =>
    match (meaning pattern).run Mode.start with
    | .error fault => .error (.faulty text fault)
    | .ok (regex, mode) =>
      if weightLimit < weight regex then .error (.tooLarge weightLimit)
      else if mode.edges then .error .noEdges
      else .ok regex

end FlameFold.Regex
