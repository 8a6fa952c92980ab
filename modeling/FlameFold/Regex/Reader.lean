import FlameFold.Regex.CharSet
import FlameFold.Regex.Fault
import FlameFold.Text.Blank
import FlameFold.Text.Category

/-!
# Reading patterns

A pattern is read from left to right. The first thing that is wrong ends the reading; a
group or a class that is not closed is noticed at the end of the pattern.
-/

namespace FlameFold.Regex

/-- What has still to be read of a pattern. -/
structure Cursor where
  /-- The characters. -/
  rest : List Char
  /-- How many characters have been read. -/
  place : Nat
  /-- Whether blanks and comments mean nothing. -/
  loose : Bool
  /-- The names of groups that have been read, and where they stand. -/
  names : List (List Char × Span)

/-- A step of reading a pattern. -/
abbrev Reader := EStateM Fault Cursor

namespace Reader

/-- The next character. -/
def peek : Reader (Option Char) := do return (← get).rest.head?

/-- How many characters have been read. -/
def place : Reader Nat := do return (← get).place

/-- Whether all has been read. -/
def atEnd : Reader Bool := do return (← get).rest.isEmpty

/-- Pass some characters. -/
def pass (n : Nat) : Reader Unit := modify fun cursor =>
  { cursor with
    rest := cursor.rest.drop n
    place := cursor.place + (cursor.rest.take n).length }

/-- Something is wrong between two places. -/
def fail (kind : FaultKind) (first last : Nat) : Reader α := throw ⟨kind, ⟨first, last⟩, none⟩

/-- Something is wrong with the next character. -/
def failHere (kind : FaultKind) : Reader α := do fail kind (← place) ((← place) + 1)

/-- What is left without blanks and comments at its front; `comment` says whether a comment
is being passed. -/
def afterBlanks (comment : Bool) : List Char → List Char
  | [] => []
  | c :: cs =>
    if comment then afterBlanks (c != '\n') cs
    else if Text.isBlank c then afterBlanks false cs
    else if c = '#' then afterBlanks true cs
    else c :: cs

/-- Pass blanks and comments if they mean nothing. -/
def skipBlanks : Reader Unit := do
  let cursor ← get
  if cursor.loose then
    pass (cursor.rest.length - (afterBlanks false cursor.rest).length)

/-- Pass a character and the blanks after it; tells whether anything is left. -/
def next : Reader Bool := do
  pass 1
  unless ← atEnd do skipBlanks
  return !(← atEnd)

/-- The character after the next one, blanks between them left out if they mean nothing. -/
def peekSecond : Reader (Option Char) := do
  let cursor ← get
  let after := cursor.rest.drop 1
  if !cursor.loose then return after.head?
  else match after.dropWhile Text.isBlank with
    | '#' :: more => return (more.dropWhile Text.isBlank).head?
    | found => return found.head?

/-- Pass a text if it comes next; tells whether it did. -/
def passIf (text : String) : Reader Bool := do
  let cursor ← get
  if text.toList.isPrefixOf cursor.rest then
    pass text.length
    return true
  else return false

/-- Whether a character may stand in the name of a group. -/
def isNameChar (first : Bool) (c : Char) : Bool :=
  let letter := match Text.category c with
    | .upperLetter | .lowerLetter | .titleLetter | .modifierLetter | .otherLetter
    | .letterNumber => true
    | _ => false
  let number := match Text.category c with
    | .decimalDigit | .otherNumber => true
    | _ => false
  c == '_' || letter || (!first && (c == '.' || c == '[' || c == ']' || number))

/-- The value of a digit in base sixteen. -/
def hexValue? (c : Char) : Option Nat :=
  if c.isDigit then some (c.toNat - 48)
  else if 'a' ≤ c ∧ c ≤ 'f' then some (c.toNat - 87)
  else if 'A' ≤ c ∧ c ≤ 'F' then some (c.toNat - 55)
  else none

/-- The character that digits in base sixteen stand for. -/
def hexChar? (digits : List Nat) : Option Char :=
  let n := digits.foldl (fun n digit => 16 * n + digit) 0
  if n.isValidChar then some (Char.ofNat n) else none

/-- Read so many digits in base sixteen. -/
def hexDigits (first : Bool) : Nat → Reader (List Nat)
  | 0 => return []
  | n + 1 => do
    if !first then
      unless ← next do fail .escapeEnd (← place) (← place)
    match (← peek).bind hexValue? with
    | some digit => return digit :: (← hexDigits false n)
    | none => failHere .hexDigit

/-- Read digits in base sixteen up to a closing brace, at most `fuel` of them. -/
def hexBraced : Nat → Reader (List Nat)
  | 0 => return []
  | fuel + 1 => do
    unless ← next do return []
    match ← peek with
    | some '}' => return []
    | some c => match hexValue? c with
      | some digit => return digit :: (← hexBraced fuel)
      | none => failHere .hexDigit
    | none => return []

/-- Read a character given by its number, from the letter `x`, `u` or `U` on; the escape
begins at `start`. -/
def hexEscape (start : Nat) : Reader Literal := do
  let letter ← peek
  unless ← next do fail .escapeEnd (← place) (← place)
  let first ← place
  if (← peek) = some '{' then
    let digits ← hexBraced (← get).rest.length
    if ← atEnd then fail .escapeEnd first (← place)
    let last ← place
    let _ ← next
    if digits.isEmpty then fail .hexEmpty first (← place)
    match hexChar? digits with
    | some c => return ⟨⟨start, ← place⟩, c, false⟩
    | none => fail .hexInvalid (first + 1) last
  else
    let size := if letter = some 'x' then 2 else if letter = some 'u' then 4 else 8
    let digits ← hexDigits true size
    let _ ← next
    match hexChar? digits with
    | some c => return ⟨⟨start, ← place⟩, c, letter = some 'x'⟩
    | none => fail .hexInvalid first (← place)

/-- Read the characters up to a closing brace, at most `fuel` of them. -/
def bracedName : Nat → Reader (List Char)
  | 0 => return []
  | fuel + 1 => do
    unless ← next do return []
    match ← peek with
    | some '}' | none => return []
    | some c => return c :: (← bracedName fuel)

/-- The place in a text where a part first stands. -/
def find? (part : List Char) : List Char → Option Nat
  | [] => none
  | c :: cs => if part.isPrefixOf (c :: cs) then some 0 else (find? part cs).map (· + 1)

/-- Cut the name of a property at the mark between its name and its value. -/
def propertyOf (name : List Char) : Property :=
  let mark? := ["!=".toList, [':'], ['=']].findSome? fun mark =>
    (find? mark name).map fun i => (i, mark.length)
  match mark? with
  | some (i, size) =>
    .valued (String.ofList (name.take i)) (String.ofList (name.drop (i + size)))
  | none => .named (String.ofList name)

/-- Read a property, from the letter `p` or `P` on. -/
def propertyEscape (start : Nat) : Reader Pattern := do
  let negated := (← peek) = some 'P'
  unless ← next do fail .escapeEnd (← place) (← place)
  match ← peek with
  | some '{' =>
    let name ← bracedName (← get).rest.length
    if ← atEnd then fail .escapeEnd (← place) (← place)
    pass 1
    return .property ⟨start, ← place⟩ (propertyOf name) negated
  | some '\\' => failHere .propertyInvalid
  | c =>
    let _ ← next
    return .property ⟨start, ← place⟩ (.named (String.ofList c.toList)) negated

/-- The edge that a name in braces asks for. -/
def edge? (name : String) : Option Assertion :=
  match name with
  | "start" => some .wordStart
  | "end" => some .wordStop
  | "start-half" => some .noWordBefore
  | "end-half" => some .noWordAfter
  | _ => none

/-- A character of the name of an edge. -/
def isEdgeChar (c : Char) : Bool := c.isAlpha || c == '-'

/-- Read the characters of the name of an edge, at most `fuel` of them. -/
def edgeName : Nat → Reader (List Char)
  | 0 => return []
  | fuel + 1 => do
    match ← peek with
    | some c =>
      if isEdgeChar c then
        let _ ← next
        return c :: (← edgeName fuel)
      else return []
    | none => return []

/-- Read the name of an edge in braces, if there is one. The escape before it begins at
`start`. -/
def edgeAfter (start : Nat) : Reader Assertion := do
  if (← peek) ≠ some '{' then return .wordEdge
  let before ← get
  unless ← next do fail .edgeEnd start (← place)
  let inside ← place
  if !((← peek).any isEdgeChar) then
    set before
    return .wordEdge
  let name ← edgeName (← get).rest.length
  if (← peek) ≠ some '}' then fail .openEdge before.place (← place)
  let last ← place
  pass 1
  match edge? (String.ofList name) with
  | some edge => return edge
  | none => fail .edgeUnknown inside last

/-- The class of a letter. -/
def shortClass? (c : Char) : Option (ShortClass × Bool) :=
  match c with
  | 'd' => some (.digits, false)
  | 's' => some (.spaces, false)
  | 'w' => some (.wordChars, false)
  | 'D' => some (.digits, true)
  | 'S' => some (.spaces, true)
  | 'W' => some (.wordChars, true)
  | _ => none

/-- The control character of a letter. -/
def lettered? (c : Char) : Option Char :=
  match c with
  | 'a' => some '\x07'
  | 'f' => some '\x0c'
  | 't' => some '\t'
  | 'n' => some '\n'
  | 'r' => some '\r'
  | 'v' => some '\x0b'
  | _ => none

/-- The assertion of a letter or a mark. -/
def asserted? (c : Char) : Option Assertion :=
  match c with
  | 'A' => some .start
  | 'z' => some .stop
  | 'B' => some .noWordEdge
  | '<' => some .wordStart
  | '>' => some .wordStop
  | _ => none

/-- Whether a character stands for itself after a backslash. -/
def standsForItself (c : Char) : Bool :=
  decide (c.toNat < 128) && !c.isAlphanum && c != '<' && c != '>'

/-- Read an escape. -/
def escape : Reader Pattern := do
  let start ← place
  pass 1
  match ← peek with
  | none => fail .escapeEnd start (← place)
  | some c =>
    if c.isDigit then fail .backreference start ((← place) + 1)
    else if c = 'x' ∨ c = 'u' ∨ c = 'U' then return .literal (← hexEscape start)
    else if c = 'p' ∨ c = 'P' then propertyEscape start
    else
      pass 1
      let span : Span := ⟨start, ← place⟩
      match shortClass? c with
      | some (name, negated) => return .short span name negated
      | none =>
        if standsForItself c then return .literal ⟨span, c, false⟩
        else if c = 'b' then
          let edge ← edgeAfter start
          return .assertion ⟨start, ← place⟩ edge
        else match asserted? c, lettered? c with
          | some assertion, _ => return .assertion span assertion
          | none, some control => return .literal ⟨span, control, false⟩
          | none, none => throw ⟨.escapeUnknown, span, none⟩

/-- Pass the blanks in front of a number. -/
def skipFront : Reader Unit := do
  pass ((← get).rest.takeWhile Text.isBlank).length

/-- Read digits, at most `fuel` of them. -/
def digits : Nat → Reader (List Char)
  | 0 => return []
  | fuel + 1 => do
    match ← peek with
    | some c =>
      if c.isDigit then
        let _ ← next
        return c :: (← digits fuel)
      else return []
    | none => return []

/-- Pass the blanks after a number, at most `fuel` of them. -/
def skipBack : Nat → Reader Unit
  | 0 => return ()
  | fuel + 1 => do
    if (← peek).any Text.isBlank then
      let _ ← next
      skipBack fuel

/-- The largest number of repetitions. -/
def countLimit : Nat := 4294967295

/-- Read a number of repetitions; what is wrong with it may count later. -/
def count : Reader (Except Fault Nat) := do
  skipFront
  let first ← place
  let found ← digits (← get).rest.length
  let last ← place
  skipBack (← get).rest.length
  let n := found.foldl (fun n c => n * 10 + (c.toNat - 48)) 0
  if found.isEmpty then return .error ⟨.countEmpty, ⟨first, last⟩, none⟩
  else if countLimit < n then return .error ⟨.badNumber, ⟨first, last⟩, none⟩
  else return .ok n

/-- A number, or what is wrong with it. -/
def settled : Except Fault Nat → Reader Nat
  | .ok n => return n
  | .error fault => throw fault

/-- Read a count in braces and repeat a part as it says. -/
def counted (part : Pattern) : Reader Pattern := do
  let first ← place
  let unclosed : Reader (Nat × Option Nat) := do fail .openCount first (← place)
  let range ← do
    if !(← next) then unclosed
    else
      let low ← count
      match ← peek with
      | none => unclosed
      | some ',' =>
        if !(← next) then unclosed
        else if (← peek) = some '}' then pure (← settled low, none)
        else
          let low ← settled low
          pure (low, some (← settled (← count)))
      | _ =>
        let low ← settled low
        pure (low, some low)
  if (← peek) ≠ some '}' then
    let _ ← unclosed
  if ← next then
    if (← peek) = some '?' then pass 1
  let (least, most) := range
  if most.any (· < least) then fail .countRange first (← place)
  return .repeated ⟨part.span.first, ← place⟩ least most part

/-- Read an operator of one character and repeat a part as it says. -/
def marked (part : Pattern) (least : Nat) (most : Option Nat) : Reader Pattern := do
  pass 1
  if (← peek) = some '?' then pass 1
  return .repeated ⟨part.span.first, ← place⟩ least most part

/-- Read flags up to a colon or a parenthesis; `negated` is where the negation stands, if it
came last, and `before` what came before it. -/
def flagsFrom : Nat → Option Span → List (Option Flag × Span) → Reader (List (Option Flag × Span))
  | 0, _, before => return before
  | fuel + 1, dangling, before => do
    let here ← place
    let span : Span := ⟨here, here + 1⟩
    match ← peek with
    | none => return before
    | some ':' | some ')' =>
      match dangling with
      | some span => throw ⟨.flagDangling, span, none⟩
      | none => return before
    | some c =>
      let flag? := Flag.ofLetter? c
      if c ≠ '-' ∧ flag?.isNone then throw ⟨.flagUnknown, span, none⟩
      match before.find? fun entry => entry.1 == flag? with
      | some earlier =>
        throw ⟨if c = '-' then .negationTwice else .flagTwice, span, some earlier.2⟩
      | none =>
        pass 1
        if ← atEnd then fail .flagEnd (← place) (← place)
        flagsFrom fuel (if c = '-' then some span else none) (before ++ [(flag?, span)])

/-- The changes that flags make: those after a negation turn off. -/
def changesOf (flags : List (Option Flag × Span)) : FlagChanges :=
  let isFlag (entry : Option Flag × Span) : Bool := entry.1.isSome
  let on := (flags.takeWhile isFlag).filterMap Prod.fst
  let off := (flags.dropWhile isFlag).filterMap Prod.fst
  on.map (·, true) ++ off.map (·, false)

/-- Read flags. -/
def flags : Reader FlagChanges := do
  return changesOf (← flagsFrom ((← get).rest.length + 1) none [])

/-- Read the characters of a name up to its end, at most `fuel` of them. -/
def nameChars (first : Bool) : Nat → Reader (List Char)
  | 0 => return []
  | fuel + 1 => do
    match ← peek with
    | none | some '>' => return []
    | some c =>
      if !isNameChar first c then failHere .nameInvalid
      pass 1
      return c :: (← nameChars false fuel)

/-- Read the name of a group. -/
def groupName : Reader Unit := do
  let first ← place
  let name ← nameChars true (← get).rest.length
  let span : Span := ⟨first, ← place⟩
  if ← atEnd then fail .nameEnd (← place) (← place)
  pass 1
  if name.isEmpty then throw ⟨.nameEmpty, span, none⟩
  match (← get).names.lookup name with
  | some earlier => throw ⟨.nameTwice, span, some earlier⟩
  | none => modify fun cursor => { cursor with names := (name, span) :: cursor.names }

/-- What an opening parenthesis opens. -/
inductive Opening where
  /-- Flags for what follows. -/
  | flags (span : Span) (changes : FlagChanges)
  /-- A group. -/
  | group (span : Span) (changes : FlagChanges) (captures : Bool)

/-- Read an opening parenthesis and what says what it opens. -/
def opening : Reader Opening := do
  let start ← place
  let mark : Span := ⟨start, start + 1⟩
  pass 1
  skipBlanks
  for words in ["?=", "?!", "?<=", "?<!"] do
    if ← passIf words then fail .lookAround start (← place)
  let inside ← place
  if (← passIf "?P<") || (← passIf "?<") then
    groupName
    return .group mark [] true
  else if ← passIf "?" then
    if ← atEnd then throw ⟨.openGroup, mark, none⟩
    let changes ← flags
    let closing ← peek
    pass 1
    if closing = some ')' then
      if changes.isEmpty then fail .nothingRepeated inside inside
      return .flags ⟨start, ← place⟩ changes
    else return .group mark changes false
  else return .group mark [] true

/-- Parts of a class one after another, as one part; without one the class has a gap at
`place`. -/
def classUnion (place : Nat) (parts : List ClassPart) : ClassPart :=
  match parts with
  | [] => .empty ⟨place, place⟩
  | [part] => part
  | first :: rest => .union ⟨first.span.first, (rest.getLast?.getD first).span.last⟩ parts

/-- A class with a name in colons at the front, with the number of its characters. -/
def namedClass? (place : Nat) (cs : List Char) : Option (ClassPart × Nat) :=
  match cs with
  | '[' :: ':' :: more =>
    let negated := more.head? = some '^'
    let more := if negated then more.drop 1 else more
    let name := more.takeWhile (· != ':')
    let size := 4 + name.length + if negated then 1 else 0
    if [':', ']'].isPrefixOf (more.drop name.length) then
      (CharSet.named? (String.ofList name)).map fun _ =>
        (.named ⟨place, place + size⟩ (String.ofList name) negated, size)
    else none
  | _ => none

/-- Read the opening of a class: where it stands, whether it is negated, and the characters
that mean themselves only there. -/
def classOpening : Reader (Span × Bool × List ClassPart) := do
  let start ← place
  unless ← next do fail .openClass start (← place)
  let negated := (← peek) = some '^'
  if negated then
    unless ← next do fail .openClass start (← place)
  let dashes ← dashesFrom start (← get).rest.length
  if dashes.isEmpty ∧ (← peek) = some ']' then
    let here ← place
    unless ← next do fail .openClass start (← place)
    return (⟨start, ← place⟩, negated, [.literal ⟨⟨here, here + 1⟩, ']', false⟩])
  else return (⟨start, ← place⟩, negated, dashes)
where
  dashesFrom (start : Nat) : Nat → Reader (List ClassPart)
    | 0 => return []
    | fuel + 1 => do
      if (← peek) ≠ some '-' then return []
      let here ← place
      unless ← next do fail .openClass start start
      return .literal ⟨⟨here, here + 1⟩, '-', false⟩ :: (← dashesFrom start fuel)

/-- Read a character or an escape of a class. -/
def classItem : Reader Pattern := do
  match ← peek with
  | some '\\' => escape
  | c =>
    let here ← place
    pass 1
    return .literal ⟨⟨here, here + 1⟩, c.getD ' ', false⟩

/-- The character that ends a range. -/
def rangeEnd : Pattern → Reader Literal
  | .literal literal => return literal
  | other => throw ⟨.rangeLiteral, other.span, none⟩

/-- Read a character, an escape or a range of a class that was opened at `opening`. -/
def classRange (opening : Span) : Reader ClassPart := do
  let first ← classItem
  skipBlanks
  if ← atEnd then throw ⟨.openClass, opening, none⟩
  let second ← peekSecond
  if (← peek) ≠ some '-' ∨ second = some ']' ∨ second = some '-' then
    match first with
    | .literal literal => return .literal literal
    | .short span name negated => return .short span name negated
    | .property span property negated => return .property span property negated
    | other => throw ⟨.classEscape, other.span, none⟩
  else
    unless ← next do throw ⟨.openClass, opening, none⟩
    let last ← classItem
    let span : Span := ⟨first.span.first, last.span.last⟩
    let a ← rangeEnd first
    let b ← rangeEnd last
    if b.char < a.char then throw ⟨.classRange, span, none⟩
    return .range span a b

/-- The joint that stands next. -/
def joint? (cs : List Char) : Option SetJoint :=
  match cs with
  | '&' :: '&' :: _ => some .common
  | '-' :: '-' :: _ => some .without
  | '~' :: '~' :: _ => some .difference
  | _ => none

/-- Read the rest of a class that was opened at `opening`: `left` is what stands before the
last joint, and `parts` what has been read since, from `start` on. -/
def classRest : Nat → Span → Option (SetJoint × ClassPart) → Nat → List ClassPart →
    Reader ClassPart
  | 0, opening, _, _, _ => throw ⟨.openClass, opening, none⟩
  | fuel + 1, opening, left, start, parts => do
    skipBlanks
    let cursor ← get
    let set : ClassPart := match left with
      | some (joint, a) => .joined joint a (classUnion start parts)
      | none => classUnion start parts
    match cursor.rest with
    | [] => throw ⟨.openClass, opening, none⟩
    | ']' :: _ =>
      pass 1
      return set
    | '[' :: _ =>
      match namedClass? cursor.place cursor.rest with
      | some (part, size) =>
        pass size
        classRest fuel opening left start (parts ++ [part])
      | none =>
        let (inner, negated, first) ← classOpening
        let inside ← classRest fuel inner none inner.last first
        let part : ClassPart := .bracketed ⟨inner.first, ← place⟩ negated inside
        classRest fuel opening left start (parts ++ [part])
    | cs => match joint? cs with
      | some joint =>
        pass 2
        classRest fuel opening (some (joint, set)) (← place) []
      | none =>
        let part ← classRange opening
        classRest fuel opening left start (parts ++ [part])

/-- Read a class in brackets. -/
def bracketed : Reader Pattern := do
  let (opening, negated, first) ← classOpening
  let inside ← classRest ((← get).rest.length + 1) opening none opening.last first
  return .bracketed ⟨opening.first, ← place⟩ negated inside

/-- The part that an operator repeats, and the parts before it. -/
def repeatable (parts : List Pattern) : Reader (Pattern × List Pattern) := do
  match parts with
  | part :: before =>
    if part.canRepeat then return (part, before)
    else fail .nothingRepeated (← place) (← place)
  | [] => fail .nothingRepeated (← place) (← place)

/-- Read the parts of a group that was opened at `opened`, or of the whole pattern. `first`
is where they begin; `done` are the branches that are complete, and `parts` the parts of the
one that began at `start`, the last one first. -/
def body : Nat → Option Span → Nat → List Pattern → Nat → List Pattern → Reader Pattern
  | 0, _, first, _, _, _ => fail .openGroup first first
  | fuel + 1, opened, first, done, start, parts => do
    skipBlanks
    let here ← place
    let branch := Pattern.ofSequence ⟨start, here⟩ parts.reverse
    let whole : Pattern :=
      if done.isEmpty then branch else .branches ⟨first, here⟩ (branch :: done).reverse
    match ← peek with
    | none =>
      match opened with
      | some span => throw ⟨.openGroup, span, none⟩
      | none => return whole
    | some ')' =>
      if opened.isNone then failHere .closedGroup
      return whole
    | some '|' =>
      pass 1
      body fuel opened first (branch :: done) (← place) []
    | some '(' =>
      match ← opening with
      | .flags span changes =>
        match changes.lookup .loose with
        | some loose => modify fun cursor => { cursor with loose := loose }
        | none => pure ()
        body fuel opened first done start (.flags span changes :: parts)
      | .group span changes captures =>
        let before := (← get).loose
        modify fun cursor => { cursor with loose := (changes.lookup .loose).getD before }
        let inside ← place
        let part ← body fuel (some span) inside [] inside []
        modify fun cursor => { cursor with loose := before }
        pass 1
        let group : Pattern := .group ⟨span.first, ← place⟩ changes captures part
        body fuel opened first done start (group :: parts)
    | some '[' => body fuel opened first done start ((← bracketed) :: parts)
    | some '?' =>
      let (part, before) ← repeatable parts
      body fuel opened first done start ((← marked part 0 (some 1)) :: before)
    | some '*' =>
      let (part, before) ← repeatable parts
      body fuel opened first done start ((← marked part 0 none) :: before)
    | some '+' =>
      let (part, before) ← repeatable parts
      body fuel opened first done start ((← marked part 1 none) :: before)
    | some '{' =>
      let (part, before) ← repeatable parts
      body fuel opened first done start ((← counted part) :: before)
    | some '\\' => body fuel opened first done start ((← escape) :: parts)
    | some c =>
      pass 1
      let span : Span := ⟨here, here + 1⟩
      let part : Pattern :=
        if c = '.' then .dot span
        else if c = '^' then .assertion span .lineStart
        else if c = '$' then .assertion span .lineStop
        else .literal ⟨span, c, false⟩
      body fuel opened first done start (part :: parts)

end Reader

/-- How deep the parts of a pattern may stand in one another. -/
def depthLimit : Nat := 250

/-- Read a pattern. -/
def Pattern.parse (text : String) : Except Fault Pattern :=
  let chars := text.toList
  match (Reader.body (chars.length + 1) none 0 [] 0 []).run ⟨chars, 0, false, []⟩ with
  | .error fault _ => .error fault
  | .ok pattern _ =>
    match pattern.tooDeep? depthLimit with
    | some span => .error ⟨.tooDeep depthLimit, span, none⟩
    | none => .ok pattern

end FlameFold.Regex
