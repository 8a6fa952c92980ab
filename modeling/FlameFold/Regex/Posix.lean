import FlameFold.Regex.Basic

/-!
# Patterns of the tools

The tools of a machine read patterns in two ways. In a plain pattern parentheses, braces and
bars mean something only after a backslash; in an extended one they do so without it.
-/

namespace FlameFold.Regex.Posix

/-- A token of a pattern. -/
inductive Token where
  /-- A character of a set. -/
  | one (set : CharSet)
  /-- A question about a place. -/
  | look (look : Look)
  /-- The beginning of a group. -/
  | opening
  /-- The end of a group. -/
  | closing
  /-- What stands before it or what stands after it. -/
  | bar
  /-- A repetition of what stands before it. -/
  | many (least : Nat) (most : Option Nat)
  deriving DecidableEq, Repr

/-- What is wrong with a pattern. -/
inductive PatternFault where
  /-- A class is not closed. -/
  | openClass
  /-- A group is not closed. -/
  | openGroup
  /-- A group is not opened. -/
  | closedGroup
  /-- A backslash stands at the end. -/
  | backslash
  deriving DecidableEq, Repr

/-- The wording of what is wrong. -/
def PatternFault.message : PatternFault → String
  | .openClass => "Unmatched [, [^, [:, [., or [="
  | .openGroup => "Unmatched ( or \\("
  | .closedGroup => "Unmatched ) or \\)"
  | .backslash => "Trailing backslash"

/-- The set of the characters up to a closing bracket, and what follows it; `first` tells
whether a bracket would stand at the front. -/
def classItems : Nat → Bool → List Char → Option (List CharSet × List Char)
  | 0, _, _ => none
  | _, _, [] => none
  | fuel + 1, first, c :: cs =>
    if c = ']' ∧ ¬ first then some ([], cs)
    else if c = '[' ∧ cs.head? = some ':' then
      let name := (cs.drop 1).takeWhile (· != ':')
      let after := cs.drop (name.length + 3)
      (classItems fuel false after).map fun (sets, rest) =>
        (((CharSet.named? (String.ofList name)).getD .nothing) :: sets, rest)
    else match cs with
      | '-' :: d :: more =>
        if d = ']' then (classItems fuel false cs).map fun (sets, rest) => (.single c :: sets, rest)
        else (classItems fuel false more).map fun (sets, rest) =>
          (.range c.toNat d.toNat :: sets, rest)
      | _ => (classItems fuel false cs).map fun (sets, rest) => (.single c :: sets, rest)

/-- Read a class after its opening bracket. -/
def classOf (cs : List Char) : Option (CharSet × List Char) :=
  match cs with
  | '^' :: rest => (classItems (cs.length + 1) true rest).map fun (sets, rest) =>
      (.others (CharSet.unions sets), rest)
  | _ => (classItems (cs.length + 1) true cs).map fun (sets, rest) => (CharSet.unions sets, rest)

/-- The value of digits. -/
def number (digits : List Char) : Nat := digits.foldl (fun n c => n * 10 + (c.toNat - 48)) 0

/-- Read a count after its opening brace; `closing` ends it. -/
def countOf? (closing cs : List Char) : Option (Token × List Char) :=
  let low := cs.takeWhile Char.isDigit
  match cs.drop low.length with
  | ',' :: more =>
    let high := more.takeWhile Char.isDigit
    let rest := more.drop high.length
    if closing.isPrefixOf rest then
      some (.many (number low) (if high.isEmpty then none else some (number high)),
        rest.drop closing.length)
    else none
  | rest =>
    if closing.isPrefixOf rest ∧ ¬ low.isEmpty then
      some (.many (number low) (some (number low)), rest.drop closing.length)
    else none

/-- The token of a letter after a backslash that means the same in all patterns. -/
def lettered? (c : Char) : Option Token :=
  match c with
  | 'w' => some (.one CharSet.wordChars)
  | 'W' => some (.one (.others CharSet.wordChars))
  | 's' => some (.one CharSet.spaces)
  | 'S' => some (.one (.others CharSet.spaces))
  | 'b' => some (.look .wordEdge)
  | 'B' => some (.look .noWordEdge)
  | '<' => some (.look .wordStart)
  | '>' => some (.look .wordStop)
  | _ => none

/-- The token that a character stands for where it means something. -/
def mark? (c : Char) : Option Token :=
  match c with
  | '(' => some .opening
  | ')' => some .closing
  | '|' => some .bar
  | '+' => some (.many 1 none)
  | '?' => some (.many 0 (some 1))
  | _ => none

/-- Whether a pattern, a branch or a group begins after a token. -/
def opens : Option Token → Bool
  | none | some .opening | some .bar => true
  | _ => false

/-- Whether a pattern, a branch or a group ends before the characters. -/
def ends (cs : List Char) : Bool :=
  cs.isEmpty || ['\\', ')'].isPrefixOf cs || ['\\', '|'].isPrefixOf cs

/-- The tokens of a pattern, at most `fuel` of them; `before` is the last one. -/
def tokens (extended : Bool) : Nat → Option Token → List Char →
    Except PatternFault (List Token)
  | 0, _, _ => .ok []
  | _, _, [] => .ok []
  | fuel + 1, before, c :: cs =>
    let go (token : Token) (rest : List Char) : Except PatternFault (List Token) := do
      return token :: (← tokens extended fuel (some token) rest)
    let plain : Except PatternFault (List Token) := go (.one (.single c)) cs
    if c = '[' then
      match classOf cs with
      | some (set, rest) => go (.one set) rest
      | none => .error .openClass
    else if c = '.' then go (.one (.others .nothing)) cs
    else if c = '*' then
      if opens before ∨ before = some (.look .start) then plain else go (.many 0 none) cs
    else if c = '^' then
      if extended ∨ opens before then go (.look .start) cs else plain
    else if c = '$' then
      if extended ∨ ends cs then go (.look .stop) cs else plain
    else if c = '\\' then
      match cs with
      | [] => .error .backslash
      | d :: rest =>
        match lettered? d, if extended then none else mark? d with
        | some token, _ => go token rest
        | none, some token => go token rest
        | none, none =>
          if d = '{' ∧ ¬ extended then
            match countOf? ['\\', '}'] rest with
            | some (token, rest) => go token rest
            | none => go (.one (.single d)) rest
          else go (.one (.single d)) rest
    else if extended then
      match mark? c with
      | some token =>
        match token with
        | .many _ _ => if opens before then plain else go token cs
        | _ => go token cs
      | none =>
        if c = '{' ∧ ¬ opens before then
          match countOf? ['}'] cs with
          | some (token, rest) => go token rest
          | none => plain
        else plain
    else plain

/-- What has been read of a group: its branches, and the parts of the last one, both in the
reverse order. -/
structure Reading where
  /-- The complete branches. -/
  branches : List (Regex CharSet Look)
  /-- The parts of the branch that is being read. -/
  parts : List (Regex CharSet Look)

/-- The regular expression of a group that has been read. -/
def Reading.regex (reading : Reading) : Regex CharSet Look :=
  eithers (sequences reading.parts.reverse :: reading.branches).reverse

/-- Read tokens up to the end of a group, at most `fuel` of them; `next` is the number of the
next group, and `inside` tells whether a group is open. -/
def body : Nat → Bool → Nat → Reading → List Token →
    Except PatternFault (Regex CharSet Look × Nat × List Token)
  | 0, _, next, reading, tokens => .ok (reading.regex, next, tokens)
  | _ + 1, inside, next, reading, [] =>
    if inside then .error .openGroup else .ok (reading.regex, next, [])
  | fuel + 1, inside, next, reading, token :: rest =>
    let andThen (part : Regex CharSet Look) : Reading :=
      { reading with parts := part :: reading.parts }
    match token with
    | .one set => body fuel inside next (andThen (.one set)) rest
    | .look place => body fuel inside next (andThen (.look place)) rest
    | .bar => body fuel inside next ⟨sequences reading.parts.reverse :: reading.branches, []⟩ rest
    | .many least most =>
      match reading.parts with
      | part :: before =>
        body fuel inside next { reading with parts := .repeated least most part :: before } rest
      | [] => body fuel inside next reading rest
    | .closing =>
      if inside then .ok (reading.regex, next, rest) else .error .closedGroup
    | .opening => do
      let (part, after, left) ← body fuel true (next + 1) ⟨[], []⟩ rest
      body fuel inside after (andThen (.group next part)) left

/-- Read a pattern. -/
def parse (extended : Bool) (text : List Char) : Except PatternFault (Regex CharSet Look) := do
  let all ← tokens extended (text.length + 1) none text
  let (regex, _, _) ← body (all.length + 1) false 1 ⟨[], []⟩ all
  return regex

end FlameFold.Regex.Posix
