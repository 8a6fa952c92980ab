import FlameFold.Regex.CharSet

/-!
# Regular expressions

A regular expression says which stretches of a text it matches. A set of places in a text
is a number whose bits say which places belong to it, the place 0 standing before the first
character. Matching takes the places where a stretch may begin to those where it may end.
-/

namespace FlameFold

/-- A regular expression; `α` says which characters can stand somewhere, and `β` what is asked
about a place. -/
inductive Regex (α β : Type) where
  /-- The empty stretch. -/
  | empty
  /-- One character. -/
  | one (set : α)
  /-- The empty stretch at some places only. -/
  | look (place : β)
  /-- A stretch of the first and after it one of the second. -/
  | sequence (a b : Regex α β)
  /-- A stretch of either. -/
  | either (a b : Regex α β)
  /-- Stretches one after another, `least` of them or more, but no more than `most`. -/
  | repeated (least : Nat) (most : Option Nat) (a : Regex α β)
  /-- A stretch that can be asked for by its number. -/
  | group (number : Nat) (a : Regex α β)
  deriving DecidableEq, Repr

namespace Regex

/-- What can be asked about a place by the characters beside it. -/
inductive Look where
  /-- It is the beginning of the text. -/
  | start
  /-- It is the end of the text. -/
  | stop
  /-- It is the beginning of a line. -/
  | lineStart
  /-- It is the end of a line. -/
  | lineStop
  /-- It is the beginning of a line; lines may end in a return and a line feed. -/
  | lineStartCrlf
  /-- It is the end of a line; lines may end in a return and a line feed. -/
  | lineStopCrlf
  /-- A word begins or ends here. -/
  | wordEdge
  /-- No word begins or ends here. -/
  | noWordEdge
  /-- A word begins here. -/
  | wordStart
  /-- A word ends here. -/
  | wordStop
  /-- The character before is not of a word. -/
  | noWordBefore
  /-- The character after is not of a word. -/
  | noWordAfter
  deriving DecidableEq, Repr

/-- Whether a look holds between two characters, nothing standing for an end of the text. -/
def Look.holds (look : Look) (before after : Option Char) : Bool :=
  let isWord (c : Option Char) : Bool := c.any fun c => CharSet.wordChars.holds c.toNat
  match look with
  | .start => before.isNone
  | .stop => after.isNone
  | .lineStart => before.all (· == '\n')
  | .lineStop => after.all (· == '\n')
  | .lineStartCrlf => before.all (· == '\n') || (before == some '\r' && after != some '\n')
  | .lineStopCrlf => after.all (· == '\r') || (after == some '\n' && before != some '\r')
  | .wordEdge => isWord before != isWord after
  | .noWordEdge => isWord before == isWord after
  | .wordStart => !isWord before && isWord after
  | .wordStop => isWord before && !isWord after
  | .noWordBefore => !isWord before
  | .noWordAfter => !isWord after

/-- A set of places in a text. -/
abbrev Places := Nat

namespace Places

/-- The set of the places at which a list has `true`. -/
def ofBools (bools : List Bool) : Places :=
  bools.foldr (fun b places => (if b then 1 else 0) ||| (places <<< 1)) 0

/-- The set of one place. -/
def single (place : Nat) : Places := 1 <<< place

/-- All places of a text with so many characters. -/
def all (size : Nat) : Places := (1 <<< (size + 1)) - 1

end Places

/-- Put the places of a text for the characters and the looks. -/
def placed (chars : α → Places) (looks : β → Places) : Regex α β → Regex Places Places
  | .empty => .empty
  | .one set => .one (chars set)
  | .look place => .look (looks place)
  | .sequence a b => .sequence (a.placed chars looks) (b.placed chars looks)
  | .either a b => .either (a.placed chars looks) (b.placed chars looks)
  | .repeated least most a => .repeated least most (a.placed chars looks)
  | .group number a => .group number (a.placed chars looks)

/-- The places of a text before the characters of a set. -/
def charPlaces (text : List Char) (set : CharSet) : Places :=
  Places.ofBools (text.map fun c => set.holds c.toNat)

/-- The places of a text at which a look holds. -/
def lookPlaces (text : List Char) (look : Look) : Places :=
  Places.ofBools (List.zipWith look.holds (none :: text.map some) (text.map some ++ [none]))

/-- Take a step so many times; it need not go on once the step changes nothing. -/
def steps (step : Places → Places) : Nat → Places → Places
  | 0, places => places
  | n + 1, places =>
    let next := step places
    if next = places then places else steps step n next

/-- All places reached by at most so many steps, from those just reached on. -/
def spread (step : Places → Places) : Nat → Places → Places → Places
  | 0, reached, _ => reached
  | n + 1, reached, newest =>
    let both := reached ||| step newest
    let fresh := both ^^^ reached
    if fresh = 0 then reached else spread step n both fresh

/-- The places where a match may end that begins at one of the given places; `size` is the
length of the text. -/
def reach (size : Nat) : Regex Places Places → Places → Places
  | .empty, places => places
  | .one set, places => (places &&& set) <<< 1
  | .look set, places => places &&& set
  | .sequence a b, places => b.reach size (a.reach size places)
  | .either a b, places => a.reach size places ||| b.reach size places
  | .repeated least most a, places =>
    let first := steps (a.reach size) least places
    let more := match most with
      | some most => most - least
      | none => size + 1
    spread (a.reach size) more first first
  | .group _ a, places => a.reach size places

/-- A regular expression at the places of a text. -/
def on (regex : Regex CharSet Look) (text : List Char) : Regex Places Places :=
  regex.placed (charPlaces text) (lookPlaces text)

/-- Whether a text has a stretch that a regular expression matches. -/
def finds (regex : Regex CharSet Look) (text : String) : Bool :=
  let chars := text.toList
  (regex.on chars).reach chars.length (Places.all chars.length) != 0

/-- The regular expressions one after another. -/
def sequences : List (Regex α β) → Regex α β
  | [] => .empty
  | [regex] => regex
  | regex :: rest => .sequence regex (sequences rest)

/-- Any of the regular expressions. -/
def eithers : List (Regex α β) → Regex α β
  | [] => .empty
  | [regex] => regex
  | regex :: rest => .either regex (eithers rest)

end Regex

end FlameFold
