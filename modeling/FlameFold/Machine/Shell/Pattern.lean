import FlameFold.Regex.CharSet

/-!
# Patterns

Whether a text matches a pattern of a shell.
-/

namespace FlameFold.Machine.Shell

/-- A text whose characters remember whether they were quoted. -/
abbrev Marked := List (Char × Bool)

/-- The list and all that is left of it after some of its elements. -/
def suffixes : List Char → List (List Char)
  | [] => [[]]
  | c :: cs => (c :: cs) :: suffixes cs

/-- Whether a character is one of those in brackets, and the pattern after them; nothing if
they are not closed. A closing bracket that comes first stands for itself. -/
def bracket? (c : Char) : Nat → Bool → Marked → Option (Bool × Marked)
  | 0, _, _ => none
  | fuel + 1, isFirst, pattern =>
    match pattern with
    | [] => none
    | (']', false) :: rest => if isFirst then found fuel ']' rest else some (false, rest)
    | ('[', false) :: (':', _) :: rest =>
      let name := rest.takeWhile fun p => p.1 != ':'
      match rest.drop name.length with
      | _ :: (']', _) :: rest =>
        let set? := Regex.CharSet.named? (String.ofList (name.map Prod.fst))
        (bracket? c fuel false rest).map fun (others, rest) =>
          (set?.any (·.holds c.toNat) || others, rest)
      | _ => found fuel '[' ((':', false) :: rest)
    | (p, _) :: rest => found fuel p rest
where
  /-- The same from a first character on, which may begin a range. -/
  found (fuel : Nat) (low : Char) (rest : Marked) : Option (Bool × Marked) :=
    match rest with
    | ('-', false) :: (high, quoted) :: after =>
      if high = ']' ∧ ¬ quoted then
        (bracket? c fuel false rest).map fun (others, rest) => (c == low || others, rest)
      else (bracket? c fuel false after).map fun (others, rest) =>
        ((low ≤ c && c ≤ high) || others, rest)
    | _ => (bracket? c fuel false rest).map fun (others, rest) => (c == low || others, rest)

/-- Whether a text matches a pattern, in which an unquoted star stands for any characters,
an unquoted question mark for one, and unquoted brackets for one of some. -/
def matchesPattern : Nat → Marked → List Char → Bool
  | 0, _, _ => false
  | _, [], cs => cs.isEmpty
  | fuel + 1, ('*', false) :: pattern, cs => (suffixes cs).any (matchesPattern fuel pattern)
  | fuel + 1, ('?', false) :: pattern, _ :: cs => matchesPattern fuel pattern cs
  | fuel + 1, ('[', false) :: pattern, c :: cs =>
    let (negated, inside) := match pattern with
      | ('!', false) :: rest => (true, rest)
      | _ => (false, pattern)
    match bracket? c (inside.length + 1) true inside with
    | some (isIn, rest) => isIn != negated && matchesPattern fuel rest cs
    | none => c == '[' && matchesPattern fuel pattern cs
  | fuel + 1, (p, _) :: pattern, c :: cs => p == c && matchesPattern fuel pattern cs
  | _, _ :: _, [] => false

/-- Whether a text matches a whole pattern. -/
def fits (pattern : Marked) (text : List Char) : Bool :=
  matchesPattern (pattern.length + 1) pattern text

/-- Whether a text has a character that makes it a pattern. -/
def isPattern (text : Marked) : Bool :=
  text.any fun (c, quoted) => !quoted && (c == '*' || c == '?' || c == '[')

end FlameFold.Machine.Shell
