/-!
# Sets of characters

A set of characters is built from ranges of their numbers. The sets with names hold only
characters below 128.
-/

namespace FlameFold.Regex

/-- A set of characters. -/
inductive CharSet where
  /-- No character. -/
  | nothing
  /-- The characters from one number to another. -/
  | range (first last : Nat)
  /-- The characters of either set. -/
  | union (a b : CharSet)
  /-- The characters of both sets. -/
  | common (a b : CharSet)
  /-- The characters of the first set that are not in the second. -/
  | without (a b : CharSet)
  /-- The characters of one of the sets that are not in the other. -/
  | difference (a b : CharSet)
  /-- All other characters. -/
  | others (a : CharSet)
  /-- The characters of the set, and the same letters in the other case. -/
  | anyCase (a : CharSet)
  deriving DecidableEq, Repr

namespace CharSet

/-- The number of the same letter in the other case; other characters keep theirs. -/
def otherCase (n : Nat) : Nat :=
  if 65 ≤ n ∧ n ≤ 90 then n + 32 else if 97 ≤ n ∧ n ≤ 122 then n - 32 else n

/-- Whether a character belongs to a set, by its number. -/
def holds : CharSet → Nat → Bool
  | .nothing, _ => false
  | .range first last, n => decide (first ≤ n) && decide (n ≤ last)
  | .union a b, n => a.holds n || b.holds n
  | .common a b, n => a.holds n && b.holds n
  | .without a b, n => a.holds n && !b.holds n
  | .difference a b, n => a.holds n != b.holds n
  | .others a, n => !a.holds n
  | .anyCase a, n => a.holds n || a.holds (otherCase n)

/-- Whether nothing but empty sets went into a set. -/
def isVoid : CharSet → Bool
  | .nothing => true
  | .range _ _ | .others _ => false
  | .union a b | .common a b | .without a b | .difference a b => a.isVoid && b.isVoid
  | .anyCase a => a.isVoid

/-- Whether a set of bytes holds none from 128 on. -/
def isNarrow (set : CharSet) : Bool :=
  (List.range 128).all fun n => !set.holds (128 + n)

/-- The set of one character. -/
def single (c : Char) : CharSet := .range c.toNat c.toNat

/-- The union of some sets. -/
def unions : List CharSet → CharSet
  | [] => .nothing
  | [set] => set
  | set :: rest => .union set (unions rest)

/-- The union of some ranges of characters. -/
def ranges (all : List (Char × Char)) : CharSet :=
  unions (all.map fun (first, last) => .range first.toNat last.toNat)

/-- The digits. -/
def digits : CharSet := ranges [('0', '9')]

/-- The characters of words. -/
def wordChars : CharSet := ranges [('0', '9'), ('A', 'Z'), ('_', '_'), ('a', 'z')]

/-- The white space. -/
def spaces : CharSet := ranges [('\t', '\r'), (' ', ' ')]

/-- The set of a name. -/
def named? (name : String) : Option CharSet :=
  match name with
  | "alnum" => some (ranges [('0', '9'), ('A', 'Z'), ('a', 'z')])
  | "alpha" => some (ranges [('A', 'Z'), ('a', 'z')])
  | "ascii" => some (ranges [('\x00', '\x7f')])
  | "blank" => some (ranges [('\t', '\t'), (' ', ' ')])
  | "cntrl" => some (ranges [('\x00', '\x1f'), ('\x7f', '\x7f')])
  | "digit" => some digits
  | "graph" => some (ranges [('!', '~')])
  | "lower" => some (ranges [('a', 'z')])
  | "print" => some (ranges [(' ', '~')])
  | "punct" => some (ranges [('!', '/'), (':', '@'), ('[', '\x60'), ('{', '~')])
  | "space" => some spaces
  | "upper" => some (ranges [('A', 'Z')])
  | "word" => some wordChars
  | "xdigit" => some (ranges [('0', '9'), ('A', 'F'), ('a', 'f')])
  | _ => none

end CharSet

end FlameFold.Regex
