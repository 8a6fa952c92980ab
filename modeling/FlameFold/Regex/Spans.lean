import FlameFold.Regex.Basic

/-!
# Where a regular expression matches

Of the matches of a text the one that begins first counts, and of those the longest. The
groups of a match are found from left to right, each part taking as much as the parts after
it leave.
-/

namespace FlameFold.Regex

/-- A stretch of a text that a regular expression matches. -/
structure Match where
  /-- Where it begins. -/
  first : Nat
  /-- Where it ends. -/
  last : Nat
  /-- The numbers of the groups with the stretches that they match, the last one found
  first. -/
  groups : List (Nat × Nat × Nat)
  deriving DecidableEq, Repr

namespace Places

/-- The places of a set that lie between two places, the last one first. -/
def between (places : Places) (first last : Nat) : List Nat :=
  ((List.range' first (last + 1 - first)).filter places.testBit).reverse

end Places

/-- The groups of a repeated part between two places, `take` giving those of one part; at most
`fuel` parts are taken, each of them not empty. -/
def groupsOfMany (step : Places → Places) (goal : Nat → Places → Places)
    (take : Nat → Nat → List (Nat × Nat × Nat)) (last : Nat) :
    Nat → Nat → Nat → List (Nat × Nat × Nat)
  | 0, _, _ => []
  | fuel + 1, done, first =>
    if first = last then if done = 0 then take first last else []
    else
      let ends := (step (Places.single first)).between (first + 1) last
      match ends.find? fun middle => (goal (done + 1) (Places.single middle)).testBit last with
      | some middle =>
        groupsOfMany step goal take last fuel (done + 1) middle ++ take first middle
      | none => []

/-- The groups of a match between two places. -/
def groups (size : Nat) : Regex Places Places → Nat → Nat → List (Nat × Nat × Nat)
  | .empty, _, _ => []
  | .one _, _, _ => []
  | .look _, _, _ => []
  | .sequence a b, first, last =>
    let ends := (a.reach size (Places.single first)).between first last
    match ends.find? fun middle => (b.reach size (Places.single middle)).testBit last with
    | some middle => b.groups size middle last ++ a.groups size first middle
    | none => []
  | .either a b, first, last =>
    if (a.reach size (Places.single first)).testBit last then a.groups size first last
    else b.groups size first last
  | .repeated least most a, first, last =>
    if most = some 0 then []
    else
      let goal (done : Nat) : Places → Places :=
        reach size (.repeated (least - done) (most.map (· - done)) a)
      if first = last ∧ least = 0 then []
      else groupsOfMany (a.reach size) goal (a.groups size) last (last + 1 - first) 0 first
  | .group number a, first, last => a.groups size first last ++ [(number, first, last)]

/-- The first match of a text that begins at the place `first` or after it. -/
def matchFrom? (placed : Regex Places Places) (size first : Nat) : Option Match :=
  (List.range' first (size + 1 - first)).findSome? fun start =>
    match ((placed.reach size (Places.single start)).between start size).head? with
    | some last => some ⟨start, last, placed.groups size start last⟩
    | none => none

/-- All matches of a text from the place `first` on, one after another, at most `fuel` of them;
`before` is where the last one ended, and an empty match does not begin there. -/
def matchesFrom (placed : Regex Places Places) (size : Nat) :
    Nat → Option Nat → Nat → List Match
  | 0, _, _ => []
  | fuel + 1, before, first =>
    match matchFrom? placed size first with
    | none => []
    | some found =>
      if found.first = found.last then
        let rest := matchesFrom placed size fuel none (found.last + 1)
        if before = some found.first then rest else found :: rest
      else found :: matchesFrom placed size fuel (some found.last) found.last

/-- All matches of a text, one after another. -/
def allMatches (regex : Regex CharSet Look) (text : List Char) : List Match :=
  matchesFrom (regex.on text) text.length (text.length + 2) none 0

/-- The stretch of a text that a group matches; the group 0 is the whole match. -/
def Match.stretch (found : Match) (text : List Char) (number : Nat) : List Char :=
  let cut (first last : Nat) : List Char := (text.drop first).take (last - first)
  if number = 0 then cut found.first found.last
  else match found.groups.lookup number with
    | some (first, last) => cut first last
    | none => []

end FlameFold.Regex
