import FlameFold.Log
import FlameFold.Regex.Meaning

/-!
# Choosing records

A filter says which records are shown. It is a list of rules with commas between them, and
after a slash a pattern that the text of a shown record has to match somewhere. A rule bounds
the level of the records of all areas, or of those whose target begins with a given name; of
the rules that fit a record the one with the longest name counts.
-/

namespace FlameFold.Log

/-- A rule of a filter. -/
structure Rule where
  /-- What the targets begin with; without it the rule is for all areas. -/
  name : Option String
  /-- The rank of the least important level that is shown. -/
  bound : Nat
  deriving DecidableEq, Repr

/-- Which records are shown. -/
structure Filter where
  /-- The rules in the order in which they were given. -/
  rules : List Rule
  /-- What the text of a shown record matches somewhere. -/
  wanted : Option (Regex Regex.CharSet Regex.Look)
  deriving DecidableEq, Repr

/-- The rank of the least important level there is. -/
def lastRank : Nat := Level.trace.rank

/-- A word in small letters; only the letters of the English alphabet have them. -/
def lower (word : String) : String := String.ofList (word.toList.map Char.toLower)

/-- The rank that a word names. Nothing is shown at the rank 0. -/
def rankOf? (word : String) : Option Nat :=
  if lower word = "off" then some 0
  else ([Level.error, .warn, .info, .debug, .trace].find? fun level =>
    lower level.name == lower word).map Level.rank

/-- A rule from the text `level`, `name`, `name=` or `name=level`; otherwise the part that
cannot be understood. -/
def Rule.parse (text : String) : Except String Rule :=
  match text.toList.splitOn '=' with
  | [_] =>
    match rankOf? text with
    | some bound => .ok ⟨none, bound⟩
    | none => .ok ⟨some text, lastRank⟩
  | [name, level] =>
    let level := Text.trim (String.ofList level)
    if level.isEmpty then .ok ⟨some (String.ofList name), lastRank⟩
    else match rankOf? level with
      | some bound => .ok ⟨some (String.ofList name), bound⟩
      | none => .error level
  | _ => .error text

/-- Whether a rule is for the records of an area. -/
def Rule.covers (rule : Rule) (area : Area) : Bool :=
  rule.name.all fun name => Text.beginsWith name area.target

/-- The length of the name of a rule. -/
def Rule.reach (rule : Rule) : Nat := (rule.name.map String.utf8ByteSize).getD 0

namespace Filter

/-- The filter without rules. -/
def empty : Filter := ⟨[], none⟩

/-- Add a rule; it takes the place of the one with the same name. -/
def insert (filter : Filter) (rule : Rule) : Filter :=
  if filter.rules.any (·.name == rule.name) then
    { filter with rules := filter.rules.map fun old => if old.name = rule.name then rule else old }
  else { filter with rules := filter.rules ++ [rule] }

/-- A complaint about something that is left out. -/
def warning (text : String) : String := "warning: " ++ text ++ ", ignoring it\n"

/-- The text of a complaint about a part of a filter. -/
def complaint (part : String) : String := warning ("invalid logging spec '" ++ part ++ "'")

/-- Add a rule from its text, or complain about it. -/
def insertText (state : Filter × String) (text : String) : Filter × String :=
  if text.isEmpty then state
  else match Rule.parse text with
    | .ok rule => (state.1.insert rule, state.2)
    | .error part => (state.1, state.2 ++ complaint part)

/-- Read the rules of a filter; those that cannot be understood are complained about and left
out. -/
def parseRules (rules : List Char) : Filter × String :=
  let texts := (rules.splitOn ',').map fun cs => String.ofList (Text.trimChars cs)
  texts.foldl insertText (empty, "")

/-- Read a filter; parts that cannot be understood are complained about and left out. -/
def parse (text : String) : Filter × String :=
  match text.toList.splitOn '/' with
  | [rules] => parseRules rules
  | [rules, wanted] =>
    let (filter, complaints) := parseRules rules
    match Regex.ofText (String.ofList wanted) with
    | .ok regex => ({ filter with wanted := some regex }, complaints)
    | .error refusal =>
      (filter, complaints ++ warning ("invalid regex filter - " ++ refusal.message))
  | _ => (empty, warning ("invalid logging spec '" ++ text ++ "' (too many '/'s)"))

/-- The filter that shows records up to a level. -/
def upTo (level : Level) : Filter := ⟨[⟨none, level.rank⟩], none⟩

/-- The rule that counts for an area: of those with the longest name the last one. -/
def ruleFor? (filter : Filter) (area : Area) : Option Rule :=
  (filter.rules.filter (·.covers area)).foldl (fun best rule =>
    if (best.map Rule.reach).getD 0 ≤ rule.reach then some rule else best) none

/-- The rank of the least important level that is shown of an area. A filter without rules
shows errors. -/
def boundFor (filter : Filter) (area : Area) : Nat :=
  if filter.rules.isEmpty then Level.error.rank
  else ((filter.ruleFor? area).map Rule.bound).getD 0

/-- Whether a record is shown. -/
def shows (filter : Filter) (record : Record) : Bool :=
  decide (record.level.rank ≤ filter.boundFor record.area) &&
    filter.wanted.all fun wanted => wanted.finds record.text

end Filter

/-- The line of a record. A line end inside its text is followed by four spaces. -/
def Record.line (record : Record) : String :=
  let level := record.level.name
  let padding := String.ofList (List.replicate (5 - level.length) ' ')
  "[" ++ level ++ padding ++ " " ++ record.area.target ++ "] " ++
    "\n    ".intercalate (Text.pieces record.text) ++ "\n"

end FlameFold.Log
