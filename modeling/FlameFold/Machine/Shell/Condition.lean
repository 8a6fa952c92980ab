import FlameFold.Machine.Format

/-!
# Conditions

What a script can ask about files, texts and numbers. The words of a condition are read from
the left; whether a word is a mark depends on the words after it.
-/

namespace FlameFold.Machine.Shell.Condition

/-- The marks before one word. -/
def singleMarks : List String :=
  ["-r", "-w", "-x", "-e", "-f", "-d", "-c", "-b", "-p", "-u", "-g", "-k", "-s", "-t", "-z",
    "-n", "-h", "-O", "-G", "-L", "-S"]

/-- The marks between two words. -/
def doubleMarks : List String :=
  ["=", "!=", "<", ">", "-eq", "-ne", "-ge", "-gt", "-le", "-lt", "-nt", "-ot", "-ef"]

/-- What a word is in a condition. -/
inductive Role where
  /-- A word that is asked about. -/
  | operand
  /-- The end. -/
  | ending
  /-- A mark before one word. -/
  | single (mark : String)
  /-- A mark between two words. -/
  | double (mark : String)
  /-- A mark that joins conditions, negates one or surrounds them. -/
  | joint (mark : String)
  deriving DecidableEq, Repr

/-- What the first of some words is. -/
def role : List String → Role
  | [] => .ending
  | word :: rest =>
    if singleMarks.contains word then
      match rest with
      | [] => .operand
      | [_] => .single word
      | next :: _ => if doubleMarks.contains next then .operand else .single word
    else if doubleMarks.contains word then .double word
    else if word = "(" ∧ rest.isEmpty then .operand
    else if ["!", "-a", "-o", "(", ")"].contains word then .joint word
    else .operand

/-- The number that a word spells. -/
def numberOf (word : String) : Except String Int :=
  match Format.whole? (Text.trim word) with
  | some n => .ok n
  | none => .error ("Illegal number: " ++ word)

/-- Whether a condition on a file or a text holds. -/
def single (files : FileSystem) (mark word : String) : Bool :=
  let node? := files.find? ⟨word⟩
  match mark with
  | "-n" => !word.isEmpty
  | "-z" => word.isEmpty
  | "-e" | "-r" | "-w" | "-O" | "-G" => node?.isSome
  | "-f" => files.isFile ⟨word⟩
  | "-d" => files.isDirectory ⟨word⟩
  | "-s" => match node? with
    | some (.file content _) => !content.isEmpty
    | some .directory => true
    | _ => false
  | "-x" => match node? with
    | some (.file _ executable) => executable
    | some .directory => true
    | _ => false
  | "-c" => match node? with
    | some (.device _) => true
    | _ => false
  | _ => false

/-- Whether a condition on two words holds. -/
def double (files : FileSystem) (mark a b : String) : Except String Bool := do
  match mark with
  | "=" => return a == b
  | "!=" => return a != b
  | "<" => return decide (a < b)
  | ">" => return decide (b < a)
  | "-nt" => return files.pathExists ⟨a⟩ && !files.pathExists ⟨b⟩
  | "-ot" => return !files.pathExists ⟨a⟩ && files.pathExists ⟨b⟩
  | "-ef" => return files.pathExists ⟨a⟩ &&
      (files.locate ⟨a⟩).toOption == (files.locate ⟨b⟩).toOption
  | _ =>
    let m ← numberOf a
    let n ← numberOf b
    match mark with
    | "-eq" => return m == n
    | "-ne" => return m != n
    | "-ge" => return decide (n ≤ m)
    | "-gt" => return decide (n < m)
    | "-le" => return decide (m ≤ n)
    | _ => return decide (m < n)

mutual

/-- Whether one of some conditions holds, and the words from the last one that was read on. -/
def either (files : FileSystem) : Nat → List String → Except String (Bool × List String)
  | 0, words => .ok (false, words)
  | fuel + 1, words => do
    let (first, words) ← both files fuel words
    if role (words.drop 1) = .joint "-o" then
      let (others, words) ← either files fuel (words.drop 2)
      return (first || others, words)
    else return (first, words)

/-- Whether all of some conditions hold. -/
def both (files : FileSystem) : Nat → List String → Except String (Bool × List String)
  | 0, words => .ok (false, words)
  | fuel + 1, words => do
    let (first, words) ← negated files fuel words
    if role (words.drop 1) = .joint "-a" then
      let (others, words) ← both files fuel (words.drop 2)
      return (first && others, words)
    else return (first, words)

/-- Whether a condition holds that may be negated. -/
def negated (files : FileSystem) : Nat → List String → Except String (Bool × List String)
  | 0, words => .ok (false, words)
  | fuel + 1, words =>
    if role words = .joint "!" then do
      let words := if words.length < 2 then [] else words.drop 1
      let (holds, words) ← negated files fuel words
      return (!holds, words)
    else primary files fuel words

/-- Whether a condition without joints holds. -/
def primary (files : FileSystem) : Nat → List String → Except String (Bool × List String)
  | 0, words => .ok (false, words)
  | fuel + 1, words => do
    match role words, words with
    | .ending, _ => return (false, words)
    | .joint "(", _ :: inside =>
      if role inside = .joint ")" then return (false, inside)
      let (holds, words) ← either files fuel inside
      if role (words.drop 1) ≠ .joint ")" then throw "closing paren expected"
      return (holds, words.drop 1)
    | .single mark, _ :: rest =>
      match rest with
      | [] => throw (mark ++ ": argument expected")
      | word :: _ => return (single files mark word, rest)
    | _, word :: rest =>
      match role rest, rest with
      | .double mark, _ :: after =>
        match after with
        | [] => throw (mark ++ ": argument expected")
        | other :: _ => return (← double files mark word other, after)
      | _, _ => return (!word.isEmpty, words)
    | _, [] => return (false, words)

end

/-- Whether all words make a condition that holds. -/
def whole (files : FileSystem) (words : List String) : Except String Bool := do
  let (holds, left) ← either files (4 * words.length + 4) words
  match left with
  | word :: _ :: _ => throw ((if word.isEmpty then "" else word ++ ": ") ++ "unexpected operator")
  | _ => return holds

/-- Whether a condition holds. Three words with a mark in their middle are about the two
words around it; an exclamation mark before at most three words negates them. -/
def test (files : FileSystem) (words : List String) : Except String Bool :=
  match words with
  | [] => .ok false
  | [a, mark, b] =>
    if doubleMarks.contains mark then double files mark a b
    else if a = "!" then (test files [mark, b]).map (!·)
    else if a = "(" ∧ b = ")" then whole files [mark]
    else whole files words
  | [a, b, c, d] =>
    if a = "(" ∧ d = ")" then whole files [b, c]
    else if a = "!" then (test files [b, c, d]).map (!·)
    else whole files words
  | _ => whole files words
termination_by words.length

end FlameFold.Machine.Shell.Condition
