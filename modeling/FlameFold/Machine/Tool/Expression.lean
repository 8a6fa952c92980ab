import FlameFold.Machine.Tool.Search

/-!
# Values of expressions

The tool `expr` finds the value of an expression whose parts are words of their own.
-/

namespace FlameFold.Machine.Tool.Expression

/-- The operators, the weakest first. -/
def levels : List (List String) :=
  [["|"], ["&"], ["<", "<=", "=", "==", "!=", ">=", ">"], ["+", "-"], ["*", "/", "%"], [":"]]

/-- What is wrong with an expression. -/
inductive Fault where
  /-- It is no expression. -/
  | unreadable
  /-- Something has to come after a word. -/
  | endsAfter (word : String)
  /-- A word has no place in it. -/
  | unexpected (word : String)
  /-- A text stands in the place of a number. -/
  | notNumber
  /-- A number is divided by zero. -/
  | zero

/-- The wording of what is wrong. -/
def Fault.message : Fault → String
  | .unreadable => "syntax error"
  | .endsAfter word => "syntax error: missing argument after '" ++ word ++ "'"
  | .unexpected word => "syntax error: unexpected argument '" ++ word ++ "'"
  | .notNumber => "non-integer argument"
  | .zero => "division by zero"

/-- A whole number with a sign, if the text is one. -/
def whole? (text : String) : Option Int :=
  match text.toList with
  | '-' :: rest => (leadingNumber? rest).map fun n => -(n : Int)
  | cs => (leadingNumber? cs).map fun n => (n : Int)

/-- Whether a value counts as nothing. -/
def isNothing (value : String) : Bool := value.isEmpty || whole? value == some 0

/-- What a pattern matches at the front of a text: the group, or the number of characters. -/
def matched (text pattern : String) : String :=
  match Regex.Posix.parse false (textChars pattern) with
  | .error _ => "0"
  | .ok regex =>
    let chars := textChars text
    let hasGroup := (pattern.splitOn "\\(").length ≠ 1
    let anchored := Regex.sequence (.look Regex.Look.start) regex
    match Regex.matchFrom? (anchored.on chars) chars.length 0 with
    | some one =>
      if hasGroup then Text.decodeLossy (charBytes (one.stretch chars 1))
      else Nat.repr one.last
    | none => if hasGroup then "" else "0"

/-- The value of an operator. -/
def apply (mark a b : String) : Except Fault String := do
  let truth (p : Bool) : String := if p then "1" else "0"
  let order := match whole? a, whole? b with
    | some x, some y => compare x y
    | _, _ => compare a b
  let number (operate : Int → Int → Except Fault Int) : Except Fault String := do
    match whole? a, whole? b with
    | some x, some y => return Int.repr (← operate x y)
    | _, _ => .error .notNumber
  match mark with
  | "|" => return if isNothing a then (if b.isEmpty then "0" else b) else a
  | "&" => return if isNothing a || isNothing b then "0" else a
  | "<" => return truth (order == .lt)
  | "<=" => return truth (order != .gt)
  | "=" | "==" => return truth (order == .eq)
  | "!=" => return truth (order != .eq)
  | ">=" => return truth (order != .lt)
  | ">" => return truth (order == .gt)
  | "+" => number fun x y => .ok (x + y)
  | "-" => number fun x y => .ok (x - y)
  | "*" => number fun x y => .ok (x * y)
  | "/" => number fun x y => if y = 0 then .error .zero else .ok (x.tdiv y)
  | "%" => number fun x y => if y = 0 then .error .zero else .ok (x.tmod y)
  | ":" => return matched a b
  | _ => .error .unreadable

mutual

/-- The value of the operators of some levels, and the words that are left. -/
def level : Nat → List (List String) → List String → Except Fault (String × List String)
  | 0, _, _ => .error .unreadable
  | fuel + 1, [], words => operand fuel words
  | fuel + 1, marks :: rest, words => do
    let (first, words) ← level fuel rest words
    levelRest fuel marks rest first words

/-- The value of the operators of one level, from the first operand on. -/
def levelRest : Nat → List String → List (List String) → String → List String →
    Except Fault (String × List String)
  | 0, _, _, _, _ => .error .unreadable
  | fuel + 1, marks, rest, first, words =>
    match words with
    | mark :: more =>
      if marks.contains mark then do
        if more.isEmpty then throw (.endsAfter mark)
        let (second, words) ← level fuel rest more
        levelRest fuel marks rest (← apply mark first second) words
      else .ok (first, words)
    | [] => .ok (first, [])

/-- The value of one operand, and the words that are left. -/
def operand : Nat → List String → Except Fault (String × List String)
  | 0, _ => .error .unreadable
  | fuel + 1, words =>
    match words with
    | "(" :: rest => do
      match ← level fuel levels rest with
      | (value, ")" :: rest) => return (value, rest)
      | (_, word :: _) => .error (.unexpected word)
      | _ => .error .unreadable
    | "length" :: text :: rest => .ok (Nat.repr text.utf8ByteSize, rest)
    | "substr" :: text :: place :: size :: rest =>
      let number (word : String) : Nat := ((whole? word).getD 0).toNat
      let chars := text.toList.drop (number place - 1)
      .ok (if number place = 0 then "" else String.ofList (chars.take (number size)), rest)
    | "index" :: text :: part :: rest =>
      let found := text.toList.findIdx? part.toList.contains
      .ok (Nat.repr ((found.map (· + 1)).getD 0), rest)
    | "match" :: text :: pattern :: rest => .ok (matched text pattern, rest)
    | "+" :: word :: rest => .ok (word, rest)
    | word :: rest => .ok (word, rest)
    | [] => .error .unreadable

end

end Expression

/-- Find the value of an expression. -/
def expr (arguments : List String) (files : FileSystem) (input : List UInt8) : Trace :=
  if arguments.isEmpty then
    { complainedMissing "expr" "operand" files input with status := .exited 2 }
  else
    let wrong (fault : Expression.Fault) : Trace :=
      { complained files input 2 ("expr: " ++ fault.message) with status := .exited 2 }
    match Expression.level (20 * (arguments.length + 2)) Expression.levels arguments with
    | .ok (value, []) =>
      ⟨files, input, lineBytes value, [],
        .exited (if Expression.isNothing value then 1 else 0), 0⟩
    | .ok (_, word :: _) => wrong (.unexpected word)
    | .error fault => wrong fault

end FlameFold.Machine.Tool
