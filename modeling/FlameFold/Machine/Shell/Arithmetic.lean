/-!
# Expressions of whole numbers

The value of an expression in a script. Numbers have 64 bits and wrap around. A name stands
for the number that the value of a variable spells, and an expression can give variables new
values; the part of an expression that does not count for its value gives none.
-/

namespace FlameFold.Machine.Shell.Arithmetic

/-- A token of an expression. -/
inductive Token where
  /-- A whole number. -/
  | number (n : Int64)
  /-- A variable. -/
  | name (text : String)
  /-- An operator or a parenthesis. -/
  | mark (text : String)
  deriving DecidableEq, Repr

/-- Why an expression has no value. -/
inductive Fault where
  /-- Something else had to stand in it. -/
  | expected (what : String)
  /-- A number is divided by zero. -/
  | zero
  /-- The value of a variable is no number. -/
  | illegal (text : String)
  deriving DecidableEq, Repr

/-- The wording of the fault in an expression. -/
def Fault.message (expression : String) : Fault → String
  | .expected what => "arithmetic expression: expecting " ++ what ++ ": \"" ++ expression ++ "\""
  | .zero => "arithmetic expression: division by zero: \"" ++ expression ++ "\""
  | .illegal text => "Illegal number: " ++ text

/-- The value of a digit. -/
def digitValue (c : Char) : Nat :=
  if c.isDigit then c.toNat - '0'.toNat
  else if 'a' ≤ c ∧ c ≤ 'z' then c.toNat - 'a'.toNat + 10
  else if 'A' ≤ c ∧ c ≤ 'Z' then c.toNat - 'A'.toNat + 10
  else 36

/-- The number at the front of a text and what is left: in base sixteen after `0x`, in base
eight after `0`. -/
def leading (cs : List Char) : Nat × List Char :=
  let inBase (base : Nat) (cs : List Char) : Nat × List Char :=
    let digits := cs.takeWhile fun c => digitValue c < base
    (digits.foldl (fun n c => n * base + digitValue c) 0, cs.drop digits.length)
  match cs with
  | '0' :: x :: d :: rest =>
    if (x = 'x' ∨ x = 'X') ∧ digitValue d < 16 then inBase 16 (d :: rest) else inBase 8 cs
  | '0' :: _ => inBase 8 cs
  | _ => inBase 10 cs

/-- The largest number. -/
def largest : Nat := Nat.pow 2 63 - 1

/-- The number that a whole text spells; an empty one spells zero. -/
def spelt? (text : String) : Option Int64 :=
  let isBlank (c : Char) : Bool := c == ' ' || ('\t' ≤ c && c ≤ '\r')
  let (negative, cs) := match text.toList.dropWhile isBlank with
    | '-' :: cs => (true, cs)
    | '+' :: cs => (false, cs)
    | cs => (false, cs)
  let (n, rest) := leading cs
  if rest.any (!isBlank ·) ∨ largest + (if negative then 1 else 0) < n then none
  else some (Int64.ofInt (if negative then -(n : Int) else n))

/-- The marks of more than one character, the longest first. -/
def longMarks : List String :=
  ["<<=", ">>=", "<=", ">=", "==", "!=", "&&", "||", "<<", ">>", "+=", "-=", "*=", "/=", "%=",
    "&=", "^=", "|="]

/-- Cut an expression into at most `fuel` tokens. -/
def tokens : Nat → List Char → List Token
  | 0, _ => []
  | _, [] => []
  | fuel + 1, c :: cs =>
    if c = ' ' ∨ c = '\t' ∨ c = '\n' then tokens fuel cs
    else if c.isDigit then
      let (n, rest) := leading (c :: cs)
      .number (Int64.ofNat (min n largest)) :: tokens fuel rest
    else if c.isAlpha ∨ c = '_' then
      let name := (c :: cs).takeWhile fun d => d.isAlphanum || d == '_'
      .name (String.ofList name) :: tokens fuel ((c :: cs).drop name.length)
    else
      let mark := (longMarks.find? fun mark => mark.toList.isPrefixOf (c :: cs)).getD
        (String.ofList [c])
      .mark mark :: tokens fuel (cs.drop (mark.length - 1))

/-- What is left of an expression, and the variables with the values they have so far. -/
structure Desk where
  /-- The tokens that are left. -/
  tokens : List Token
  /-- The variables that have been given values, the last one first. -/
  given : List (String × String)

/-- A step of an evaluation. -/
abbrev Eval := EStateM Fault Desk

/-- The value of an operator between two numbers. -/
def apply (mark : String) (a b : Int64) : Eval Int64 :=
  let truth (p : Bool) : Int64 := if p then 1 else 0
  match mark with
  | "|" => return a ||| b
  | "^" => return a ^^^ b
  | "&" => return a &&& b
  | "==" => return truth (a == b)
  | "!=" => return truth (a != b)
  | "<" => return truth (a < b)
  | ">" => return truth (a > b)
  | "<=" => return truth (a ≤ b)
  | ">=" => return truth (a ≥ b)
  | "<<" => return a <<< b
  | ">>" => return a >>> b
  | "+" => return a + b
  | "-" => return a - b
  | "*" => return a * b
  | "/" => if b = 0 then throw .zero else return a / b
  | "%" => if b = 0 then throw .zero else return a % b
  | _ => return b

/-- The operators between two numbers, the weakest first. -/
def levels : List (List String) :=
  [["||"], ["&&"], ["|"], ["^"], ["&"], ["==", "!="], ["<", ">", "<=", ">="], ["<<", ">>"],
    ["+", "-"], ["*", "/", "%"]]

/-- The operators that give a variable a value. -/
def givingMarks : List String :=
  ["=", "+=", "-=", "*=", "/=", "%=", "<<=", ">>=", "&=", "^=", "|="]

/-- The next token, if there is one. -/
def peek : Eval (Option Token) := do return (← get).tokens.head?

/-- Pass a token. -/
def pass : Eval Unit := modify fun desk => { desk with tokens := desk.tokens.drop 1 }

/-- Pass a mark that has to stand there. -/
def close (mark what : String) : Eval Unit := do
  if (← peek) = some (.mark mark) then pass else throw (.expected what)

/-- The number that a variable stands for. -/
def numberOf (value : String → String) (name : String) : Eval Int64 := do
  let text := ((← get).given.lookup name).getD (value name)
  match spelt? text with
  | some n => return n
  | none => throw (.illegal text)

mutual

/-- The value of an expression that may give a variable a value; an idle one counts for
nothing. -/
def giving : Nat → (String → String) → Bool → Eval Int64
  | 0, _, _ => throw (.expected "primary")
  | fuel + 1, value, idle => do
    match (← get).tokens with
    | .name name :: .mark mark :: _ =>
      if givingMarks.contains mark then
        pass
        pass
        let right ← giving fuel value idle
        if idle then return right
        let result ← if mark = "=" then pure right
          else do apply (String.ofList mark.toList.dropLast) (← numberOf value name) right
        modify fun desk => { desk with given := (name, Int.repr result.toInt) :: desk.given }
        return result
      else choice fuel value idle
    | _ => choice fuel value idle

/-- The value of an expression that may choose between two others. -/
def choice : Nat → (String → String) → Bool → Eval Int64
  | 0, _, _ => throw (.expected "primary")
  | fuel + 1, value, idle => do
    let condition ← level fuel value idle levels
    if (← peek) = some (.mark "?") then
      pass
      let first ← giving fuel value (idle || condition == 0)
      close ":" "':'"
      let second ← choice fuel value (idle || condition != 0)
      return if condition = 0 then second else first
    else return condition

/-- The value of the operators of some levels. -/
def level : Nat → (String → String) → Bool → List (List String) → Eval Int64
  | 0, _, _, _ => throw (.expected "primary")
  | fuel + 1, value, idle, [] => operand fuel value idle
  | fuel + 1, value, idle, marks :: rest => do
    let first ← level fuel value idle rest
    levelRest fuel value idle marks rest first

/-- The value of the operators of one level, from the first operand on. -/
def levelRest : Nat → (String → String) → Bool → List String → List (List String) → Int64 →
    Eval Int64
  | 0, _, _, _, _, _ => throw (.expected "primary")
  | fuel + 1, value, idle, marks, rest, first => do
    match ← peek with
    | some (.mark mark) =>
      if marks.contains mark then
        pass
        let decided := (mark == "||" && first != 0) || (mark == "&&" && first == 0)
        let second ← level fuel value (idle || decided) rest
        let result ← if mark = "||" then pure (if first != 0 || second != 0 then 1 else 0)
          else if mark = "&&" then pure (if first != 0 && second != 0 then 1 else 0)
          else if idle then pure second
          else apply mark first second
        levelRest fuel value idle marks rest result
      else return first
    | _ => return first

/-- The value of one operand. -/
def operand : Nat → (String → String) → Bool → Eval Int64
  | 0, _, _ => throw (.expected "primary")
  | fuel + 1, value, idle => do
    match ← peek with
    | some (.number n) =>
      pass
      return n
    | some (.name name) =>
      pass
      if idle then return 0 else numberOf value name
    | some (.mark "-") =>
      pass
      return -(← operand fuel value idle)
    | some (.mark "+") =>
      pass
      operand fuel value idle
    | some (.mark "~") =>
      pass
      return ~~~(← operand fuel value idle)
    | some (.mark "!") =>
      pass
      return if (← operand fuel value idle) = 0 then 1 else 0
    | some (.mark "(") =>
      pass
      let result ← giving fuel value idle
      close ")" "')'"
      return result
    | _ => throw (.expected "primary")

end

/-- The value of an expression, and the variables that it gives values, the last one first. -/
def evaluate (value : String → String) (expression : String) :
    Except Fault (Int × List (String × String)) :=
  let all := tokens (expression.length + 1) expression.toList
  let whole : Eval Int64 := do
    let result ← giving (20 * (all.length + 2)) value false
    if (← peek).isSome then throw (.expected "EOF")
    return result
  match whole.run ⟨all, []⟩ with
  | .ok result desk => .ok (result.toInt, desk.given)
  | .error fault _ => .error fault

end FlameFold.Machine.Shell.Arithmetic
