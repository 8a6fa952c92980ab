import FlameFold.Decimal.Places
import FlameFold.Machine.Tool.Edit

/-!
# Scripts of patterns and actions

The expressions and statements of an `awk` script, and reading a script. An action is
carried out for each line that its pattern fits.
-/

namespace FlameFold.Machine.Tool.Awk

/-- An expression. -/
inductive Expr where
  /-- A number. -/
  | number (q : Rat)
  /-- A text. -/
  | text (chars : List Char)
  /-- Whether a pattern matches in the line, or the pattern itself. -/
  | regex (chars : List Char)
  /-- A field of the line; the field 0 is the line itself. -/
  | field (number : Expr)
  /-- A variable. -/
  | variable (name : String)
  /-- An entry of a table. -/
  | entry (name : String) (keys : List Expr)
  /-- Give a place the value of an expression, or of an operator on its old value. -/
  | assign (place : Expr) (operator : String) (value : Expr)
  /-- Add to a place; with `before` the value is the new one. -/
  | step (before : Bool) (place : Expr) (amount : Int)
  /-- One of two values. -/
  | choice (condition a b : Expr)
  /-- Whether a table has an entry. -/
  | isIn (keys : List Expr) (name : String)
  /-- An operator between two values. -/
  | binary (operator : String) (a b : Expr)
  /-- An operator before a value. -/
  | unary (operator : String) (a : Expr)
  /-- A function of some values. -/
  | call (name : String) (arguments : List Expr)

/-- A statement. -/
inductive Statement where
  /-- Find the value of an expression. -/
  | value (expr : Expr)
  /-- Write values, by a format if `formatted` is set, to a file if there is one. -/
  | print (formatted : Bool) (values : List Expr) (target : Option (Bool × Expr))
  /-- One of two statements. -/
  | choose (condition : Expr) (yes no : List Statement)
  /-- A statement as long as a condition holds; with `first` once before it is asked. -/
  | loop (first : Bool) (condition : Expr) (body after : List Statement)
  /-- A statement for each key of a table. -/
  | each (name table : String) (body : List Statement)
  /-- Take the next line. -/
  | next
  /-- End, with a code if there is one. -/
  | exit (code : Option Expr)
  /-- Leave a loop. -/
  | leave
  /-- Go on with the next turn of a loop. -/
  | again
  /-- Take an entry out of a table, or all of them. -/
  | delete (name : String) (keys : List Expr)

/-- What an action is for. -/
inductive Occasion where
  /-- Before the first line. -/
  | start
  /-- After the last line. -/
  | finish
  /-- Every line. -/
  | every
  /-- The lines for which an expression holds. -/
  | lines (condition : Expr)
  /-- The lines from one for which an expression holds to one for which another does. -/
  | span (first last : Expr)

/-- An action and what it is for. -/
structure Rule where
  /-- Its number. -/
  id : Nat
  /-- What it is for. -/
  occasion : Occasion
  /-- The statements; without any the line is written. -/
  action : Option (List Statement)

/-- A token of a script. -/
inductive Token where
  /-- A number. -/
  | number (q : Rat)
  /-- A text. -/
  | text (chars : List Char)
  /-- A pattern. -/
  | regex (chars : List Char)
  /-- A name; `calls` says whether a parenthesis follows at once. -/
  | name (name : String) (calls : Bool)
  /-- A word of the language. -/
  | word (word : String)
  /-- An operator or a bracket. -/
  | mark (text : String)
  /-- The end of a line. -/
  | line
  deriving DecidableEq

/-- The words of the language. -/
def words : List String :=
  ["BEGIN", "END", "if", "else", "while", "for", "do", "in", "print", "printf", "next", "exit",
    "break", "continue", "delete", "getline", "function", "return"]

/-- The functions that need no parentheses. -/
def bareFunctions : List String := ["length"]

/-- The operators, the longest first. -/
def marks : List String :=
  ["**=", "&&", "||", "==", "!=", "<=", ">=", "!~", "++", "--", "+=", "-=", "*=", "/=", "%=",
    "^=", ">>", "**"]

/-- The characters of a quoted text, and what follows it. -/
def quoted : Nat → List Char → List Char × List Char
  | 0, cs => ([], cs)
  | _, [] => ([], [])
  | _, '"' :: rest => ([], rest)
  | fuel + 1, '\\' :: c :: rest =>
    let (text, left) := quoted fuel rest
    let meant := match c with
      | 'n' => ['\n']
      | 't' => ['\t']
      | 'r' => ['\r']
      | 'a' => ['\x07']
      | '"' => ['"']
      | '\\' => ['\\']
      | '/' => ['/']
      | c => ['\\', c]
    (meant ++ text, left)
  | fuel + 1, c :: rest =>
    let (text, left) := quoted fuel rest
    (c :: text, left)

/-- Whether an operand may end with a token, so that a slash after it divides. -/
def endsOperand : Option Token → Bool
  | some (.number _) | some (.text _) | some (.regex _) | some (.name _ _) => true
  | some (.mark ")") | some (.mark "]") | some (.mark "$") => true
  | some (.mark "++") | some (.mark "--") => true
  | _ => false

/-- The tokens of a script, at most `fuel` of them; `before` is the last one. -/
def tokens : Nat → Option Token → List Char → List Token
  | 0, _, _ => []
  | _, _, [] => []
  | fuel + 1, before, c :: cs =>
    let go (token : Token) (rest : List Char) : List Token := token :: tokens fuel (some token) rest
    if c = ' ' ∨ c = '\t' ∨ c = '\r' then tokens fuel before cs
    else if c = '\\' ∧ cs.head? = some '\n' then tokens fuel before (cs.drop 1)
    else if c = '#' then tokens fuel before (cs.dropWhile (· != '\n'))
    else if c = '\n' then go .line cs
    else if c = '"' then
      let (text, rest) := quoted (cs.length + 1) cs
      go (.text text) rest
    else if c.isDigit ∨ (c = '.' ∧ cs.head?.any Char.isDigit) then
      match Decimal.atFront? (c :: cs) with
      | some (q, rest) => go (.number q) rest
      | none => []
    else if c.isAlpha ∨ c = '_' then
      let name := (c :: cs).takeWhile fun d => d.isAlphanum || d == '_'
      let rest := (c :: cs).drop name.length
      let name := String.ofList name
      if words.contains name then go (.word name) rest
      else go (.name name (rest.head? = some '(')) rest
    else if c = '/' ∧ ¬ endsOperand before then
      match Edit.untilMark '/' cs with
      | some (text, rest) => go (.regex text) rest
      | none => []
    else
      match marks.find? fun mark => mark.toList.isPrefixOf (c :: cs) with
      | some mark => go (.mark mark) ((c :: cs).drop mark.length)
      | none => go (.mark (String.ofList [c])) cs

/-- A step of reading a script, from the tokens that are left. -/
abbrev Reader := StateT (List Token) Option

/-- The next token. -/
def peek : Reader (Option Token) := do return (← get).head?

/-- Pass one token. -/
def advance : Reader Unit := modify (·.drop 1)

/-- Pass a given operator, if it comes next. -/
def accept (mark : String) : Reader Bool := do
  if (← peek) = some (.mark mark) then
    advance
    return true
  else return false

/-- Pass a given operator. -/
def expect (mark : String) : Reader Unit := do
  unless ← accept mark do failure

/-- Pass the ends of lines. -/
def skipLines : Reader Unit := modify (·.dropWhile (· == .line))

/-- Pass the ends of lines and semicolons. -/
def skipEnds : Reader Unit := modify (·.dropWhile fun token => token == .line || token == .mark ";")

/-- The operators between two values, the weakest first; the empty list stands for values
that follow one another. -/
def levels : List (List String) :=
  [["||"], ["&&"], ["in"], ["~", "!~"], ["<", "<=", "==", "!=", ">", ">="], [], ["+", "-"],
    ["*", "/", "%"]]

/-- The operators that give a place a value. -/
def assignments : List String := ["=", "+=", "-=", "*=", "/=", "%=", "^=", "**="]

/-- Whether an expression is a place for a value. -/
def isPlace : Expr → Bool
  | .variable _ | .entry _ _ | .field _ => true
  | _ => false

/-- Whether a value can begin with a token that follows another value. -/
def beginsValue : Option Token → Bool
  | some (.number _) | some (.text _) | some (.regex _) | some (.name _ _) => true
  | some (.mark mark) => ["$", "(", "!", "++", "--"].contains mark
  | _ => false

mutual

/-- Read an expression; in a `print` statement, the mark for greater names a file. -/
def expr : Nat → Bool → Reader Expr
  | 0, _ => failure
  | fuel + 1, inPrint => do
    let first ← level fuel inPrint levels
    if ← accept "?" then
      skipLines
      let a ← expr fuel inPrint
      skipLines
      expect ":"
      skipLines
      let b ← expr fuel inPrint
      return .choice first a b
    match ← peek with
    | some (.mark mark) =>
      if assignments.contains mark ∧ isPlace first then
        advance
        skipLines
        let value ← expr fuel inPrint
        return .assign first (String.ofList mark.toList.dropLast) value
      else return first
    | _ => return first

/-- Read the operators of some levels. -/
def level : Nat → Bool → List (List String) → Reader Expr
  | 0, _, _ => failure
  | fuel + 1, _, [] => unary fuel
  | fuel + 1, inPrint, operators :: rest => do
    let first ← level fuel inPrint rest
    levelRest fuel inPrint operators rest first

/-- Read the operators of one level, from the first operand on. -/
def levelRest : Nat → Bool → List String → List (List String) → Expr → Reader Expr
  | 0, _, _, _, _ => failure
  | fuel + 1, inPrint, operators, rest, first => do
    match ← peek with
    | some (.word "in") =>
      if operators.contains "in" then
        advance
        match ← peek with
        | some (.name table _) =>
          advance
          levelRest fuel inPrint operators rest (.isIn [first] table)
        | _ => failure
      else return first
    | some (.mark mark) =>
      if operators.contains mark ∧ ¬ (inPrint ∧ mark = ">") then
        advance
        skipLines
        let second ← level fuel inPrint rest
        levelRest fuel inPrint operators rest (.binary mark first second)
      else if operators.isEmpty ∧ beginsValue (some (.mark mark)) then
        let second ← level fuel inPrint rest
        levelRest fuel inPrint operators rest (.binary "" first second)
      else return first
    | token =>
      if operators.isEmpty ∧ beginsValue token then
        let second ← level fuel inPrint rest
        levelRest fuel inPrint operators rest (.binary "" first second)
      else return first

/-- Read a value with the operators before it. -/
def unary : Nat → Reader Expr
  | 0 => failure
  | fuel + 1 => do
    match ← peek with
    | some (.mark mark) =>
      if ["!", "-", "+"].contains mark then
        advance
        return .unary mark (← unary fuel)
      else power fuel
    | _ => power fuel

/-- Read a value with an exponent, if there is one. -/
def power : Nat → Reader Expr
  | 0 => failure
  | fuel + 1 => do
    let first ← stepped fuel
    if (← accept "^") || (← accept "**") then
      return .binary "^" first (← unary fuel)
    else return first

/-- Read a value with the steps after it. -/
def stepped : Nat → Reader Expr
  | 0 => failure
  | fuel + 1 => do
    let first ← primary fuel
    if isPlace first then
      if ← accept "++" then return .step false first 1
      if ← accept "--" then return .step false first (-1)
    return first

/-- Read a value without operators. -/
def primary : Nat → Reader Expr
  | 0 => failure
  | fuel + 1 => do
    let token ← peek
    advance
    match token with
    | some (.number q) => return .number q
    | some (.text chars) => return .text chars
    | some (.regex chars) => return .regex chars
    | some (.mark "$") =>
      if ← accept "++" then return .field (.step true (← primary fuel) 1)
      else if ← accept "-" then return .field (.unary "-" (← primary fuel))
      else return .field (← primary fuel)
    | some (.mark "++") => return .step true (← primary fuel) 1
    | some (.mark "--") => return .step true (← primary fuel) (-1)
    | some (.mark "(") =>
      let values ← exprs fuel
      expect ")"
      match values, (← peek) with
      | [value], _ => return .unary "(" value
      | keys, some (.word "in") =>
        advance
        match ← peek with
        | some (.name table _) =>
          advance
          return .isIn keys table
        | _ => failure
      | _, _ => failure
    | some (.name name calls) =>
      if calls then
        advance
        if ← accept ")" then return .call name []
        let values ← exprs fuel
        expect ")"
        return .call name values
      else if ← accept "[" then
        let keys ← exprs fuel
        expect "]"
        return .entry name keys
      else if bareFunctions.contains name then return .call name []
      else return .variable name
    | _ => failure

/-- Read expressions with commas between them. -/
def exprs : Nat → Reader (List Expr)
  | 0 => failure
  | fuel + 1 => do
    skipLines
    let first ← expr fuel false
    skipLines
    if ← accept "," then return first :: (← exprs fuel)
    else return [first]

end

/-- Read the values that a `print` statement writes. -/
def printed : Nat → Reader (List Expr)
  | 0 => failure
  | fuel + 1 => do
    match ← peek with
    | none | some .line | some (.mark ";") | some (.mark "\x7d") | some (.mark ">")
    | some (.mark ">>") | some (.mark "|") => return []
    | _ =>
      let first ← expr fuel true
      if ← accept "," then
        skipLines
        return first :: (← printed fuel)
      else return [first]

/-- The values that a list in parentheses stands for. -/
def unwrapped : List Expr → List Expr
  | [.unary "(" value] => [value]
  | values => values

/-- Read the values of a `print` statement that stand in parentheses, if they do and the
statement ends after them. -/
def grouped (fuel : Nat) : Reader (List Expr) := do
  let before ← get
  let inParens : Reader (Option (List Expr)) := do
    expect "("
    let values ← exprs fuel
    expect ")"
    match ← peek with
    | none | some .line | some (.mark ";") | some (.mark "\x7d") | some (.mark ">")
    | some (.mark ">>") => return some values
    | _ => return none
  match inParens before with
  | some (some values, after) =>
    set after
    return values
  | _ => return unwrapped (← printed fuel)

/-- Read the end of a simple statement. -/
def ending : Reader Unit := do
  match ← peek with
  | some .line | some (.mark ";") => advance
  | _ => return ()

/-- Read a statement without others in it. -/
def simple (fuel : Nat) : Reader Statement := do
  match ← peek with
  | some (.word "print") | some (.word "printf") =>
    let formatted := (← peek) = some (.word "printf")
    advance
    let values ← grouped fuel
    match ← peek with
    | some (.mark ">") =>
      advance
      return .print formatted values (some (false, ← level fuel true (levels.drop 6)))
    | some (.mark ">>") =>
      advance
      return .print formatted values (some (true, ← level fuel true (levels.drop 6)))
    | some (.mark "|") => failure
    | _ => return .print formatted values none
  | some (.word "next") =>
    advance
    return .next
  | some (.word "break") =>
    advance
    return .leave
  | some (.word "continue") =>
    advance
    return .again
  | some (.word "exit") =>
    advance
    match ← peek with
    | none | some .line | some (.mark ";") | some (.mark "\x7d") => return .exit none
    | _ => return .exit (some (← expr fuel false))
  | some (.word "delete") =>
    advance
    match ← peek with
    | some (.name name _) =>
      advance
      if ← accept "[" then
        let keys ← exprs fuel
        expect "]"
        return .delete name keys
      else return .delete name []
    | _ => failure
  | _ => return .value (← expr fuel false)

mutual

/-- Read a statement, or several in braces. -/
def statement : Nat → Reader (List Statement)
  | 0 => failure
  | fuel + 1 => do
    match ← peek with
    | some (.mark "\x7b") =>
      advance
      let body ← statements fuel
      expect "\x7d"
      return body
    | some (.mark ";") =>
      advance
      return []
    | some (.word "if") =>
      advance
      expect "("
      let condition ← expr fuel false
      expect ")"
      skipLines
      let yes ← statement fuel
      let before ← get
      skipEnds
      if (← peek) = some (.word "else") then
        advance
        skipLines
        return [.choose condition yes (← statement fuel)]
      else
        set before
        return [.choose condition yes []]
    | some (.word "while") =>
      advance
      expect "("
      let condition ← expr fuel false
      expect ")"
      if ← accept ";" then return [.loop false condition [] []]
      skipLines
      return [.loop false condition (← statement fuel) []]
    | some (.word "do") =>
      advance
      skipLines
      let body ← statement fuel
      skipEnds
      if (← peek) ≠ some (.word "while") then failure
      advance
      expect "("
      let condition ← expr fuel false
      expect ")"
      ending
      return [.loop true condition body []]
    | some (.word "for") =>
      advance
      expect "("
      match (← get).take 4 with
      | [.name name _, .word "in", .name table _, .mark ")"] =>
        set ((← get).drop 4)
        skipLines
        return [.each name table (← statement fuel)]
      | _ =>
        let first ← part fuel ";"
        expect ";"
        skipLines
        let condition ← if (← peek) = some (.mark ";") then pure (Expr.number 1)
          else expr fuel false
        expect ";"
        skipLines
        let after ← part fuel ")"
        expect ")"
        if ← accept ";" then return first ++ [.loop false condition [] after]
        skipLines
        return first ++ [.loop false condition (← statement fuel) after]
    | _ =>
      let one ← simple fuel
      ending
      return [one]

/-- Read the simple statement before a mark, if there is one. -/
def part : Nat → String → Reader (List Statement)
  | 0, _ => failure
  | fuel + 1, mark => do
    if (← peek) = some (.mark mark) then return []
    else return [← simple fuel]

/-- Read statements up to a closing brace. -/
def statements : Nat → Reader (List Statement)
  | 0 => failure
  | fuel + 1 => do
    skipEnds
    match ← peek with
    | none | some (.mark "\x7d") => return []
    | _ =>
      let first ← statement fuel
      return first ++ (← statements fuel)

end

/-- Read the action of a rule, if there is one. -/
def action (fuel : Nat) : Reader (Option (List Statement)) := do
  if ← accept "\x7b" then
    let body ← statements fuel
    expect "\x7d"
    return some body
  else return none

/-- Read rules, at most `fuel` of them. -/
def rules : Nat → Reader (List Rule)
  | 0 => return []
  | fuel + 1 => do
    skipEnds
    match ← peek with
    | none => return []
    | some (.word "BEGIN") =>
      advance
      let body ← action fuel
      if body.isNone then failure
      return ⟨fuel, .start, body⟩ :: (← rules fuel)
    | some (.word "END") =>
      advance
      let body ← action fuel
      if body.isNone then failure
      return ⟨fuel, .finish, body⟩ :: (← rules fuel)
    | some (.mark "\x7b") => return ⟨fuel, .every, ← action fuel⟩ :: (← rules fuel)
    | _ =>
      let first ← expr fuel false
      if ← accept "," then
        skipLines
        let last ← expr fuel false
        return ⟨fuel, .span first last, ← action fuel⟩ :: (← rules fuel)
      else return ⟨fuel, .lines first, ← action fuel⟩ :: (← rules fuel)

/-- Read a script. -/
def parse (script : List Char) : Option (List Rule) :=
  let all := tokens (script.length + 1) none script
  match (rules (20 * (all.length + 10))) all with
  | some (found, []) => some found
  | _ => none

end FlameFold.Machine.Tool.Awk
