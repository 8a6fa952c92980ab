import FlameFold.Machine.Format
import FlameFold.Machine.Tool.Awk.Script

/-!
# Carrying out patterns and actions

A value is a number or a text, and is taken for the other where that is needed. A field of a
line is compared as a number if it looks like one.
-/

namespace FlameFold.Machine.Tool.Awk

/-- A value. -/
inductive Value where
  /-- A value that has not been given. -/
  | unset
  /-- A number. -/
  | number (q : Rat)
  /-- A text. -/
  | text (chars : List Char)
  /-- A text that was read. -/
  | input (chars : List Char)

/-- The characters without the blanks at their front. -/
def withoutBlanks (cs : List Char) : List Char :=
  cs.dropWhile fun c => c == ' ' || c == '\t' || c == '\n'

/-- The number at the front of a text with a sign, and what is left; nothing where there is
none. -/
def signedNumber? (cs : List Char) : Option (Rat × List Char) :=
  match withoutBlanks cs with
  | '-' :: rest => (Decimal.atFront? rest).map fun (q, left) => (-q, left)
  | '+' :: rest => Decimal.atFront? rest
  | rest => Decimal.atFront? rest

/-- The number that a text is as a whole. -/
def wholeNumber? (cs : List Char) : Option Rat :=
  match signedNumber? cs with
  | some (q, left) => if (withoutBlanks left).isEmpty then some q else none
  | none => none

namespace Value

/-- The value as a number. -/
def toNumber : Value → Rat
  | .unset => 0
  | .number q => q
  | .text cs | .input cs => ((signedNumber? cs).map Prod.fst).getD 0

/-- The value as a text. -/
def toText : Value → List Char
  | .unset => []
  | .number q =>
    let isSmall := q.num.natAbs < Nat.pow 2 63
    (if q.den = 1 ∧ isSmall then Int.repr q.num else Decimal.generalText 6 q).toList
  | .text cs | .input cs => cs

/-- The number that a value is compared as, if it is. -/
def compared? : Value → Option Rat
  | .unset => some 0
  | .number q => some q
  | .text _ => none
  | .input cs => wholeNumber? cs

/-- Whether a value counts as true. -/
def holds : Value → Bool
  | .unset => false
  | .number q => q != 0
  | .text cs => !cs.isEmpty
  | .input cs => match wholeNumber? cs with
    | some q => q != 0
    | none => !cs.isEmpty

/-- A truth value as a number. -/
def ofBool (b : Bool) : Value := .number (if b then 1 else 0)

/-- A value as a whole number, cut off at the point. -/
def toInt (value : Value) : Int :=
  let q := value.toNumber
  if q < 0 then -(-q).floor else q.floor

end Value

/-- What the actions share. -/
structure State where
  /-- The line. -/
  line : List Char
  /-- Its fields. -/
  fields : List (List Char)
  /-- The values of the variables. -/
  values : List (String × Value)
  /-- The entries of the tables. -/
  tables : List (String × List (List Char × Value))
  /-- What has been written, the last stretch first. -/
  written : List (List UInt8)
  /-- What has been written as complaints. -/
  complaints : List UInt8
  /-- The files. -/
  files : FileSystem
  /-- The files that have been written to. -/
  opened : List String
  /-- The rules that are meant for lines up to a later one. -/
  active : List Nat

/-- What ends more than one statement. -/
inductive Leave where
  /-- The next line is taken. -/
  | next
  /-- All ends, with a code. -/
  | exit (code : Nat)
  /-- A loop ends. -/
  | leave
  /-- A loop goes on. -/
  | again
  /-- The script does not end. -/
  | stuck

/-- A step of a script. -/
abbrev Act := EStateM Leave State

/-- The value of a variable. -/
def valueOf (name : String) : Act Value := do
  let state ← get
  if name = "NF" then return .number state.fields.length
  else return (state.values.lookup name).getD .unset

/-- The text of a variable. -/
def textOf (name : String) : Act (List Char) := do return (← valueOf name).toText

/-- The fields of a text under a separator. -/
def fieldsUnder (separator line : List Char) : List (List Char) :=
  let pieces (regex : Regex Regex.CharSet Regex.Look) : List (List Char) :=
    let matching := (Regex.allMatches regex line).filter fun one => one.first < one.last
    let (place, found) := matching.foldl (fun (place, found) one =>
      (one.last, ((line.drop place).take (one.first - place)) :: found)) (0, [])
    (line.drop place :: found).reverse
  if separator = [' '] then
    (line.splitOnP fun c => c == ' ' || c == '\t' || c == '\n').filter (!·.isEmpty)
  else if line.isEmpty then []
  else match separator with
    | [] => line.map fun c => [c]
    | [c] => if c = '\\' then [line] else line.splitOn c
    | _ => match Regex.Posix.parse true (Edit.withControls separator) with
      | .ok regex => pieces regex
      | .error _ => [line]

/-- Set the line. -/
def setLine (line : List Char) : Act Unit := do
  let separator ← textOf "FS"
  modify fun state => { state with line := line, fields := fieldsUnder separator line }

/-- Put the line together from its fields. -/
def joinFields : Act Unit := do
  let joint ← textOf "OFS"
  modify fun state => { state with line := joint.intercalate state.fields }

/-- Set a field. -/
def setField (n : Nat) (text : List Char) : Act Unit := do
  if n = 0 then setLine text
  else
    modify fun state =>
      let padded := state.fields ++ List.replicate (n - state.fields.length) []
      { state with fields := padded.take (n - 1) ++ text :: padded.drop n }
    joinFields

/-- Set a variable. -/
def setVariable (name : String) (value : Value) : Act Unit := do
  if name = "NF" then
    let n := value.toInt.toNat
    modify fun state =>
      { state with fields := state.fields.take n ++ List.replicate (n - state.fields.length) [] }
    joinFields
  else modify fun state =>
    { state with values := (name, value) :: state.values.filter (·.1 != name) }

/-- The entries of a table. -/
def entriesOf (name : String) : Act (List (List Char × Value)) := do
  return ((← get).tables.lookup name).getD []

/-- Set the entries of a table. -/
def setEntries (name : String) (entries : List (List Char × Value)) : Act Unit :=
  modify fun state =>
    { state with tables := (name, entries) :: state.tables.filter (·.1 != name) }

/-- Set an entry of a table. -/
def setEntry (name : String) (key : List Char) (value : Value) : Act Unit := do
  let entries ← entriesOf name
  if entries.any (·.1 == key) then
    setEntries name (entries.map fun entry => if entry.1 = key then (key, value) else entry)
  else setEntries name (entries ++ [(key, value)])

/-- The value of an operator on numbers. -/
def arithmetic (operator : String) (a b : Rat) : Act Rat := do
  let found := match operator with
    | "+" => some (a + b)
    | "-" => some (a - b)
    | "*" => some (a * b)
    | "/" => if b = 0 then none else some (a / b)
    | "%" =>
      if b = 0 then none
      else
        let q := a / b
        some (a - b * (if q < 0 then -((-q).floor : Rat) else (q.floor : Rat)))
    | _ =>
      let n := (min 1100 b.floor.natAbs)
      let power : Rat := a ^ n
      if b < 0 then (if power = 0 then none else some (1 / power)) else some power
  match found with
  | some q => return Decimal.nearest q
  | none =>
    modify fun state =>
      { state with complaints := state.complaints ++ lineBytes "awk: division by zero" }
    throw (.exit 2)

/-- Whether an order between two values holds. -/
def ordered (operator : String) (a b : Value) : Bool :=
  let order : Ordering := match a.compared?, b.compared? with
    | some x, some y => if x < y then .lt else if x = y then .eq else .gt
    | _, _ => compare a.toText b.toText
  match operator with
  | "<" => order == .lt
  | "<=" => order != .gt
  | "==" => order == .eq
  | "!=" => order != .eq
  | ">" => order == .gt
  | _ => order != .lt

/-- A regular expression from its text. -/
def regexOf (text : List Char) : Act (Regex Regex.CharSet Regex.Look) := do
  match Regex.Posix.parse true (Edit.withControls text) with
  | .ok regex => return regex
  | .error _ => throw (.exit 2)

/-- The pieces of what a match is replaced by. -/
def replacementPieces : List Char → List Edit.Piece
  | '\\' :: '&' :: rest => .char '&' :: replacementPieces rest
  | '\\' :: '\\' :: rest => .char '\\' :: replacementPieces rest
  | '&' :: rest => .group 0 :: replacementPieces rest
  | c :: rest => .char c :: replacementPieces rest
  | [] => []

/-- A value in a form. -/
def formatOne (shape : Format.Shape) (form : Char) (value : Value) : List Char :=
  byteChars <| match form with
    | 's' => shape.text (charBytes value.toText)
    | 'c' => { shape with places := none }.text (match value with
      | .number q => [UInt8.ofNat q.floor.toNat]
      | other => charBytes (other.toText.take 1))
    | 'e' | 'E' | 'f' | 'F' | 'g' | 'G' => shape.broken form value.toNumber
    | _ => shape.whole form value.toInt

/-- The number that a count says, and the values that are left. -/
def countOf (count : Format.Count) (values : List Value) : Option Int × List Value :=
  match count with
  | .absent => (none, values)
  | .given n => (some n, values)
  | .next => (some (values.headD .unset).toInt, values.drop 1)

/-- The text of values in a format, at most `fuel` pieces of it, and whether there were
values for all of it. -/
def formatted : Nat → List Char → List Value → List Char × Bool
  | 0, _, _ => ([], true)
  | _, [], _ => ([], true)
  | fuel + 1, '%' :: rest, values =>
    match Format.directive rest with
    | (.argument flags width places form, rest) =>
      let (width?, values) := countOf width values
      let (places?, values) := countOf places values
      match values with
      | [] => ([], false)
      | value :: values =>
        let width := width?.getD 0
        let shape : Format.Shape := ⟨if width < 0 then '-' :: flags else flags, width.natAbs,
          places?.bind fun n => if n < 0 then none else some n.toNat⟩
        let (more, whole) := formatted fuel rest values
        (formatOne shape form value ++ more, whole)
    | (.bytes bytes, rest) =>
      let (more, whole) := formatted fuel rest values
      (byteChars bytes ++ more, whole)
    | (_, rest) => formatted fuel rest values
  | fuel + 1, c :: rest, values =>
    let (more, whole) := formatted fuel rest values
    (c :: more, whole)

/-- The text of a first value in which the others stand. Where values are missing, what came
before them is written and the script ends. -/
def formattedAll (name : String) (write : List Char → Act Unit) (values : List Value) :
    Act (List Char) := do
  let format := (values.headD .unset).toText
  let (text, whole) := formatted (format.length + 1) format (values.drop 1)
  if whole then return text
  else
    write text
    let file ← textOf "FILENAME"
    let number (name : String) : Act (List Char) := do
      return (← valueOf name).toNumber.floor.repr.toList
    let complaint := "awk: run time error: not enough arguments passed to ".toList ++ name.toList ++
      "(\"".toList ++ format ++ "\")\n\tFILENAME=\"".toList ++ file ++ "\" FNR=".toList ++
      (← number "FNR") ++ " NR=".toList ++ (← number "NR") ++ ['\n']
    modify fun state => { state with complaints := state.complaints ++ charBytes complaint }
    throw (.exit 2)

mutual

/-- The value of an expression. -/
def eval (fuel : Nat) (expr : Expr) : Act Value := do
  match fuel with
  | 0 => throw .stuck
  | fuel + 1 =>
    match expr with
    | .number q => return .number q
    | .text chars => return .text chars
    | .regex chars =>
      let regex ← regexOf chars
      return .ofBool (Edit.found regex (← get).line)
    | .field number =>
      let n := (← eval fuel number).toInt.toNat
      let state ← get
      return if n = 0 then .input state.line else match state.fields[n - 1]? with
        | some text => .input text
        | none => .unset
    | .variable name => valueOf name
    | .entry name keys =>
      let key ← keyOf fuel keys
      match (← entriesOf name).lookup key with
      | some value => return value
      | none =>
        setEntry name key .unset
        return .unset
    | .assign place operator value =>
      let value ← eval fuel value
      let value ← if operator = "" then pure value
        else do
          let old ← eval fuel place
          pure (Value.number (← arithmetic operator old.toNumber value.toNumber))
      setPlace fuel place value
      return value
    | .step before place amount =>
      let old := (← eval fuel place).toNumber
      let new := Value.number (old + amount)
      setPlace fuel place new
      return if before then new else .number old
    | .choice condition a b =>
      if (← eval fuel condition).holds then eval fuel a else eval fuel b
    | .isIn keys name =>
      let key ← keyOf fuel keys
      return .ofBool ((← entriesOf name).any (·.1 == key))
    | .unary operator a =>
      let value ← eval fuel a
      return match operator with
        | "!" => .ofBool (!value.holds)
        | "-" => .number (-value.toNumber)
        | "+" => .number value.toNumber
        | _ => value
    | .binary operator a b =>
      match operator with
      | "&&" => return .ofBool ((← eval fuel a).holds && (← eval fuel b).holds)
      | "||" =>
        if (← eval fuel a).holds then return .ofBool true
        else return .ofBool (← eval fuel b).holds
      | "~" | "!~" =>
        let text := (← eval fuel a).toText
        let regex ← regexOf (← patternOf fuel b)
        return .ofBool (Edit.found regex text == (operator == "~"))
      | _ =>
        let first ← eval fuel a
        let second ← eval fuel b
        if operator = "" then return .text (first.toText ++ second.toText)
        else if ["<", "<=", "==", "!=", ">", ">="].contains operator then
          return .ofBool (ordered operator first second)
        else return .number (← arithmetic operator first.toNumber second.toNumber)
    | .call name arguments => call fuel name arguments

/-- The text of a pattern that an expression stands for. -/
def patternOf (fuel : Nat) (expr : Expr) : Act (List Char) := do
  match fuel, expr with
  | 0, _ => throw .stuck
  | _, .regex chars => return chars
  | fuel + 1, other => return (← eval fuel other).toText

/-- The key that some expressions stand for. -/
def keyOf (fuel : Nat) (keys : List Expr) : Act (List Char) := do
  match fuel with
  | 0 => throw .stuck
  | fuel + 1 =>
    let values ← evalAll fuel keys
    return ['\x1c'].intercalate (values.map Value.toText)

/-- The values of some expressions. -/
def evalAll (fuel : Nat) (exprs : List Expr) : Act (List Value) := do
  match fuel, exprs with
  | 0, _ => throw .stuck
  | _, [] => return []
  | fuel + 1, first :: rest =>
    let value ← eval fuel first
    return value :: (← evalAll fuel rest)

/-- Give a place a value. -/
def setPlace (fuel : Nat) (place : Expr) (value : Value) : Act Unit := do
  match fuel, place with
  | 0, _ => throw .stuck
  | _, .variable name => setVariable name value
  | fuel + 1, .entry name keys => setEntry name (← keyOf fuel keys) value
  | fuel + 1, .field number => setField (← eval fuel number).toInt.toNat value.toText
  | _, _ => return ()

/-- The value of a function. -/
def call (fuel : Nat) (name : String) (arguments : List Expr) : Act Value := do
  match fuel with
  | 0 => throw .stuck
  | fuel + 1 =>
    match name, arguments with
    | "split", text :: .variable table :: more =>
      let text := (← eval fuel text).toText
      let separator ← match more with
        | separator :: _ => patternOf fuel separator
        | [] => textOf "FS"
      let pieces := fieldsUnder separator text
      setEntries table (pieces.zipIdx.map fun (piece, i) =>
        ((Nat.repr (i + 1)).toList, .input piece))
      return .number pieces.length
    | "length", [.variable table] =>
      match (← get).tables.lookup table with
      | some entries => return .number entries.length
      | none => return .number (← textOf table).length
    | "length", [] => return .number (← get).line.length
    | "match", [text, pattern] =>
      let text := (← eval fuel text).toText
      let regex ← regexOf (← patternOf fuel pattern)
      match (Regex.allMatches regex text).head? with
      | some one =>
        setVariable "RSTART" (.number (one.first + 1 : Nat))
        setVariable "RLENGTH" (.number (one.last - one.first : Nat))
        return .number (one.first + 1 : Nat)
      | none =>
        setVariable "RSTART" (.number 0)
        setVariable "RLENGTH" (.number (-1))
        return .number 0
    | _, _ =>
      if (name = "sub" ∨ name = "gsub") ∧ 2 ≤ arguments.length then
        let place := arguments[2]?.getD (.field (.number 0))
        let regex ← regexOf (← patternOf fuel (arguments[0]?.getD (.text [])))
        let pieces := replacementPieces (← eval fuel (arguments[1]?.getD (.text []))).toText
        let text := (← eval fuel place).toText
        let found := Regex.allMatches regex text
        let found := if name = "sub" then found.take 1 else found
        if !found.isEmpty then
          setPlace fuel place (.text (Edit.substituted text pieces 0 found))
        return .number found.length
      else
        let values ← evalAll fuel arguments
        let first := values.headD .unset
        match name with
        | "length" => return .number first.toText.length
        | "substr" =>
          let text := first.toText
          let start := ((values[1]?).getD Value.unset).toNumber
          let begin := (start + 1 / 2).floor
          let stop : Int := match values[2]? with
            | some size => (start + size.toNumber + 1 / 2).floor
            | none => text.length + 1
          let low := max 1 begin
          let high := min stop (text.length + 1)
          return .text ((text.drop (low - 1).toNat).take (high - low).toNat)
        | "index" =>
          let part := ((values[1]?).getD Value.unset).toText
          let rec place (n : Nat) : List Char → Nat
            | [] => 0
            | c :: cs => if part.isPrefixOf (c :: cs) then n else place (n + 1) cs
          return .number (if part.isEmpty then 0 else place 1 first.toText)
        | "tolower" => return .text (first.toText.map Char.toLower)
        | "toupper" => return .text (first.toText.map Char.toUpper)
        | "int" => return .number first.toInt
        | "sprintf" => return .text (← formattedAll name (fun _ => pure ()) values)
        | _ => return .unset

end

/-- Write a text to the output or to a file. -/
def write (target : Option (Bool × String)) (text : List Char) : Act Unit := do
  let bytes := charBytes text
  match target with
  | none => modify fun state => { state with written := bytes :: state.written }
  | some (keep, name) =>
    if name = "/dev/stdout" ∨ name = "-" then
      modify fun state => { state with written := bytes :: state.written }
    else if name = "/dev/stderr" then
      modify fun state => { state with complaints := state.complaints ++ bytes }
    else
      let state ← get
      let before : List UInt8 :=
        if keep ∨ state.opened.contains name then (state.files.read ⟨name⟩).toOption.getD [] else []
      match state.files.write ⟨name⟩ (before ++ bytes) with
      | .ok files => set { state with files := files, opened := name :: state.opened }
      | .error _ => throw (.exit 2)

mutual

/-- Carry out a statement. -/
def run (fuel : Nat) (statement : Statement) : Act Unit := do
  match fuel with
  | 0 => throw .stuck
  | fuel + 1 =>
    match statement with
    | .value expr =>
      let _ ← eval fuel expr
    | .print shaped values target =>
      let values ← evalAll fuel values
      let target ← match target with
        | none => pure none
        | some (keep, name) => pure (some (keep, Text.decodeLossy
            (charBytes (← eval fuel name).toText)))
      if shaped then write target (← formattedAll "printf" (write target) values)
      else
        let joint ← textOf "OFS"
        let whole := (← get).line
        let line := if values.isEmpty then whole else joint.intercalate (values.map Value.toText)
        write target (line ++ (← textOf "ORS"))
    | .choose condition yes no =>
      if (← eval fuel condition).holds then runAll fuel yes else runAll fuel no
    | .loop first condition body after =>
      let goes ← if first then pure true else pure (← eval fuel condition).holds
      if goes then
        if ← runBody fuel body then
          runAll fuel after
          run fuel (.loop false condition body after)
    | .each name table body => runEach fuel name ((← entriesOf table).map Prod.fst) body
    | .next => throw .next
    | .exit none => throw (.exit 0)
    | .exit (some code) => throw (.exit ((← eval fuel code).toInt.toNat % 256))
    | .leave => throw .leave
    | .again => throw .again
    | .delete name keys =>
      if keys.isEmpty then setEntries name []
      else
        let key ← keyOf fuel keys
        setEntries name ((← entriesOf name).filter (·.1 != key))

/-- Carry out statements. -/
def runAll (fuel : Nat) (statements : List Statement) : Act Unit := do
  match fuel, statements with
  | 0, _ => throw .stuck
  | _, [] => return ()
  | fuel + 1, first :: rest =>
    run fuel first
    runAll fuel rest

/-- Carry out the body of a loop once; tells whether the loop goes on. -/
def runBody (fuel : Nat) (body : List Statement) : Act Bool := do
  match fuel with
  | 0 => throw .stuck
  | fuel + 1 => fun state =>
    match runAll fuel body state with
    | .ok () after => .ok true after
    | .error .leave after => .ok false after
    | .error .again after => .ok true after
    | .error other after => .error other after

/-- Carry out the body of a loop for each key. -/
def runEach (fuel : Nat) (name : String) (keys : List (List Char)) (body : List Statement) :
    Act Unit := do
  match fuel, keys with
  | 0, _ => throw .stuck
  | _, [] => return ()
  | fuel + 1, key :: rest =>
    setVariable name (.input key)
    if ← runBody fuel body then runEach fuel name rest body

end

/-- How many steps one action may take, one inside another. -/
def stepLimit : Nat := 10000

/-- Carry out the action of a rule; without one the line is written. -/
def Rule.perform (rule : Rule) : Act Unit :=
  match rule.action with
  | some body => runAll stepLimit body
  | none => run stepLimit (.print false [] none)

/-- Whether a rule is for the line. -/
def Rule.fits (rule : Rule) : Act Bool := do
  let holds (expr : Expr) : Act Bool := do return (← eval stepLimit expr).holds
  match rule.occasion with
  | .start | .finish => return false
  | .every => return true
  | .lines condition => holds condition
  | .span first last =>
    let on := (← get).active.contains rule.id
    if on || (← holds first) then
      let isLast ← holds last
      modify fun state =>
        let others := state.active.filter (· != rule.id)
        { state with active := if isLast then others else rule.id :: others }
      return true
    else return false

/-- Carry out the rules for the line. -/
def performAll (rules : List Rule) : Act Unit := do
  for rule in rules do
    if ← rule.fits then rule.perform

/-- Take a line and carry out the rules for it. -/
def takeLine (rules : List Rule) (line : List Char) (count : Nat) : Act Unit := do
  setVariable "NR" (.number (((← valueOf "NR").toInt.toNat + 1 : Nat)))
  setVariable "FNR" (.number count)
  setLine line
  fun state => match performAll rules state with
    | .error .next after => .ok () after
    | result => result

/-- Cut a text into records at a separator: one character, or a pattern; without any, empty
lines separate. The end of the text ends the last record. -/
def recordsUnder (separator text : List Char) : List (List Char) :=
  let closed (pieces : List (List Char)) : List (List Char) :=
    if pieces.getLast? = some [] then pieces.dropLast else pieces
  match separator with
  | [c] => closed (text.splitOn c)
  | [] =>
    let groups := (text.splitOn '\n').splitOnP List.isEmpty
    (groups.filter (!·.isEmpty)).map ['\n'].intercalate
  | _ => closed (fieldsUnder separator text)

/-- Take the records of a source. -/
def takeSource (rules : List Rule) (name : String) (bytes : List UInt8) : Act Unit := do
  setVariable "FILENAME" (.text (if name = "-" then [] else textChars name))
  for (line, i) in (recordsUnder (← textOf "RS") (byteChars bytes)).zipIdx do
    takeLine rules line (i + 1)

/-- Carry out the rules of an occasion that comes once. -/
def performOnce (rules : List Rule) (isMeant : Occasion → Bool) : Act Unit := do
  for rule in rules do
    if isMeant rule.occasion then rule.perform

/-- The assignment that a word stands for. -/
def assignment? (word : String) : Option (String × List Char) :=
  let name := word.toList.takeWhile fun c => c.isAlphanum || c == '_'
  match word.toList.drop name.length with
  | '=' :: value =>
    if name.head?.any fun c => c.isAlpha || c == '_' then
      some (String.ofList name, (quoted (value.length + 1) (value ++ ['"'])).1)
    else none
  | _ => none

/-- Whether an occasion comes before the first line. -/
def Occasion.isStart : Occasion → Bool
  | .start => true
  | _ => false

/-- Whether an occasion comes after the last line. -/
def Occasion.isFinish : Occasion → Bool
  | .finish => true
  | _ => false

/-- Carry out a script on sources, among which variables may be set. -/
def perform (rules : List Rule) (sources : List (String × List UInt8)) : Act Unit := do
  let all : Act Unit := do
    performOnce rules Occasion.isStart
    for (name, bytes) in sources do
      match assignment? name with
      | some (target, value) => setVariable target (.input value)
      | none => takeSource rules name bytes
  let finish : Act Unit := performOnce rules Occasion.isFinish
  fun state => match all state with
    | .error (.exit code) after =>
      match finish after with
      | .ok () last => .error (.exit code) last
      | result => result
    | .ok () after => finish after
    | result => result

end Awk

/-- Carry out patterns and actions on the lines of the sources. -/
def awk (arguments : List String) (files : FileSystem) (input : List UInt8) : Trace :=
  let (given, words) := options "Fvf".toList arguments
  let script? : Except SystemFault (List Char × List String) :=
    match given.lookup 'f' with
    | some name => (files.read ⟨name⟩).map fun bytes => (byteChars bytes, words)
    | none => .ok (textChars (words.headD ""), words.drop 1)
  match script? with
  | .error _ => complained files input 2 ("awk: cannot open " ++ (given.lookup 'f').getD "")
  | .ok (script, sources) =>
    match Awk.parse script with
    | none => complained files input 2 "awk: line 1: syntax error at or near end of line"
    | some rules =>
      let separator := ((given.lookup 'F').map fun text =>
        if text = "t" then ['\t']
        else (Awk.quoted (text.length + 1) (text.toList ++ ['"'])).1).getD [' ']
      let preset := given.filterMap fun (option, word) =>
        if option = 'v' then (Awk.assignment? word).map fun (name, value) =>
          (name, Awk.Value.input value)
        else none
      let values := preset.reverse ++ [("FS", .text separator), ("OFS", .text [' ']),
        ("ORS", .text ['\n']), ("RS", .text ['\n']), ("NR", .number 0), ("SUBSEP", .text ['\x1c'])]
      let start : Awk.State := ⟨[], [], values, [], [], [], files, [], []⟩
      let reads := rules.any fun rule => !rule.occasion.isStart
      let plain := sources.filter fun word => (Awk.assignment? word).isNone
      let refusal (name : String) (fault : SystemFault) : String :=
        "awk: cannot open \"" ++ name ++ "\" (" ++ fault.wording ++ ")"
      let (found, trace) :=
        if reads then gather files input 2 refusal plain
        else ([], (⟨files, input, [], [], .exited 0, 0⟩ : Trace))
      let inOrder := if plain.isEmpty then sources.map (·, []) ++ found
        else sources.filterMap fun word =>
          if (Awk.assignment? word).isSome then some (word, [])
          else (found.lookup word).map (word, ·)
      let ended (status : Status) (state : Awk.State) : Trace := { trace with
        files := state.files
        output := state.written.reverse.flatten
        complaints := trace.complaints ++ state.complaints
        status := status }
      match Awk.perform rules inOrder start with
      | .ok () state => ended trace.status state
      | .error (.exit code) state => ended (.exited code) state
      | .error .stuck state => ended .endless state
      | .error _ state => ended trace.status state

end FlameFold.Machine.Tool
