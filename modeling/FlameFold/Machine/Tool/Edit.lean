import FlameFold.Machine.Tool.Search

/-!
# Editing lines

The tool `sed` takes each line in turn, carries out the orders of a script on it, and writes
what is left of it.
-/

namespace FlameFold.Machine.Tool.Edit

/-- Which lines an order is for. -/
inductive Address where
  /-- The line of a number. -/
  | line (n : Nat)
  /-- The last line. -/
  | last
  /-- The lines in which a pattern matches. -/
  | matching (regex : Regex Regex.CharSet Regex.Look)
  /-- Every so many lines from a first one on. -/
  | every (first step : Nat)

/-- A piece of what a match is replaced by. -/
inductive Piece where
  /-- A character. -/
  | char (c : Char)
  /-- The stretch of a group; the group 0 is the whole match. -/
  | group (number : Nat)

/-- What an order does. -/
inductive Deed where
  /-- Replace matches, from the one of a number on: all or one of them. -/
  | substitute (regex : Regex Regex.CharSet Regex.Look) (pieces : List Piece) (which : Nat)
      (all print : Bool)
  /-- Replace characters by others. -/
  | exchange (pairs : List (Char × Char))
  /-- Drop the line. -/
  | delete
  /-- Drop the first line of several. -/
  | deleteFirst
  /-- Write the line. -/
  | print
  /-- Write the first line of several. -/
  | printFirst
  /-- Write the number of the line. -/
  | number
  /-- End with a code, after writing the line unless `silent` is set. -/
  | quit (silent : Bool) (code : Nat)
  /-- Write the line and take the next one. -/
  | next
  /-- Add the next line. -/
  | join
  /-- Keep the line. -/
  | hold
  /-- Add the line to what is kept. -/
  | holdMore
  /-- Take what is kept. -/
  | fetch
  /-- Add what is kept to the line. -/
  | fetchMore
  /-- Change the line for what is kept. -/
  | swap
  /-- Write a text after the line. -/
  | append (text : List Char)
  /-- Write a text before the line. -/
  | insert (text : List Char)
  /-- Write a text in the place of the line. -/
  | change (text : List Char)
  /-- Go to a label, or to the end of the script; with `replaced` only if something was
  replaced. -/
  | goto (replaced : Bool) (label : List Char)
  /-- A place to go to. -/
  | label (name : List Char)
  /-- Orders up to the closing brace of the same depth. -/
  | opening
  /-- The end of such orders. -/
  | closing

/-- An order of a script. -/
structure Order where
  /-- Its number. -/
  id : Nat
  /-- The line from which it is meant on. -/
  first : Option Address
  /-- The line up to which it is meant. -/
  last : Option Address
  /-- Whether it is meant for the other lines. -/
  negated : Bool
  /-- What it does. -/
  deed : Deed

/-- What is wrong with a script, and how many of its characters had been read. -/
structure ScriptFault where
  /-- The number of characters. -/
  place : Nat
  /-- The wording. -/
  text : String

/-- The characters of a part up to its end mark, with backslashes before others kept, and
what follows. A backslash before the mark is dropped. -/
def untilMark (mark : Char) : List Char → Option (List Char × List Char)
  | [] => none
  | '\\' :: c :: rest =>
    (untilMark mark rest).map fun (part, left) =>
      (if c = mark then c :: part else '\\' :: c :: part, left)
  | c :: rest =>
    if c = mark then some ([], rest)
    else (untilMark mark rest).map fun (part, left) => (c :: part, left)

/-- A pattern with its letters for control characters replaced. -/
def withControls : List Char → List Char
  | '\\' :: 'n' :: rest => '\n' :: withControls rest
  | '\\' :: 't' :: rest => '\t' :: withControls rest
  | '\\' :: c :: rest => '\\' :: c :: withControls rest
  | c :: rest => c :: withControls rest
  | [] => []

/-- The pieces of what a match is replaced by. -/
def pieces : List Char → List Piece
  | '\\' :: 'n' :: rest => .char '\n' :: pieces rest
  | '\\' :: 't' :: rest => .char '\t' :: pieces rest
  | '\\' :: c :: rest =>
    (if c.isDigit then .group (c.toNat - 48) else .char c) :: pieces rest
  | '&' :: rest => .group 0 :: pieces rest
  | c :: rest => .char c :: pieces rest
  | [] => []

/-- What has been read of a script, and what is left of it. -/
structure Source where
  /-- The characters that are left. -/
  rest : List Char
  /-- The number of all characters. -/
  size : Nat
  /-- Whether patterns are extended. -/
  extended : Bool

/-- A step of reading a script. -/
abbrev Reader := EStateM ScriptFault Source

/-- A fault at the place that has been reached. -/
def fail (text : String) : Reader α := do
  let source ← get
  throw ⟨source.size - source.rest.length, text⟩

/-- Pass the characters of a kind. -/
def skip (isIn : Char → Bool) : Reader Unit :=
  modify fun source => { source with rest := source.rest.dropWhile isIn }

/-- Pass some characters. -/
def pass (n : Nat) : Reader Unit :=
  modify fun source => { source with rest := source.rest.drop n }

/-- The characters that are left. -/
def rest : Reader (List Char) := do return (← get).rest

/-- Take the digits at the front as a number. -/
def number? : Reader (Option Nat) := do
  let digits := (← rest).takeWhile Char.isDigit
  pass digits.length
  return leadingNumber? digits

/-- A regular expression from its text. -/
def regexOf (text : List Char) (fold : Bool) : Reader (Regex Regex.CharSet Regex.Look) := do
  match Regex.Posix.parse (← get).extended (withControls text) with
  | .ok regex => return if fold then bothCases regex else regex
  | .error fault => fail fault.message

/-- Take a part up to an end mark. -/
def part (mark : Char) (text : String) : Reader (List Char) := do
  match untilMark mark (← rest) with
  | some (found, left) =>
    modify fun source => { source with rest := left }
    return found
  | none =>
    modify fun source => { source with rest := [] }
    fail text

/-- Read an address. -/
def address? : Reader (Option Address) := do
  match ← rest with
  | '$' :: _ =>
    pass 1
    return some .last
  | '/' :: _ =>
    pass 1
    let text ← part '/' "unterminated address regex"
    let fold := (← rest).head? = some 'I'
    if fold then pass 1
    return some (.matching (← regexOf text fold))
  | '\\' :: mark :: _ =>
    pass 2
    let text ← part mark "unterminated address regex"
    return some (.matching (← regexOf text false))
  | _ =>
    match ← number? with
    | none => return none
    | some n =>
      if (← rest).head? = some '~' then
        pass 1
        return some (.every n ((← number?).getD 0))
      else return some (.line n)

/-- Whether a character is a space or a tab. -/
def isSpace (c : Char) : Bool := c == ' ' || c == '\t'

/-- Read the text of an order, to the end of the line that no backslash joins to the next. -/
def textLines : Nat → List Char → List Char × List Char
  | 0, cs => ([], cs)
  | _, [] => ([], [])
  | fuel + 1, '\\' :: c :: rest =>
    let (text, left) := textLines fuel rest
    (c :: text, left)
  | _, '\n' :: rest => ([], rest)
  | fuel + 1, c :: rest =>
    let (text, left) := textLines fuel rest
    (c :: text, left)

/-- Read the text of an order. -/
def orderText : Reader (List Char) := do
  skip isSpace
  match ← rest with
  | '\\' :: '\n' :: _ => pass 2
  | '\\' :: _ =>
    pass 1
    skip isSpace
  | _ => pure ()
  let (text, left) := textLines ((← rest).length + 1) (← rest)
  modify fun source => { source with rest := left }
  return text ++ ['\n']

/-- Read the name of a label. -/
def labelName : Reader (List Char) := do
  skip isSpace
  let name := (← rest).takeWhile fun c => c != ';' && c != '\n' && c != ' ' && c != '\x7d'
  pass name.length
  return name

/-- The flags after a replacement. -/
def flags : Reader (List Char) := do
  let found := (← rest).takeWhile fun c => c.isDigit || "gpiImMe".toList.contains c
  pass found.length
  return found

/-- Read what an order does. -/
def deed : Reader Deed := do
  match ← rest with
  | [] => fail "missing command"
  | c :: _ =>
    pass 1
    match c with
    | '{' => return .opening
    | '\x7d' => return .closing
    | ':' => return .label (← labelName)
    | 'b' => return .goto false (← labelName)
    | 't' => return .goto true (← labelName)
    | 'd' => return .delete
    | 'D' => return .deleteFirst
    | 'p' => return .print
    | 'P' => return .printFirst
    | '=' => return .number
    | 'n' => return .next
    | 'N' => return .join
    | 'h' => return .hold
    | 'H' => return .holdMore
    | 'g' => return .fetch
    | 'G' => return .fetchMore
    | 'x' => return .swap
    | 'a' => return .append (← orderText)
    | 'i' => return .insert (← orderText)
    | 'c' => return .change (← orderText)
    | 'q' | 'Q' =>
      skip isSpace
      return .quit (c == 'Q') ((← number?).getD 0)
    | 'y' =>
      let wrong := "unterminated \x60y' command"
      match ← rest with
      | [] => fail wrong
      | mark :: _ =>
        pass 1
        let sources := withControls (← part mark wrong)
        let targets := withControls (← part mark wrong)
        if sources.length ≠ targets.length then
          fail "strings for \x60y' command are different lengths"
        return .exchange (sources.zip targets)
    | 's' =>
      let wrong := "unterminated \x60s' command"
      match ← rest with
      | [] => fail wrong
      | mark :: _ =>
        pass 1
        let pattern ← part mark wrong
        let replacement ← part mark wrong
        let flags ← flags
        let regex ← regexOf pattern (flags.contains 'i' || flags.contains 'I')
        let which := max 1 (((leadingNumber? (flags.filter Char.isDigit))).getD 1)
        return .substitute regex (pieces replacement) which (flags.contains 'g')
          (flags.contains 'p')
    | _ => fail ("unknown command: \x60" ++ String.ofList [c] ++ "'")

/-- Whether a character stands between orders. -/
def isJoint (c : Char) : Bool := isSpace c || c == '\n' || c == ';'

/-- Whether nothing but an order's end may follow a deed. -/
def endsFreely : Deed → Bool
  | .opening | .append _ | .insert _ | .change _ | .label _ => true
  | _ => false

/-- Read orders, at most `fuel` of them. -/
def orders : Nat → Reader (List Order)
  | 0 => return []
  | fuel + 1 => do
    skip isJoint
    match ← rest with
    | [] => return []
    | '#' :: cs =>
      pass ((cs.takeWhile (· != '\n')).length + 1)
      orders fuel
    | _ =>
      let first ← address?
      skip isSpace
      let last ← do
        if (← rest).head? = some ',' then
          pass 1
          skip isSpace
          match ← address? with
          | some upTo => pure (some upTo)
          | none => fail "unexpected \x60,'"
        else pure none
      skip isSpace
      let negated := (← rest).head? = some '!'
      if negated then pass 1
      skip isSpace
      let deed ← deed
      skip isSpace
      match ← rest with
      | [] => pure ()
      | c :: _ =>
        if !(endsFreely deed) && !isJoint c && c != '\x7d' && c != '#' then
          pass 1
          fail (match deed with
            | .substitute _ _ _ _ _ => "unknown option to \x60s'"
            | _ => "extra characters after command")
      return ⟨fuel, first, last, negated, deed⟩ :: (← orders fuel)

/-- Read a script. -/
def parse (extended : Bool) (script : List Char) : Except ScriptFault (List Order) :=
  match (orders (script.length + 1)).run ⟨script, script.length, extended⟩ with
  | .ok all _ => .ok all
  | .error fault _ => .error fault

/-- What the orders work on. -/
structure State where
  /-- The line. -/
  line : List Char
  /-- Whether the line was closed. -/
  closed : Bool
  /-- The number of the line. -/
  count : Nat
  /-- The lines that have not been taken, each with whether it is closed. -/
  left : List (List Char × Bool)
  /-- What is kept. -/
  kept : List Char
  /-- Whether what is kept was closed. -/
  keptClosed : Bool
  /-- What has been written, the last stretch first. -/
  written : List (List UInt8)
  /-- Whether the last line written is not closed. -/
  pending : Bool
  /-- What is to be written after the line. -/
  later : List (List Char)
  /-- The orders that are meant for lines up to a later one. -/
  active : List Nat
  /-- Whether something was replaced. -/
  replaced : Bool

/-- Write a line. -/
def State.write (state : State) (line : List Char) (closed : Bool) : State :=
  { state with
    written := ((if state.pending then [0x0A] else []) ++ charBytes line ++
      if closed then [0x0A] else []) :: state.written
    pending := !closed }

/-- Write what is to be written after the line. -/
def State.flush (state : State) : State :=
  { state.later.foldl (fun state text => state.write text.dropLast true) state with later := [] }

/-- Take the next line, if there is one. -/
def State.advance? (state : State) : Option State :=
  match state.left with
  | [] => none
  | (line, closed) :: left => some { state with
      line := line, closed := closed, left := left, count := state.count + 1 }

/-- Whether a pattern matches somewhere in a line. -/
def found (regex : Regex Regex.CharSet Regex.Look) (line : List Char) : Bool :=
  (regex.on line).reach line.length (Regex.Places.all line.length) != 0

/-- Whether an address is for the line. -/
def Address.covers (state : State) : Address → Bool
  | .line n => n == state.count
  | .last => state.left.isEmpty
  | .matching regex => found regex state.line
  | .every first step =>
    if step = 0 then first == state.count
    else decide (first ≤ state.count) && (state.count - first) % step == 0

/-- Whether an order is for the line, and the state with the orders that go on. -/
def Order.chosen (order : Order) (state : State) : Bool × State :=
  let go (on : Bool) : State :=
    let others := state.active.filter (· != order.id)
    { state with active := if on then order.id :: others else others }
  match order.first, order.last with
  | none, _ => (!order.negated, state)
  | some first, none => (first.covers state != order.negated, state)
  | some first, some upTo =>
    if state.active.contains order.id then
      let isLast := match upTo with
        | .line n => decide (n ≤ state.count)
        | other => other.covers state
      let inside := match upTo with
        | .line n => decide (state.count ≤ n)
        | _ => true
      (inside != order.negated, if isLast then go false else state)
    else if first.covers state then
      let one := match upTo with
        | .line n => decide (n ≤ state.count)
        | _ => false
      (!order.negated, if one then state else go true)
    else (order.negated, state)

/-- What a match is replaced by. -/
def replacement (line : List Char) (found : Regex.Match) (pieces : List Piece) : List Char :=
  pieces.flatMap fun
    | .char c => [c]
    | .group number => found.stretch line number

/-- The line with matches replaced, from the place `from` on. -/
def substituted (line : List Char) (pieces : List Piece) : Nat → List Regex.Match → List Char
  | place, [] => line.drop place
  | place, one :: rest =>
    (line.drop place).take (one.first - place) ++ replacement line one pieces ++
      substituted line pieces one.last rest

/-- How the orders end for a line. -/
inductive Finish where
  /-- The line is written. -/
  | written
  /-- The line is dropped. -/
  | dropped
  /-- The first line is dropped, and the orders begin again. -/
  | again
  /-- All ends, with a code. -/
  | stopped (silent : Bool) (code : Nat)

/-- The orders after the closing brace of a depth. -/
def afterClosing : Nat → List Order → List Order
  | _, [] => []
  | depth, order :: rest =>
    match order.deed with
    | .opening => afterClosing (depth + 1) rest
    | .closing => if depth = 0 then rest else afterClosing (depth - 1) rest
    | _ => afterClosing depth rest

/-- The orders after a label. -/
def afterLabel (name : List Char) (all : List Order) : List Order :=
  if name.isEmpty then []
  else (all.dropWhile fun order => match order.deed with
    | .label found => found != name
    | _ => true).drop 1

/-- Carry out orders on the line, at most `fuel` of them. -/
def carry (all : List Order) (quiet : Bool) : Nat → List Order → State → Finish × State
  | 0, _, state => (.written, state)
  | _, [], state => (.written, state)
  | fuel + 1, order :: rest, state =>
    let (chosen, state) := order.chosen state
    if !chosen then
      match order.deed with
      | .opening => carry all quiet fuel (afterClosing 0 rest) state
      | _ => carry all quiet fuel rest state
    else
      let go (state : State) : Finish × State := carry all quiet fuel rest state
      match order.deed with
      | .opening | .closing | .label _ => go state
      | .substitute regex pieces which every print =>
        let matching := (Regex.allMatches regex state.line).drop (which - 1)
        let taken := if every then matching else matching.take 1
        if taken.isEmpty then go state
        else
          let state := { state with
            line := substituted state.line pieces 0 taken
            replaced := true }
          go (if print then state.write state.line true else state)
      | .exchange pairs =>
        go { state with line := state.line.map fun c => (pairs.lookup c).getD c }
      | .delete => (.dropped, state)
      | .deleteFirst => (if state.line.contains '\n' then .again else .dropped, state)
      | .print => go (state.write state.line state.closed)
      | .printFirst => go (state.write (state.line.takeWhile (· != '\n')) true)
      | .number => go (state.write (Nat.repr state.count).toList true)
      | .quit silent code => (.stopped silent code, state)
      | .next =>
        if state.left.isEmpty then (.stopped quiet 0, state)
        else
          let state := (if quiet then state else state.write state.line state.closed).flush
          go (state.advance?.getD state)
      | .join =>
        match state.advance? with
        | none => (.stopped quiet 0, state)
        | some after => go { after with line := state.line ++ '\n' :: after.line }
      | .hold => go { state with kept := state.line, keptClosed := state.closed }
      | .holdMore => go { state with
          kept := state.kept ++ '\n' :: state.line
          keptClosed := state.closed }
      | .fetch => go { state with line := state.kept, closed := state.keptClosed }
      | .fetchMore => go { state with
          line := state.line ++ '\n' :: state.kept
          closed := state.keptClosed }
      | .swap => go { state with
          line := state.kept
          closed := state.keptClosed
          kept := state.line
          keptClosed := state.closed }
      | .append text => go { state with later := state.later ++ [text] }
      | .insert text => go (state.write text.dropLast true)
      | .change text =>
        let inside := order.last.isSome && state.active.contains order.id
        (.dropped, if inside then state else state.write text.dropLast true)
      | .goto replaced name =>
        if !replaced || state.replaced then
          carry all quiet fuel (afterLabel name all) { state with replaced := false }
        else go state

/-- How many orders are carried out for one line, at most. -/
def orderLimit : Nat := 20000

/-- Carry out a script on the line and on those after it, at most `fuel` times; gives the exit
code. -/
def runLines (all : List Order) (quiet : Bool) : Nat → State → Nat × State
  | 0, state => (0, state)
  | fuel + 1, state =>
    let shown (silent : Bool) (state : State) : State :=
      (if silent then state else state.write state.line state.closed).flush
    let goOn (state : State) : Nat × State :=
      match state.advance? with
      | some state => runLines all quiet fuel { state with replaced := false }
      | none => (0, state)
    match carry all quiet orderLimit all state with
    | (.written, state) => goOn (shown quiet state)
    | (.dropped, state) => goOn (shown true state)
    | (.again, state) =>
      let state := shown true state
      runLines all quiet fuel { state with line := (state.line.dropWhile (· != '\n')).drop 1 }
    | (.stopped silent code, state) => (code, shown (quiet || silent) state)

/-- The lines of some bytes, each with whether it is closed. -/
def linesWithEnds (bytes : List UInt8) : List (List Char × Bool) :=
  let (lines, whole) := linesOf bytes
  let chars := lines.map byteChars
  if whole then chars.map (·, true)
  else chars.dropLast.map (·, true) ++ (chars.getLast?.map (·, false)).toList

/-- Carry out a script on some lines: the exit code and what is written. -/
def run (all : List Order) (quiet : Bool) (lines : List (List Char × Bool)) : Nat × List UInt8 :=
  let start : State := ⟨[], true, 0, lines, [], true, [], false, [], [], false⟩
  match start.advance? with
  | none => (0, [])
  | some state =>
    let (code, state) := runLines all quiet (2 * lines.length + 1000) state
    (code, state.written.reverse.flatten)

end Edit

/-- Edit the lines of the sources. -/
def sed (arguments : List String) (files : FileSystem) (input : List UInt8) : Trace :=
  let inPlace := arguments.contains "-i"
  let (given, words) := options "ef".toList (arguments.filter (· != "-i"))
  let has (c : Char) : Bool := given.any (·.1 == c)
  let named := given.filter fun entry => entry.1 == 'e' || entry.1 == 'f'
  let scriptOf (entry : Char × String) : Except SystemFault (List Char) :=
    if entry.1 = 'e' then .ok (textChars entry.2)
    else (files.read ⟨entry.2⟩).map fun bytes =>
      ['\n'].intercalate ((linesOf bytes).1.map byteChars)
  let (scripts, sources) :=
    if named.isEmpty then (words.take 1 |>.map (('e', ·)), words.drop 1) else (named, words)
  match given.find? fun entry => !"nErsefuz".toList.contains entry.1 with
  | some entry => complained files input 1 ("sed: invalid option -- '" ++
      String.ofList [entry.1] ++ "'")
  | none =>
    match scripts.mapM scriptOf with
    | .error fault => complained files input 4 ("sed: couldn't open file " ++
        ((named.lookup 'f').getD "") ++ ": " ++ fault.wording)
    | .ok [] => complained files input 1
        "Usage: sed [OPTION]... \x7bscript-only-if-no-other-script\x7d [input-file]..."
    | .ok texts =>
      match Edit.parse (has 'E' || has 'r') (['\n'].intercalate texts) with
      | .error fault => complained files input 1 ("sed: -e expression #1, char " ++
          Nat.repr fault.place ++ ": " ++ fault.text)
      | .ok orders =>
        let (found, trace) := gather files input 2
          (fun name fault => "sed: can't read " ++ name ++ ": " ++ fault.wording) sources
        if inPlace then
          found.foldl (fun trace (name, bytes) =>
            let (_, output) := Edit.run orders (has 'n') (Edit.linesWithEnds bytes)
            match trace.files.write ⟨name⟩ output with
            | .ok files => { trace with files := files }
            | .error _ => trace) trace
        else
          let lines := found.flatMap fun (_, bytes) => Edit.linesWithEnds bytes
          let (code, output) := Edit.run orders (has 'n') lines
          { trace with
            output := output
            status := if code = 0 then trace.status else .exited code }

end FlameFold.Machine.Tool
