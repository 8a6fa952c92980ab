import FlameFold.Machine.Shell.Script

/-!
# Reading shell scripts

A script is cut into tokens on the way: which words are keywords, and whether the ends of
lines matter, depends on where the token stands. A token that was read too early is put
back. Scripts and variables in words are read together with the word, so that what closes
them is found where it means that.
-/

namespace FlameFold.Machine.Shell

/-- How a redirection connects a stream. -/
inductive Way where
  /-- It reads from a file. -/
  | read
  /-- It writes to a file. -/
  | write
  /-- It writes behind what stands in a file. -/
  | append
  /-- It reads the lines below, without the tabs at their fronts if `strip` is set. -/
  | below (strip : Bool)
  /-- It goes where another stream goes. -/
  | duplicate
  deriving DecidableEq, Repr

/-- A token of a script. -/
inductive Token where
  /-- A word. -/
  | word (parts : Word)
  /-- A word that shapes commands. -/
  | keyword (name : String)
  /-- A mark between or around commands. -/
  | mark (text : String)
  /-- The beginning of a redirection. -/
  | redirection (stream : Nat) (way : Way)
  /-- The end of a line. -/
  | newline
  /-- The end of the script. -/
  | ending

/-- What a fault calls a token. -/
def Token.shown : Token → String
  | .word _ => "word"
  | .keyword name | .mark name => "\"" ++ name ++ "\""
  | .redirection _ _ => "redirection"
  | .newline => "newline"
  | .ending => "end of file"

/-- Words that shape commands where a command can begin. -/
def keywords : List String :=
  ["!", "case", "do", "done", "elif", "else", "esac", "fi", "for", "if", "in", "then", "until",
    "while", "\x7b", "\x7d"]

/-- Whether a token ends the commands before it. -/
def Token.closes : Token → Bool
  | .keyword name => ["do", "done", "elif", "else", "esac", "fi", "then", "\x7d"].contains name
  | .mark text => text == ")" || text == ";;"
  | .ending => true
  | _ => false

/-- Which commands belong together. -/
inductive Extent where
  /-- Those of one line. -/
  | line
  /-- All up to a token that closes, at least one. -/
  | body
  /-- All up to a token that closes. -/
  | optional
  deriving DecidableEq, Repr

/-- Where a script is being read. -/
structure Cursor where
  /-- The characters that are left. -/
  rest : List Char
  /-- The number of the line. -/
  line : Nat
  /-- How many lines below have already been taken. -/
  taken : Nat
  /-- The token that has been put back. -/
  ahead : Option Token

/-- A step of reading a script. -/
abbrev Reader := EStateM ScriptFault Cursor

namespace Reader

/-- The fault of a script that does not come to an end. -/
def exhausted : ScriptFault := .unexpected Token.ending.shown none

/-- The characters that are left. -/
def rest : Reader (List Char) := do return (← get).rest

/-- Pass one character. -/
def advance : Reader Unit := modify fun cursor =>
  match cursor.rest with
  | '\n' :: rest => { cursor with rest := rest, line := cursor.line + 1 + cursor.taken, taken := 0 }
  | _ :: rest => { cursor with rest := rest }
  | [] => cursor

/-- Pass some characters. -/
def pass : Nat → Reader Unit
  | 0 => return ()
  | n + 1 => do
    advance
    pass n

/-- Pass what is left, and fail. -/
def fail (fault : ScriptFault) : Reader α := do
  pass (← rest).length
  throw fault

/-- Put a token back. -/
def putBack (token : Token) : Reader Unit :=
  modify fun cursor => { cursor with ahead := some token }

/-- Pass spaces, joined lines and a comment, at most `fuel` of them. -/
def skipSpaces : Nat → Reader Unit
  | 0 => return ()
  | fuel + 1 => do
    match ← rest with
    | ' ' :: _ | '\t' :: _ =>
      advance
      skipSpaces fuel
    | '\\' :: '\n' :: _ =>
      pass 2
      skipSpaces fuel
    | '#' :: cs =>
      pass ((cs.takeWhile (· != '\n')).length + 1)
      skipSpaces fuel
    | _ => return ()

/-- A character that ends a word. -/
def isBreak (c : Char) : Bool := " \t\n;&|<>()".toList.contains c

/-- A character of a name. -/
def isNameChar (c : Char) : Bool := c.isAlphanum || c == '_'

/-- The mark that opens and closes an old-style script in a word. -/
def graveMark : Char := Char.ofNat 0x60

/-- The text of an old-style script and how many characters it takes up to its closing mark;
a backslash protects what could end the script or mean something in it. -/
def graveText? (quoted : Bool) : List Char → Option (List Char × Nat)
  | [] => none
  | '\\' :: c :: cs =>
    let protects := c == '\\' || c == '$' || c == graveMark || (quoted && c == '"')
    (graveText? quoted cs).map fun (text, size) =>
      ((if c = '\n' then [] else if protects then [c] else ['\\', c]) ++ text, size + 2)
  | c :: cs =>
    if c = graveMark then some ([], 1)
    else (graveText? quoted cs).map fun (text, size) => (c :: text, size + 1)

/-- The characters of a word without quotes and expansions, if it is one. -/
def bare? (word : Word) : Option String := do
  let texts ← word.mapM fun
    | .plain text false => some text
    | _ => none
  if texts.isEmpty then none else some (String.join texts)

/-- Cut a word that gives a variable its value. -/
def assignment? : Word → Option (String × Word)
  | .plain text false :: others =>
    let name := text.toList.takeWhile isNameChar
    match text.toList.drop name.length with
    | '=' :: value =>
      if isName (String.ofList name) then
        some (String.ofList name,
          (if value.isEmpty then [] else [.plain (String.ofList value) false]) ++ others)
      else none
    | _ => none
  | _ => none

/-- The lines up to the one that is the given word, how many lines that takes, and what is
left after it. Without such a line all of them are taken. -/
def takeLines (strip : Bool) (mark : List Char) : List (List Char) → List Char × Nat × List Char
  | [] => ([], 0, [])
  | line :: rest =>
    let line := if strip then line.dropWhile (· == '\t') else line
    if line = mark then ([], 1, ['\n'].intercalate rest)
    else if rest.isEmpty then (line, 1, [])
    else
      let (text, size, left) := takeLines strip mark rest
      (line ++ '\n' :: text, size + 1, left)

/-- Read the marks that begin a redirection. -/
def redirectionMark (stream? : Option Nat) : Reader Token := do
  let found (stream size : Nat) (way : Way) : Reader Token := do
    pass size
    return .redirection (stream?.getD stream) way
  match ← rest with
  | '>' :: '>' :: _ => found 1 2 .append
  | '>' :: '|' :: _ => found 1 2 .write
  | '>' :: '&' :: _ => found 1 2 .duplicate
  | '>' :: _ => found 1 1 .write
  | '<' :: '<' :: '-' :: _ => found 0 3 (.below true)
  | '<' :: '<' :: _ => found 0 2 (.below false)
  | '<' :: '&' :: _ => found 0 2 .duplicate
  | '<' :: '>' :: _ => found 0 2 .read
  | _ => found 0 1 .read

/-- Read the rule by which a variable is taken; its name has been passed. -/
def rule : Reader Rule := do
  let orEmpty := (← rest).head? = some ':'
  match (← rest).drop (if orEmpty then 1 else 0) with
  | c :: d :: _ =>
    let size := if orEmpty then 2 else 1
    match c with
    | '-' =>
      pass size
      return .otherwise orEmpty
    | '=' =>
      pass size
      return .assigned orEmpty
    | '+' =>
      pass size
      return .present orEmpty
    | '?' =>
      pass size
      return .required orEmpty
    | '#' | '%' =>
      if orEmpty then return .unknown
      pass (if d = c then 2 else 1)
      return .without (c == '#') (d == c)
    | '\x7d' => return if orEmpty then .unknown else .value
    | _ => return .unknown
  | ['\x7d'] => return if orEmpty then .unknown else .value
  | _ => return .unknown

/-- Read the name of a variable in braces and the rule by which it is taken. -/
def nameAndRule : Reader (String × Rule) := do
  let named (cs : List Char) : Reader (String × Rule) := do
    let name := match cs with
      | c :: _ => if c.isDigit then cs.takeWhile Char.isDigit
        else if isNameChar c then cs.takeWhile isNameChar
        else if "@*#?$!-".toList.contains c then [c] else []
      | [] => []
    pass name.length
    if name.isEmpty then return ("", .unknown) else return (String.ofList name, ← rule)
  match ← rest with
  | '#' :: c :: cs =>
    if isNameChar c ∨ (c = '@' ∨ c = '*' ∨ c = '#' ∨ c = '?') ∧ cs.head? = some '\x7d' then
      advance
      let (name, rule) ← named (c :: cs)
      return (name, if rule = .value then .length else .unknown)
    else named ('#' :: c :: cs)
  | cs => named cs

/-- Put the parts of a text that means itself before others. -/
def plainBefore (text : List Char) (quoted : Bool) (word : Word) : Word :=
  .plain (String.ofList text) quoted :: word

mutual

/-- Read what follows a dollar sign, which has been passed. -/
def dollar : Nat → Bool → Reader Part
  | 0, _ => throw exhausted
  | fuel + 1, quoted => do
    match ← rest with
    | '(' :: '(' :: _ =>
      pass 2
      return .sum (← sumParts fuel 0) quoted
    | '(' :: _ =>
      advance
      let body ← commands fuel .optional false
      expect fuel "\")\""
      return .output body quoted
    | '\x7b' :: _ =>
      advance
      let (name, rule) ← nameAndRule
      let patterned := match rule with
        | .without _ _ => true
        | _ => false
      return .variable name rule (← operandParts fuel (quoted && !patterned)) quoted
    | c :: cs =>
      if c.isDigit || "@*#?$!-".toList.contains c then
        advance
        return .variable (String.ofList [c]) .value [] quoted
      else if isNameChar c then
        let name := (c :: cs).takeWhile isNameChar
        pass name.length
        return .variable (String.ofList name) .value [] quoted
      else return .plain "$" true
    | [] => return .plain "$" true

/-- Read an old-style script, whose opening mark has been passed. -/
def grave : Nat → Bool → Reader Part
  | 0, _ => throw exhausted
  | fuel + 1, quoted => do
    match graveText? quoted (← rest) with
    | none => fail .openGrave
    | some (text, size) =>
      pass size
      let here ← get
      set (Cursor.mk text 1 0 none)
      let body ← commands fuel .optional false
      set here
      return .output body quoted

/-- Read to the closing double quote; a text that stands below a line has none, and ends
where the script does. -/
def quotedParts : Nat → Bool → Reader Word
  | 0, _ => throw exhausted
  | fuel + 1, below => do
    match ← rest with
    | [] => if below then return [] else throw .openQuote
    | '\\' :: '\n' :: _ =>
      pass 2
      quotedParts fuel below
    | '\\' :: c :: _ =>
      pass 2
      let protects := c == '$' || c == '\\' || c == graveMark || (c == '"' && !below)
      return plainBefore (if protects then [c] else ['\\', c]) true (← quotedParts fuel below)
    | '$' :: _ =>
      advance
      let part ← dollar fuel true
      return part :: (← quotedParts fuel below)
    | c :: cs =>
      if c = '"' ∧ ¬ below then
        advance
        return []
      else if c = graveMark then
        advance
        let part ← grave fuel true
        return part :: (← quotedParts fuel below)
      else
        let text := c :: cs.takeWhile fun d =>
          d != '"' && d != '\\' && d != '$' && d != graveMark
        pass text.length
        return plainBefore text true (← quotedParts fuel below)

/-- Read the operand of a rule up to the closing brace. -/
def operandParts : Nat → Bool → Reader Word
  | 0, _ => throw exhausted
  | fuel + 1, quoted => do
    match ← rest with
    | [] => throw .openBrace
    | '\x7d' :: _ =>
      advance
      return []
    | '\\' :: '\n' :: _ =>
      pass 2
      operandParts fuel quoted
    | '\\' :: c :: _ =>
      pass 2
      let protects := !quoted || "$\"\\\x7d".toList.contains c || c == graveMark
      return plainBefore (if protects then [c] else ['\\', c]) true (← operandParts fuel quoted)
    | '$' :: _ =>
      advance
      let part ← dollar fuel quoted
      return part :: (← operandParts fuel quoted)
    | '"' :: _ =>
      advance
      let inside ← if quoted then pure [] else quotedParts fuel false
      let inside := if quoted ∨ ¬ inside.isEmpty then inside else [.plain "" true]
      return inside ++ (← operandParts fuel quoted)
    | c :: cs =>
      if c = graveMark then
        advance
        let part ← grave fuel quoted
        return part :: (← operandParts fuel quoted)
      else if c = '\'' ∧ ¬ quoted then
        let inside := cs.takeWhile (· != '\'')
        if inside.length = cs.length then fail .openQuote
        pass (inside.length + 2)
        return plainBefore inside true (← operandParts fuel quoted)
      else
        let text := c :: cs.takeWhile fun d => !"\x7d\\$\"'".toList.contains d && d != graveMark
        pass text.length
        return plainBefore text quoted (← operandParts fuel quoted)

/-- Read an expression up to the marks that close it; `depth` counts the parentheses that
are open. -/
def sumParts : Nat → Nat → Reader Word
  | 0, _ => throw exhausted
  | fuel + 1, depth => do
    match ← rest with
    | [] => throw .openSum
    | '\\' :: '\n' :: _ =>
      pass 2
      sumParts fuel depth
    | '$' :: _ =>
      advance
      let part ← dollar fuel true
      return part :: (← sumParts fuel depth)
    | c :: cs =>
      advance
      if c = ')' ∧ depth = 0 ∧ cs.head? = some ')' then
        advance
        return []
      else if c = graveMark then
        let part ← grave fuel true
        return part :: (← sumParts fuel depth)
      else
        let depth := if c = '(' then depth + 1 else if c = ')' then depth - 1 else depth
        return plainBefore [c] true (← sumParts fuel depth)

/-- Read the parts of a word. -/
def wordParts : Nat → Reader Word
  | 0 => throw exhausted
  | fuel + 1 => do
    match ← rest with
    | [] => return []
    | '\\' :: '\n' :: _ =>
      pass 2
      wordParts fuel
    | '\\' :: c :: _ =>
      pass 2
      return plainBefore [c] true (← wordParts fuel)
    | '\'' :: cs =>
      let inside := cs.takeWhile (· != '\'')
      if inside.length = cs.length then fail .openQuote
      pass (inside.length + 2)
      return plainBefore inside true (← wordParts fuel)
    | '"' :: _ =>
      advance
      let inside ← quotedParts fuel false
      return (if inside.isEmpty then [.plain "" true] else inside) ++ (← wordParts fuel)
    | '$' :: _ =>
      advance
      let part ← dollar fuel false
      return part :: (← wordParts fuel)
    | c :: cs =>
      if isBreak c then return []
      else if c = graveMark then
        advance
        let part ← grave fuel false
        return part :: (← wordParts fuel)
      else
        let text := c :: cs.takeWhile fun d =>
          !isBreak d && !"\\'\"$".toList.contains d && d != graveMark
        pass text.length
        return plainBefore text false (← wordParts fuel)

/-- Read the next token as it stands. -/
def rawToken : Nat → Reader Token
  | 0 => throw exhausted
  | fuel + 1 => do
    match (← get).ahead with
    | some token =>
      modify fun cursor => { cursor with ahead := none }
      return token
    | none =>
      skipSpaces fuel
      let mark (text : String) : Reader Token := do
        pass text.length
        return .mark text
      match ← rest with
      | [] => return .ending
      | '\n' :: _ =>
        advance
        return .newline
      | '&' :: '&' :: _ => mark "&&"
      | '|' :: '|' :: _ => mark "||"
      | ';' :: ';' :: _ => mark ";;"
      | '&' :: _ => mark "&"
      | '|' :: _ => mark "|"
      | ';' :: _ => mark ";"
      | '(' :: _ => mark "("
      | ')' :: _ => mark ")"
      | '<' :: _ | '>' :: _ => redirectionMark none
      | c :: d :: _ =>
        if c.isDigit ∧ (d = '<' ∨ d = '>') then
          advance
          redirectionMark (some (c.toNat - '0'.toNat))
        else return .word (← wordParts fuel)
      | _ => return .word (← wordParts fuel)

/-- Read the next token; `skip` says that ends of lines do not matter, and `named` that a
word can be a keyword. -/
def token : Nat → Bool → Bool → Reader Token
  | 0, _, _ => throw exhausted
  | fuel + 1, skip, named => do
    match ← rawToken fuel with
    | .newline => if skip then token fuel skip named else return .newline
    | .word parts =>
      match bare? parts with
      | some name => return if named && keywords.contains name then .keyword name else .word parts
      | none => return .word parts
    | found => return found

/-- Read a given token. -/
def expect : Nat → String → Reader Unit
  | 0, _ => throw exhausted
  | fuel + 1, expected => do
    let found ← token fuel false false
    if found.shown ≠ expected then throw (.unexpected found.shown (some expected))

/-- Read commands that belong together; `begun` says whether there has been one. -/
def commands : Nat → Extent → Bool → Reader (List Command)
  | 0, _, _ => throw exhausted
  | fuel + 1, extent, begun => do
    let first ← token fuel (extent != .line) true
    if let .newline := first then return []
    putBack first
    if let .ending := first then return []
    if first.closes ∧ extent ≠ .line ∧ (begun ∨ extent = .optional) then return []
    let one ← joined fuel
    match ← token fuel false false with
    | .mark "&" => return .beside one :: (← commands fuel extent true)
    | .mark ";" => return one :: (← commands fuel extent true)
    | .newline =>
      putBack .newline
      return one :: (← commands fuel extent true)
    | .ending =>
      putBack .ending
      return one :: (← commands fuel extent true)
    | found =>
      if extent = .line then throw (.unexpected found.shown none)
      putBack found
      return [one]

/-- Read commands joined by their success or failure. -/
def joined : Nat → Reader Command
  | 0 => throw exhausted
  | fuel + 1 => do
    let first ← piped fuel
    joinedRest fuel first

/-- Read what is joined to a command by its success or failure. -/
def joinedRest : Nat → Command → Reader Command
  | 0, _ => throw exhausted
  | fuel + 1, first => do
    match ← token fuel false false with
    | .mark "&&" =>
      let second ← piped fuel
      joinedRest fuel (.next false first second)
    | .mark "||" =>
      let second ← piped fuel
      joinedRest fuel (.next true first second)
    | found =>
      putBack found
      return first

/-- Read commands joined by pipes. -/
def piped : Nat → Reader Command
  | 0 => throw exhausted
  | fuel + 1 => do
    let first ← token fuel true true
    let negated := match first with
      | .keyword "!" => true
      | _ => false
    if !negated then putBack first
    let one ← command fuel false
    let others ← pipedRest fuel
    if others.isEmpty && !negated then return one
    else return .pipeline negated (one :: others)

/-- Read the commands after a pipe. -/
def pipedRest : Nat → Reader (List Command)
  | 0 => throw exhausted
  | fuel + 1 => do
    match ← token fuel false false with
    | .mark "|" =>
      let one ← command fuel true
      return one :: (← pipedRest fuel)
    | found =>
      putBack found
      return []

/-- Read one command, which may stand below empty lines if `skip` is set. -/
def command : Nat → Bool → Reader Command
  | 0, _ => throw exhausted
  | fuel + 1, skip => do
    let line := (← get).line
    let closed (one : Command) (mark : String) : Reader Command := do
      expect fuel mark
      redirected fuel line one
    match ← token fuel skip true with
    | .mark "(" => closed (.group true (← commands fuel .body false)) "\")\""
    | .keyword "\x7b" => closed (.group false (← commands fuel .body false)) "\"\x7d\""
    | .keyword "if" => closed (.choice (← choices fuel)) "\"fi\""
    | .keyword "while" =>
      let (condition, body) ← loopParts fuel
      closed (.loop false condition body) "\"done\""
    | .keyword "until" =>
      let (condition, body) ← loopParts fuel
      closed (.loop true condition body) "\"done\""
    | .keyword "for" =>
      let name := match ← token fuel false false with
        | .word parts => (bare? parts).getD ""
        | _ => ""
      if !isName name then throw .loopName
      let words? ← loopWords fuel
      let found ← token fuel true true
      if found.shown ≠ "\"do\"" then throw (.unexpected found.shown (some "\"do\""))
      closed (.forEach line name words? (← commands fuel .body false)) "\"done\""
    | .keyword "case" =>
      match ← token fuel false false with
      | .word word =>
        let found ← token fuel true true
        if found.shown ≠ "\"in\"" then throw (.unexpected found.shown (some "\"in\""))
        redirected fuel line (.select line word (← selections fuel))
      | found => throw (.unexpected found.shown (some "word"))
    | .word parts =>
      putBack (.word parts)
      simple fuel (← get).line [] [] []
    | .redirection stream way =>
      putBack (.redirection stream way)
      simple fuel (← get).line [] [] []
    | found => throw (.unexpected found.shown none)

/-- Read the redirections after a command. -/
def redirected : Nat → Nat → Command → Reader Command
  | 0, _, _ => throw exhausted
  | fuel + 1, line, one => do
    match ← token fuel false true with
    | .redirection stream way =>
      let first ← target fuel stream way
      match ← redirected fuel line one with
      | .redirected line one others => return .redirected line one (first :: others)
      | one => return .redirected line one [first]
    | found =>
      putBack found
      return one

/-- Read what a redirection leads to. -/
def target : Nat → Nat → Way → Reader Redirection
  | 0, _, _ => throw exhausted
  | fuel + 1, stream, way => do
    match ← token fuel false false with
    | .word word =>
      match way with
      | .read => return .input stream word
      | .write => return .file stream word false
      | .append => return .file stream word true
      | .duplicate => return .duplicate stream word
      | .below strip => return .here stream (← textBelow fuel strip word)
    | found => throw (.unexpected found.shown none)

/-- Read the text below the line up to a line that is the given word. Unless the word is
quoted, the text is expanded. -/
def textBelow : Nat → Bool → Word → Reader Word
  | 0, _, _ => throw exhausted
  | fuel + 1, strip, word => do
    let mark := word.flatMap fun
      | .plain text _ => text.toList
      | .variable name _ _ _ => '$' :: name.toList
      | _ => []
    let quoted := word.any fun
      | .plain _ quoted => quoted
      | _ => false
    let cursor ← get
    let current := cursor.rest.takeWhile (· != '\n')
    let (text, size, left) := takeLines strip mark
      ((cursor.rest.drop (current.length + 1)).splitOn '\n')
    let after := { cursor with rest := current ++ '\n' :: left, taken := cursor.taken + size }
    if quoted then
      set after
      return [.plain (String.ofList text) true]
    set (Cursor.mk text (cursor.line + cursor.taken + 1) 0 none)
    let parts ← quotedParts fuel true
    set after
    return parts

/-- Read the rest of a simple command. -/
def simple : Nat → Nat → List (String × Word) → List Word → List Redirection → Reader Command
  | 0, _, _, _, _ => throw exhausted
  | fuel + 1, line, assignments, words, redirections => do
    match ← token fuel false false with
    | .redirection stream way =>
      let one ← target fuel stream way
      simple fuel line assignments words (redirections ++ [one])
    | .word word =>
      match words, assignment? word with
      | [], some one => simple fuel line (assignments ++ [one]) words redirections
      | _, _ => simple fuel line assignments (words ++ [word]) redirections
    | .mark "(" =>
      match assignments, words, redirections with
      | [], [word], [] =>
        expect fuel "\")\""
        let name := (bare? word).getD ""
        if !isName name ∨ fixedNames.contains name then throw .commandName
        return .define name (← command fuel true)
      | _, _, _ =>
        putBack (.mark "(")
        return .simple line assignments words redirections
    | found =>
      putBack found
      return .simple line assignments words redirections

/-- Read the branches of a choice, after its first word. -/
def choices : Nat → Reader (List (List Command × List Command))
  | 0 => throw exhausted
  | fuel + 1 => do
    let condition ← commands fuel .body false
    expect fuel "\"then\""
    let body ← commands fuel .body false
    match ← token fuel false false with
    | .keyword "elif" => return (condition, body) :: (← choices fuel)
    | .keyword "else" => return [(condition, body), ([], ← commands fuel .body false)]
    | found =>
      putBack found
      return [(condition, body)]

/-- Read the condition and the body of a loop. -/
def loopParts : Nat → Reader (List Command × List Command)
  | 0 => throw exhausted
  | fuel + 1 => do
    let condition ← commands fuel .body false
    expect fuel "\"do\""
    return (condition, ← commands fuel .body false)

/-- Read the words that a loop runs over, if they are given. -/
def loopWords : Nat → Reader (Option (List Word))
  | 0 => throw exhausted
  | fuel + 1 => do
    match ← token fuel true true with
    | .keyword "in" => return some (← wordsToEnd fuel)
    | .mark ";" => return none
    | found =>
      putBack found
      return none

/-- Read words up to the end of the line or a semicolon. -/
def wordsToEnd : Nat → Reader (List Word)
  | 0 => throw exhausted
  | fuel + 1 => do
    match ← token fuel false false with
    | .word word => return word :: (← wordsToEnd fuel)
    | .newline | .mark ";" => return []
    | found => throw (.unexpected found.shown none)

/-- Read the cases of a selection up to the word that closes it. -/
def selections : Nat → Reader (List (List Word × List Command))
  | 0 => throw exhausted
  | fuel + 1 => do
    match ← token fuel true true with
    | .keyword "esac" => return []
    | first =>
      let first ← match first with
        | .mark "(" => token fuel false false
        | _ => pure first
      let words ← patterns fuel first
      let body ← commands fuel .optional false
      match ← token fuel true true with
      | .keyword "esac" => return [(words, body)]
      | .mark ";;" => return (words, body) :: (← selections fuel)
      | found => throw (.unexpected found.shown (some "\";;\""))

/-- Read the patterns of a case, with bars between them; the first one has been read. -/
def patterns : Nat → Token → Reader (List Word)
  | 0, _ => throw exhausted
  | fuel + 1, first => do
    let word := match first with
      | .word word => word
      | .keyword name => [.plain name false]
      | _ => []
    match ← token fuel false false with
    | .mark "|" =>
      let second ← token fuel false false
      return word :: (← patterns fuel second)
    | .mark ")" => return [word]
    | found => throw (.unexpected found.shown (some "\")\""))

end

end Reader

/-- The cursor at the front of a script. -/
def Cursor.front (script : String) : Cursor := ⟨script.toList, 1, 0, none⟩

/-- Read the commands of the next line that has not been read; what spans more lines is
read to its end. A fault comes with the number of the line at which it was found. -/
def readLine (cursor : Cursor) : Except (Nat × ScriptFault) (List Command × Cursor) :=
  match (Reader.commands (16 * cursor.rest.length + 64) .line false).run
      { cursor with ahead := none } with
  | .ok line after => .ok (line, after)
  | .error fault after => .error (after.line, fault)

end FlameFold.Machine.Shell
