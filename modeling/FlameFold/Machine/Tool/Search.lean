import FlameFold.Machine.Tool
import FlameFold.Regex.Posix
import FlameFold.Regex.Spans

/-!
# Finding lines

The tool `grep` shows the lines in which a pattern matches, or those in which it does not.
-/

namespace FlameFold.Machine.Tool

/-- A regular expression for which letters stand for both cases. -/
def bothCases : Regex Regex.CharSet Regex.Look → Regex Regex.CharSet Regex.Look
  | .empty => .empty
  | .one set => .one (.anyCase set)
  | .look place => .look place
  | .sequence a b => .sequence (bothCases a) (bothCases b)
  | .either a b => .either (bothCases a) (bothCases b)
  | .repeated least most a => .repeated least most (bothCases a)
  | .group number a => .group number (bothCases a)

/-- A text that matches only itself. -/
def literalRegex (text : List Char) : Regex Regex.CharSet Regex.Look :=
  Regex.sequences (text.map fun c => .one (.single c))

/-- The regular expression that the options and the patterns ask for. -/
def searched (has : Char → Bool) (patterns : List String) :
    Except Regex.Posix.PatternFault (Regex Regex.CharSet Regex.Look) := do
  let texts := patterns.flatMap fun text => (textChars text).splitOn '\n'
  let each ← texts.mapM fun text =>
    if has 'F' then pure (literalRegex text) else Regex.Posix.parse (has 'E') text
  let any := Regex.eithers each
  let any := if has 'i' ∨ has 'y' then bothCases any else any
  return if has 'x' then .sequence (.look .start) (.sequence any (.look .stop))
    else if has 'w' then .sequence (.look .noWordBefore) (.sequence any (.look .noWordAfter))
    else any

/-- Show the lines in which a pattern matches. -/
def grep (arguments : List String) (files : FileSystem) (input : List UInt8) : Trace :=
  let (given, words) := options "em".toList arguments
  let has (c : Char) : Bool := given.any (·.1 == c)
  let named := (given.filter (·.1 == 'e')).map Prod.snd
  let usage := "Usage: grep [OPTION]... PATTERNS [FILE]...\n" ++
    "Try 'grep --help' for more information."
  let (patterns, sources) := if named.isEmpty then (words.take 1, words.drop 1) else (named, words)
  match given.find? fun entry => !"ivcnlLqshHoxwFEGyem".toList.contains entry.1 with
  | some entry => complained files input 2
      ("grep: invalid option -- '" ++ String.ofList [entry.1] ++ "'\n" ++ usage)
  | none =>
    match patterns, searched has patterns with
    | [], _ => complained files input 2 usage
    | _, .error fault => complained files input 2 ("grep: " ++ fault.message)
    | _, .ok regex =>
      let (found, trace) := gather files input 2
        (plainRefusal "grep") sources
      let complaints := if has 's' then [] else trace.complaints
      let most := ((given.lookup 'm').bind String.toNat?)
      let titled := (1 < sources.length ∨ has 'H') ∧ ¬ has 'h'
      let lead (name : String) (i : Nat) : List UInt8 :=
        (if titled then Text.encode ((if name = "-" then "(standard input)" else name) ++ ":")
          else []) ++
        (if has 'n' then Text.encode (Nat.repr (i + 1) ++ ":") else [])
      let shown := found.map fun (name, bytes) =>
        let lines := (linesOf bytes).1.zipIdx.filter fun (line, _) =>
          let chars := byteChars line
          ((regex.on chars).reach chars.length (Regex.Places.all chars.length) != 0) != has 'v'
        let lines := match most with
          | some most => lines.take most
          | none => lines
        let output : List UInt8 :=
          if has 'q' then []
          else if has 'l' then if lines.isEmpty then [] else lineBytes name
          else if has 'L' then if lines.isEmpty then lineBytes name else []
          else if has 'c' then
            (if titled then Text.encode (name ++ ":") else []) ++
              lineBytes (Nat.repr lines.length)
          else if has 'o' then
            if has 'v' then []
            else lines.flatMap fun (line, i) =>
              let chars := byteChars line
              (Regex.allMatches regex chars).flatMap fun one =>
                let part := charBytes (one.stretch chars 0)
                if part.isEmpty then [] else lead name i ++ part ++ [0x0A]
          else lines.flatMap fun (line, i) => lead name i ++ line ++ [0x0A]
        (!lines.isEmpty, output)
      let any := shown.any (fun entry => entry.1 != has 'L')
      { trace with
        output := shown.flatMap Prod.snd
        complaints := complaints
        status :=
          if has 'q' ∧ any then .exited 0
          else if trace.status ≠ .exited 0 then .exited 2
          else .exited (if any then 0 else 1) }

end FlameFold.Machine.Tool
