import FlameFold.Machine.Tool

/-!
# Sorting and cutting lines

The tools that put lines in order, drop those that repeat, turn them round, cut pieces out of
them and join them. Bytes are compared as numbers.
-/

namespace FlameFold.Machine.Tool

/-- A key of lines that are sorted. -/
structure SortKey where
  /-- The field in which it begins, counted from one. -/
  first : Nat
  /-- The character of the field at which it begins, counted from one. -/
  offset : Nat
  /-- The field in which it ends, if it ends before the line does. -/
  last : Option Nat
  /-- The options of the key. -/
  flags : List Char

/-- The number at the front of some characters, and what is left. -/
def frontNumber (cs : List Char) : Nat × List Char :=
  let digits := cs.takeWhile Char.isDigit
  ((leadingNumber? digits).getD 0, cs.drop digits.length)

/-- A key from its text. -/
def SortKey.ofText (text : String) : SortKey :=
  let (first, rest) := frontNumber text.toList
  let (offset, rest) := match rest with
    | '.' :: rest => frontNumber rest
    | rest => (1, rest)
  let flags := rest.takeWhile (· != ',')
  match rest.drop flags.length with
  | _ :: rest =>
    let (last, rest) := frontNumber rest
    ⟨first, offset, some last, flags ++ rest.filter Char.isAlpha⟩
  | [] => ⟨first, offset, none, flags⟩

/-- Whether a byte is a space or a tab. -/
def isBlankByte (b : UInt8) : Bool := b == 0x20 || b == 0x09

/-- The fields of a line: between separators, or else each with the blanks before it. -/
def fieldsOf (separator : Option UInt8) (line : List UInt8) : List (List UInt8) :=
  match separator with
  | some mark => line.splitOn mark
  | none => pieces (line.length + 1) line
where
  pieces : Nat → List UInt8 → List (List UInt8)
    | 0, _ => []
    | _, [] => []
    | fuel + 1, line =>
      let blanks := line.takeWhile isBlankByte
      let word := (line.drop blanks.length).takeWhile (!isBlankByte ·)
      let size := blanks.length + word.length
      (blanks ++ word) :: pieces fuel (line.drop size)

/-- The bytes of a line that a key compares. -/
def SortKey.part (key : SortKey) (separator : Option UInt8) (line : List UInt8) : List UInt8 :=
  let fields := fieldsOf separator line
  let taken := match key.last with
    | some last => (fields.take last).drop (key.first - 1)
    | none => fields.drop (key.first - 1)
  let joint := separator.toList
  (joint.intercalate taken).drop (key.offset - 1)

/-- A letter in the upper case. -/
def upperByte (b : UInt8) : UInt8 := if 0x61 ≤ b ∧ b ≤ 0x7A then b - 32 else b

/-- The number at the front of some bytes, in units of a thousand millionth. -/
def scaledNumber (bytes : List UInt8) : Int :=
  let cs := (byteChars bytes).dropWhile fun c => c == ' ' || c == '\t'
  let (negative, cs) := match cs with
    | '-' :: rest => (true, rest)
    | cs => (false, cs)
  let whole := cs.takeWhile Char.isDigit
  let places := match cs.drop whole.length with
    | '.' :: rest => (rest.takeWhile Char.isDigit).take 9
    | _ => []
  let padded := places ++ List.replicate (9 - places.length) '0'
  let size : Int := (((leadingNumber? (whole ++ padded)).getD 0 : Nat) : Int)
  if negative then -size else size

/-- The order of two parts of lines under some options. -/
def compareParts (flags : List Char) (a b : List UInt8) : Ordering :=
  let plain (bytes : List UInt8) : List UInt8 :=
    let bytes := if flags.contains 'b' then bytes.dropWhile isBlankByte else bytes
    if flags.contains 'f' then bytes.map upperByte else bytes
  let order :=
    if flags.contains 'n' ∨ flags.contains 'g' ∨ flags.contains 'h' then
      compare (scaledNumber a) (scaledNumber b)
    else compare (plain a) (plain b)
  if flags.contains 'r' then order.swap else order

/-- The order of two lines under keys. -/
def compareLines (separator : Option UInt8) (common : List Char) (keys : List SortKey)
    (a b : List UInt8) : Ordering :=
  if keys.isEmpty then compareParts common a b
  else keys.foldl (fun order key =>
    let flags := if (key.flags.filter (· != 'b')).isEmpty then common ++ key.flags else key.flags
    order.then (compareParts flags (key.part separator a) (key.part separator b))) .eq

/-- Drop the lines that a line before them equals. -/
def withoutRepeats (same : List UInt8 → List UInt8 → Bool) :
    List (List UInt8) → List (List UInt8)
  | [] => []
  | [line] => [line]
  | a :: b :: rest =>
    if same a b then withoutRepeats same (a :: rest) else a :: withoutRepeats same (b :: rest)
  termination_by lines => lines.length

/-- Put the lines of the sources in order. -/
def sort (arguments : List String) (files : FileSystem) (input : List UInt8) : Trace :=
  let (given, sources) := options "kto".toList arguments
  let has (c : Char) : Bool := given.any (·.1 == c)
  let common := (given.map Prod.fst).filter "bfghnr".toList.contains
  let keys := (given.filter (·.1 == 'k')).map fun entry => SortKey.ofText entry.2
  let separator := (given.lookup 't').bind fun text =>
    if text = "\\0" then some 0 else (Text.encode text).head?
  match refuseUnknown "sort" 2 files input "bfghnruskto".toList given with
  | some trace => trace
  | none =>
    let (found, trace) := gather files input 2
      (fun name fault => "sort: cannot read: " ++ name ++ ": " ++ fault.wording) sources
    if trace.status ≠ .exited 0 then trace
    else
      let order := compareLines separator common keys
      let last (a b : List UInt8) : Ordering :=
        if has 's' ∨ has 'u' then .eq
        else if has 'r' then (compare a b).swap else compare a b
      let lines := found.flatMap fun (_, bytes) => (linesOf bytes).1
      let sorted := lines.mergeSort fun a b => ((order a b).then (last a b)).isLE
      let kept := if has 'u' then withoutRepeats (fun a b => order a b == .eq) sorted else sorted
      match given.lookup 'o' with
      | none => { trace with output := closed kept }
      | some name =>
        match files.write ⟨name⟩ (closed kept) with
        | .ok files => { trace with files := files }
        | .error fault => complained files input 2 ("sort: open failed: " ++ name ++ ": " ++
            fault.wording)

/-- The rows of lines of which each equals the one before it. -/
def rows (same : List UInt8 → List UInt8 → Bool) (lines : List (List UInt8)) :
    List (List (List UInt8)) :=
  lines.foldr (fun line found =>
    match found with
    | (next :: more) :: rest =>
      if same line next then (line :: next :: more) :: rest else [line] :: found
    | _ => [line] :: found) []

/-- Show one line of each row of equal lines. -/
def uniq (arguments : List String) (files : FileSystem) (input : List UInt8) : Trace :=
  let (given, sources) := options "fsw".toList arguments
  let has (c : Char) : Bool := given.any (·.1 == c)
  let number (c : Char) : Nat := ((given.lookup c).bind String.toNat?).getD 0
  match refuseUnknown "uniq" 1 files input "cdifsuw".toList given with
  | some trace => trace
  | none =>
    let (found, trace) := gather files input 1 (plainRefusal "uniq") (sources.take 1)
    let view (line : List UInt8) : List UInt8 :=
      let fields := ((fieldsOf none line).drop (number 'f')).flatten
      let part := fields.drop (number 's')
      let part := if has 'w' then part.take (number 'w') else part
      if has 'i' then part.map upperByte else part
    let lines := found.flatMap fun (_, bytes) => (linesOf bytes).1
    let all := rows (fun a b => view a == view b) lines
    let shown := all.filter fun row =>
      (!has 'd' || 1 < row.length) && (!has 'u' || row.length == 1)
    let line (row : List (List UInt8)) : List UInt8 :=
      (if has 'c' then Text.encode (column 7 row.length ++ " ") else []) ++ row.headD []
    let output := closed (shown.map line)
    match sources[1]? with
    | none => { trace with output := output }
    | some name =>
      match files.write ⟨name⟩ output with
      | .ok files => { trace with files := files }
      | .error fault => complained files input 1 (plainRefusal "uniq" name fault)

/-- The ranges of a list such as `1,3-5,7-`, or what is wrong with it. -/
def rangesOf (text : String) : Except String (List (Nat × Option Nat)) :=
  let number (cs : List Char) : Except String Nat :=
    if !cs.all Char.isDigit then .error ("invalid field value '" ++ text ++ "'")
    else match (String.ofList cs).toNat? with
      | some 0 | none => .error "fields are numbered from 1"
      | some n => .ok n
  (text.toList.splitOn ',').mapM fun part => do
    match part.splitOn '-' with
    | [one] =>
      let n ← number one
      return (n, some n)
    | [[], []] => .error "invalid range with no endpoint: -"
    | [[], last] => return (1, some (← number last))
    | [first, []] => return (← number first, none)
    | [first, last] =>
      let a ← number first
      let b ← number last
      if b < a then .error "invalid decreasing range" else return (a, some b)
    | _ => .error "invalid field range"

/-- Whether a number lies in one of some ranges. -/
def inRanges (ranges : List (Nat × Option Nat)) (n : Nat) : Bool :=
  ranges.any fun (first, last) => decide (first ≤ n) && last.all (n ≤ ·)

/-- Cut pieces out of each line. -/
def cut (arguments : List String) (files : FileSystem) (input : List UInt8) : Trace :=
  let (given, sources) := options "bcdf".toList arguments
  let has (c : Char) : Bool := given.any (·.1 == c)
  let marks := ((given.lookup 'd').map Text.encode).getD [0x09]
  let mark := marks.headD 0
  let list := ((given.lookup 'f').or (given.lookup 'c')).or (given.lookup 'b')
  match refuseUnknown "cut" 1 files input "bcdfsn".toList given, list with
  | some trace, _ => trace
  | none, none => complained files input 1
      ("cut: you must specify a list of bytes, characters, or fields\n" ++
        "Try 'cut --help' for more information.")
  | none, some list =>
    match if 1 < marks.length then .error "the delimiter must be a single character"
      else rangesOf list with
    | .error text => complained files input 1
        ("cut: " ++ text ++ "\nTry 'cut --help' for more information.")
    | .ok ranges =>
      let (found, trace) := gather files input 1 (plainRefusal "cut") sources
      let chosen {α : Type} (pieces : List α) : List α :=
        (pieces.zipIdx.filter fun (_, i) => inRanges ranges (i + 1)).map Prod.fst
      let line (bytes : List UInt8) : Option (List UInt8) :=
        if has 'f' then
          if bytes.contains mark then some ([mark].intercalate (chosen (bytes.splitOn mark)))
          else if has 's' then none else some bytes
        else some (chosen bytes)
      let lines := found.flatMap fun (_, bytes) => (linesOf bytes).1
      { trace with output := closed (lines.filterMap line) }

/-- Copy the sources with the last line first. -/
def tac (arguments : List String) (files : FileSystem) (input : List UInt8) : Trace :=
  overSources files input 0 (fun name fault => "tac: failed to open '" ++ name ++
    "' for reading: " ++ fault.wording) (fun _ bytes =>
    let (lines, whole) := linesOf bytes
    let records := if whole then lines.map (· ++ [0x0A])
      else lines.dropLast.map (· ++ [0x0A]) ++ [lines.getLast?.getD []]
    (records.reverse.flatten, [])) arguments

/-- Copy the sources with the characters of each line turned round. -/
def rev (arguments : List String) (files : FileSystem) (input : List UInt8) : Trace :=
  overSources files input 0 (fun name fault => "rev: cannot open " ++ name ++ ": " ++
    fault.wording) (fun _ bytes =>
    let (lines, whole) := linesOf bytes
    let turned := lines.map List.reverse
    (if whole then closed turned else [0x0A].intercalate turned, [])) arguments

/-- Number the lines that are not empty, or all of them. -/
def nl (arguments : List String) (files : FileSystem) (input : List UInt8) : Trace :=
  let (given, sources) := options "bnsvw".toList arguments
  let all := given.lookup 'b' = some "a"
  let (found, trace) := gather files input 1 (plainRefusal "nl") sources
  let lines := found.flatMap fun (_, bytes) => (linesOf bytes).1
  let step (state : Nat × List (List UInt8)) (line : List UInt8) : Nat × List (List UInt8) :=
    if line.isEmpty ∧ ¬ all then (state.1, (List.replicate 7 0x20 ++ [0x0A]) :: state.2)
    else (state.1 + 1,
      (Text.encode (column 6 state.1 ++ "\t") ++ line ++ [0x0A]) :: state.2)
  { trace with output := (lines.foldl step (1, [])).2.reverse.flatten }

/-- Join the lines of the sources, one after another or side by side. -/
def paste (arguments : List String) (files : FileSystem) (input : List UInt8) : Trace :=
  let (given, sources) := options ['d'] arguments
  let (found, trace) := gather files input 1 (plainRefusal "paste") sources
  let marks := ((given.lookup 'd').map fun text =>
    charBytes ((text.replace "\\n" "\n").replace "\\t" "\t").toList).getD [0x09]
  let mark (i : Nat) : List UInt8 := (marks[i % max 1 marks.length]?).toList
  let joined (parts : List (List UInt8)) : List UInt8 :=
    (parts.zipIdx.map fun (part, i) => if i = 0 then part else mark (i - 1) ++ part).flatten
  let columns := found.map fun (_, bytes) => (linesOf bytes).1
  if given.any (·.1 == 's') then { trace with output := closed (columns.map joined) }
  else
    let height := columns.foldl (fun n lines => max n lines.length) 0
    let columns := columns.map List.toArray
    let row (i : Nat) : List UInt8 := joined (columns.map fun lines => (lines[i]?).getD [])
    { trace with output := closed ((List.range height).map row) }

end FlameFold.Machine.Tool
