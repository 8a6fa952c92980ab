import FlameFold.Machine.Tool
import FlameFold.Regex.CharSet

/-!
# Replacing characters

The tool `tr` replaces the bytes of one set by those of another, drops bytes, and squeezes
rows of one byte.
-/

namespace FlameFold.Machine.Tool

/-- The value of digits in base eight. -/
def octalValue (digits : List Char) : Nat := digits.foldl (fun n c => n * 8 + (c.toNat - 48)) 0

/-- A digit in base eight. -/
def isOctalDigit (c : Char) : Bool := '0' ≤ c && c ≤ '7'

/-- The character after a backslash, and what is left. -/
def setEscape (cs : List Char) : Char × List Char :=
  match cs with
  | [] => ('\\', [])
  | c :: rest =>
    let digits := (cs.take 3).takeWhile isOctalDigit
    if !digits.isEmpty then (Char.ofNat (octalValue digits % 256), cs.drop digits.length)
    else match c with
      | 'a' => ('\x07', rest)
      | 'b' => ('\x08', rest)
      | 'f' => ('\x0c', rest)
      | 'n' => ('\n', rest)
      | 'r' => ('\r', rest)
      | 't' => ('\t', rest)
      | 'v' => ('\x0b', rest)
      | c => (c, rest)

/-- A set of bytes: its characters in order, at most `fuel` steps of them. -/
def charSet : Nat → List Char → List Char
  | 0, _ => []
  | _, [] => []
  | fuel + 1, '[' :: ':' :: cs =>
    let name := cs.takeWhile (· != ':')
    match Regex.CharSet.named? (String.ofList name), cs.drop name.length with
    | some set, ':' :: ']' :: rest =>
      ((List.range 256).filter set.holds).map Char.ofNat ++ charSet fuel rest
    | _, _ => '[' :: charSet fuel (':' :: cs)
  | fuel + 1, c :: cs =>
    let (first, rest) := if c = '\\' then setEscape cs else (c, cs)
    match rest with
    | '-' :: d :: more =>
      let (last, more) := if d = '\\' then setEscape more else (d, more)
      (List.range' first.toNat (last.toNat + 1 - first.toNat)).map Char.ofNat ++
        charSet fuel more
    | _ => first :: charSet fuel rest

/-- The bytes of a set. -/
def setBytes (text : String) : List UInt8 :=
  let chars := textChars text
  charBytes (charSet (chars.length + 1) chars)

/-- Bytes with one in the place of a row of the same, for those of a set. -/
def squeezed (isIn : UInt8 → Bool) : List UInt8 → List UInt8
  | a :: b :: rest =>
    if a = b ∧ isIn a then squeezed isIn (b :: rest) else a :: squeezed isIn (b :: rest)
  | rest => rest

/-- Replace, drop or squeeze characters. -/
def tr (arguments : List String) (files : FileSystem) (input : List UInt8) : Trace :=
  let (given, sets) := options [] arguments
  let has (c : Char) : Bool := given.any (·.1 == c)
  let first := setBytes (sets.headD "")
  let others := has 'c' || has 'C'
  let inFirst (b : UInt8) : Bool := first.contains b != others
  let last := (sets[1]?).map setBytes
  let wrote (bytes : List UInt8) : Trace := ⟨files, [], bytes, [], .exited 0, 0⟩
  let changed (targets : List UInt8) : List UInt8 :=
    let sources := if others then
        ((List.range 256).map UInt8.ofNat).filter fun b => !first.contains b
      else first
    let pairs := sources.zipIdx.map fun (b, i) =>
      (b, (targets[i]?.or targets.getLast?).getD b)
    input.map fun b => ((pairs.reverse).lookup b).getD b
  match refuseUnknown "tr" 1 files input "cCdst".toList given with
  | some trace => trace
  | none =>
    let extra? := sets[if has 'd' && !has 's' then 1 else 2]?
    match sets, last with
    | [], _ => complainedMissing "tr" "operand" files input
    | _, some targets =>
      if let some word := extra? then
        complained files input 1 ("tr: extra operand '" ++ word ++
          "'\n" ++ (if has 'd' && !has 's' then
            "Only one string may be given when deleting without squeezing repeats.\n" else "") ++
          "Try 'tr --help' for more information.")
      else if has 'd' then
        wrote (squeezed (fun b => has 's' && targets.contains b) (input.filter (!inFirst ·)))
      else
        let bytes := changed targets
        wrote (if has 's' then squeezed targets.contains bytes else bytes)
    | [set], none =>
      if has 'd' then wrote (input.filter (!inFirst ·))
      else if has 's' then wrote (squeezed inFirst input)
      else complained files input 1 ("tr: missing operand after '" ++ set ++
        "'\nTwo strings must be given when translating.\nTry 'tr --help' for more information.")
    | _, none => complainedMissing "tr" "operand" files input

end FlameFold.Machine.Tool
