import FlameFold.Decimal.Places
import FlameFold.Machine.Tool

/-!
# Formatted output

The escapes that start with a backslash, and the tool that writes its arguments by a
format.
-/

namespace FlameFold.Machine.Format

/-- The value of digits in base eight. -/
def octal (digits : List Char) : UInt8 :=
  UInt8.ofNat (digits.foldl (fun n c => n * 8 + (c.toNat - 48)) 0)

/-- A digit in base eight. -/
def isOctal (c : Char) : Bool := '0' ≤ c && c ≤ '7'

/-- The byte that a letter after a backslash stands for. -/
def lettered? (c : Char) : Option UInt8 :=
  match c with
  | 'a' => some 7
  | 'b' => some 8
  | 'e' => some 27
  | 'f' => some 12
  | 'n' => some 10
  | 'r' => some 13
  | 't' => some 9
  | 'v' => some 11
  | '\\' => some 92
  | '"' => some 34
  | '\'' => some 39
  | _ => none

/-- A number in a format. -/
inductive Count where
  /-- There is none. -/
  | absent
  /-- It stands there. -/
  | given (n : Nat)
  /-- It is the next argument. -/
  | next
  deriving DecidableEq, Repr

/-- A piece of a format or of a text with escapes. -/
inductive Piece where
  /-- Bytes to write. -/
  | bytes (bytes : List UInt8)
  /-- The next argument, in a form. -/
  | argument (flags : List Char) (width places : Count) (form : Char)
  /-- Nothing more is to be written. -/
  | stop
  /-- A percent sign and what comes after it up to where it makes no sense, or up to the end
  if `isOpen` is set. -/
  | bad (text : String) (isOpen : Bool)

/-- Read the escape after a backslash; with `zeroFirst` a zero can come before the digits
of a byte. -/
def escape (zeroFirst : Bool) (cs : List Char) : Piece × List Char :=
  match cs with
  | [] => (.bytes [92], [])
  | c :: rest =>
    if zeroFirst && c == '0' then
      let digits := (rest.take 3).takeWhile isOctal
      (.bytes [octal digits], rest.drop digits.length)
    else if isOctal c then
      let digits := (cs.take 3).takeWhile isOctal
      (.bytes [octal digits], cs.drop digits.length)
    else if c = 'c' then (.stop, [])
    else match lettered? c with
      | some b => (.bytes [b], rest)
      | none => (.bytes (92 :: Text.encode (String.ofList [c])), rest)

/-- Read a number at the front. -/
def number (cs : List Char) : Nat × List Char :=
  let digits := cs.takeWhile Char.isDigit
  (digits.foldl (fun n c => n * 10 + (c.toNat - 48)) 0, cs.drop digits.length)

/-- Read a number at the front, or the mark that says the next argument. -/
def count (cs : List Char) : Count × List Char :=
  match cs with
  | '*' :: rest => (.next, rest)
  | _ =>
    let (n, rest) := number cs
    (if rest.length = cs.length then .absent else .given n, rest)

/-- The forms that an argument can have. -/
def forms : List Char := "sbcdiouxXeEfFgG".toList

/-- Read what follows a percent sign. -/
def directive (cs : List Char) : Piece × List Char :=
  let flags := cs.takeWhile fun c => "-+ #0".toList.contains c
  let (width, rest) := count (cs.drop flags.length)
  let (places, rest) := match rest with
    | '.' :: rest =>
      let (places, rest) := count rest
      (if places = .absent then .given 0 else places, rest)
    | _ => (.absent, rest)
  match rest with
  | form :: after =>
    if cs.head? = some '%' then (.bytes [37], after)
    else if forms.contains form then (.argument flags width places form, after)
    else (.bad (String.ofList ('%' :: cs.take (cs.length - after.length))) false, after)
  | [] => (.bad (String.ofList ('%' :: cs)) true, [])

/-- The pieces of a format, at most `fuel` of them; `stops` says that an escape can end it. -/
def pieces (stops : Bool) : Nat → List Char → List Piece
  | 0, _ => []
  | _, [] => []
  | fuel + 1, '\\' :: rest =>
    match escape false rest with
    | (.stop, _) =>
      if stops then [.stop] else .bytes [92] :: pieces stops fuel rest
    | (piece, rest) => piece :: pieces stops fuel rest
  | fuel + 1, '%' :: rest =>
    let (piece, rest) := directive rest
    piece :: pieces stops fuel rest
  | fuel + 1, c :: rest => .bytes (Text.encode (String.ofList [c])) :: pieces stops fuel rest

/-- The bytes of a text with escapes, at most `fuel` pieces of it, and whether more may
be written. -/
def escaped : Nat → List Char → List UInt8 × Bool
  | 0, _ => ([], true)
  | _, [] => ([], true)
  | fuel + 1, '\\' :: rest =>
    match escape true rest with
    | (.bytes bytes, rest) =>
      let (more, goes) := escaped fuel rest
      (bytes ++ more, goes)
    | (_, _) => ([], false)
  | fuel + 1, c :: rest =>
    let (more, goes) := escaped fuel rest
    (Text.encode (String.ofList [c]) ++ more, goes)

/-- The bytes of a text with escapes, and whether more may be written. -/
def interpret (text : String) : List UInt8 × Bool := escaped (text.length + 1) text.toList

/-- The options at the front of the words that `echo` writes. -/
def echoOptions : List String → List Char × List String
  | word :: rest =>
    match word.toList with
    | '-' :: c :: cs =>
      if (c :: cs).all fun c => "neE".toList.contains c then
        let (others, words) := echoOptions rest
        (c :: cs ++ others, words)
      else ([], word :: rest)
    | _ => ([], word :: rest)
  | [] => ([], [])

/-- Write the arguments on one line, with escapes only if they are asked for. -/
def echo (arguments : List String) (files : FileSystem) (input : List UInt8) : Trace :=
  let (options, words) := echoOptions arguments
  let text := " ".intercalate words
  let escapes := (options.filter (· != 'n')).getLast? = some 'e'
  let (bytes, goes) := if escapes then interpret text else (Text.encode text, true)
  Tool.wrote files input (bytes ++ if goes && !options.contains 'n' then [0x0A] else [])

/-- How an argument is written. -/
structure Shape where
  /-- The marks that change the form. -/
  flags : List Char
  /-- How many bytes it takes at least. -/
  width : Nat
  /-- How many digits or bytes are written, if that is said. -/
  places : Option Nat

namespace Shape

/-- A text, cut and put into a column. -/
def text (shape : Shape) (bytes : List UInt8) : List UInt8 :=
  let bytes := match shape.places with
    | some n => bytes.take n
    | none => bytes
  let missing := List.replicate (shape.width - bytes.length) 32
  if shape.flags.contains '-' then bytes ++ missing else missing ++ bytes

/-- Digits after what stands before them; zeros can fill the column between these. -/
def digits (shape : Shape) (zeros : Bool) (front body : List Char) : List UInt8 :=
  let missing := shape.width - front.length - body.length
  let filled := if zeros && shape.flags.contains '0' && !shape.flags.contains '-' then
      List.replicate missing '0' ++ body
    else body
  { shape with places := none }.text (Text.encode (String.ofList (front ++ filled)))

/-- What stands before the digits of a number. -/
def sign (shape : Shape) (isNegative : Bool) : List Char :=
  if isNegative then ['-'] else if shape.flags.contains '+' then ['+']
  else if shape.flags.contains ' ' then [' '] else []

/-- One more than the largest number without a sign. -/
def span : Int := (Nat.pow 2 64 : Nat)

/-- A whole number in a form. -/
def whole (shape : Shape) (form : Char) (n : Int) : List UInt8 :=
  let filled (digits : List Char) : List Char :=
    let digits := if digits = ['0'] ∧ shape.places = some 0 then [] else digits
    List.replicate (shape.places.getD 0 - digits.length) '0' ++ digits
  let plain (base : Nat) : List Char := filled (Nat.toDigits base (n % span).toNat)
  let zeros := shape.places.isNone
  let marked := shape.flags.contains '#' && n != 0
  match form with
  | 'u' => shape.digits zeros [] (plain 10)
  | 'o' =>
    let body := plain 8
    shape.digits zeros [] (if marked && body.head? != some '0' then '0' :: body else body)
  | 'x' => shape.digits zeros (if marked then ['0', 'x'] else []) (plain 16)
  | 'X' => shape.digits zeros (if marked then ['0', 'X'] else []) ((plain 16).map Char.toUpper)
  | _ => shape.digits zeros (shape.sign (n < 0)) (filled (Nat.toDigits 10 n.natAbs))

/-- A number with a point in a form. -/
def broken (shape : Shape) (form : Char) (q : Rat) : List UInt8 :=
  let size : Rat := if q < 0 then -q else q
  let places := shape.places.getD 6
  let body := match form with
    | 'f' | 'F' => Decimal.fixedText places size
    | 'e' | 'E' => Decimal.powerOfTenText places size
    | _ => Decimal.generalText places size
  let body := if form.isUpper then body.toList.map Char.toUpper else body.toList
  shape.digits true (shape.sign (q < 0)) body

end Shape

/-- A whole number with a sign, if the text is one. -/
def whole? (text : String) : Option Int :=
  match text.toList with
  | '-' :: rest => (Tool.leadingNumber? rest).map fun n => -(n : Int)
  | '+' :: rest => (Tool.leadingNumber? rest).map fun n => (n : Int)
  | cs => (Tool.leadingNumber? cs).map fun n => (n : Int)

/-- The value of a digit in base sixteen or less. -/
def digitValue (c : Char) : Nat :=
  if c.isDigit then c.toNat - 48 else c.toLower.toNat - 87

/-- What is wrong with an argument that should be a number. -/
inductive Flaw where
  /-- It does not begin with a number. -/
  | notNumber
  /-- Something stands after the number. -/
  | more
  /-- The number is too large. -/
  | tooLarge
  deriving DecidableEq, Repr

/-- The number at the front of an argument, and what is wrong with the argument. -/
def numeral (text : String) : Int × Option Flaw :=
  let (negative, cs) := match text.toList.dropWhile fun c => c == ' ' || ('\t' ≤ c && c ≤ '\r') with
    | '-' :: rest => (true, rest)
    | '+' :: rest => (false, rest)
    | cs => (false, cs)
  let (base, cs) := match cs with
    | '0' :: 'x' :: rest => (16, rest)
    | '0' :: 'X' :: rest => (16, rest)
    | '0' :: rest => (8, '0' :: rest)
    | cs => (10, cs)
  let isDigit (c : Char) : Bool :=
    match base with
    | 16 => c.isDigit || "abcdefABCDEF".toList.contains c
    | 8 => isOctal c
    | _ => c.isDigit
  match text.toList with
  | [] => (0, none)
  | '\'' :: c :: _ | '"' :: c :: _ => (c.toNat, none)
  | _ =>
    let digits := cs.takeWhile isDigit
    let size : Int := (digits.foldl (fun n c => base * n + digitValue c) 0 : Nat)
    let limit : Int := (Nat.pow 2 63 : Nat)
    if digits.isEmpty then (0, some .notNumber)
    else if negative ∧ limit < size then (-limit, some .tooLarge)
    else if ¬ negative ∧ limit ≤ size then (limit - 1, some .tooLarge)
    else (if negative then -size else size, if digits.length < cs.length then some .more else none)

/-- The number with a point at the front of an argument, and what is wrong with the
argument. -/
def pointedNumeral (text : String) : Rat × Option Flaw :=
  let (negative, cs) := match text.toList with
    | '-' :: rest => (true, rest)
    | '+' :: rest => (false, rest)
    | cs => (false, cs)
  match Decimal.atFront? cs with
  | some (q, rest) => (if negative then -q else q, if rest.isEmpty then none else some .more)
  | none => (0, if text.isEmpty then none else some .notNumber)

/-- The bytes of an argument, what is wrong with it, and whether more may be written. -/
def shown (shape : Shape) (form : Char) (text : String) : List UInt8 × Option Flaw × Bool :=
  match form with
  | 's' => (shape.text (Text.encode text), none, true)
  | 'b' =>
    let (bytes, goes) := interpret text
    (shape.text bytes, none, goes)
  | 'c' => ({ shape with places := none }.text ((Text.encode text).take 1), none, true)
  | 'e' | 'E' | 'f' | 'F' | 'g' | 'G' =>
    let (q, flaw?) := pointedNumeral text
    (shape.broken form q, flaw?, true)
  | _ =>
    let (n, flaw?) := numeral text
    (shape.whole form n, flaw?, true)

/-- The number that a count says, and the arguments that are left. -/
def Count.resolve (count : Count) (arguments : List String) : Option Int × List String :=
  match count with
  | .absent => (none, arguments)
  | .given n => (some n, arguments)
  | .next => (some (numeral (arguments.headD "")).1, arguments.drop 1)

/-- The shape that a directive gives its argument, and the arguments that are left. -/
def shapeOf (flags : List Char) (width places : Count) (arguments : List String) :
    Shape × List String :=
  let (width?, arguments) := width.resolve arguments
  let (places?, arguments) := places.resolve arguments
  let width := width?.getD 0
  (⟨if width < 0 then '-' :: flags else flags, width.natAbs,
    places?.bind fun n => if n < 0 then none else some n.toNat⟩, arguments)

/-- What came of writing pieces. -/
structure Written where
  /-- The bytes. -/
  bytes : List UInt8
  /-- The arguments that are left. -/
  left : List String
  /-- The arguments with flaws. -/
  flaws : List (String × Flaw)
  /-- Whether more may be written. -/
  goes : Bool
  /-- A directive that makes no sense, at which writing ended, and whether the format ended
  with it. -/
  bad : Option (String × Bool)

/-- Write the pieces once. -/
def once : List Piece → List String → Written
  | [], arguments => ⟨[], arguments, [], true, none⟩
  | .stop :: _, arguments => ⟨[], arguments, [], false, none⟩
  | .bad text isOpen :: _, arguments => ⟨[], arguments, [], false, some (text, isOpen)⟩
  | .bytes bytes :: rest, arguments =>
    let written := once rest arguments
    { written with bytes := bytes ++ written.bytes }
  | .argument flags width places form :: rest, arguments =>
    let (shape, arguments) := shapeOf flags width places arguments
    let text := arguments.headD ""
    match shown shape form text with
    | (bytes, _, false) => ⟨bytes, arguments.drop 1, [], false, none⟩
    | (bytes, flaw?, true) =>
      let written := once rest (arguments.drop 1)
      { written with
        bytes := bytes ++ written.bytes
        flaws := (flaw?.map fun flaw => (text, flaw)).toList ++ written.flaws }

/-- Write the pieces until no argument is left, at most `fuel` times. -/
def repeated (all : List Piece) : Nat → List String → Written
  | 0, arguments => ⟨[], arguments, [], false, none⟩
  | fuel + 1, arguments =>
    let first := once all arguments
    if first.goes && !first.left.isEmpty && first.left.length < arguments.length then
      let more := repeated all fuel first.left
      { more with bytes := first.bytes ++ more.bytes, flaws := first.flaws ++ more.flaws }
    else first

/-- What a shell says of a flaw. -/
def flawInShell (text : String) : Flaw → String
  | .notNumber => text ++ ": expected numeric value"
  | .more => text ++ ": not completely converted"
  | .tooLarge => text ++ ": Numerical result out of range"

/-- What the tool says of a flaw. -/
def flawInTool (text : String) : Flaw → String
  | .notNumber => "'" ++ text ++ "': expected a numeric value"
  | .more => "'" ++ text ++ "': value not completely converted"
  | .tooLarge => "'" ++ text ++ "': Numerical result out of range"

/-- Write the arguments by a format. A shell is named in its complaints by `speaker`; the
tool has none. -/
def printf (speaker : String) (arguments : List String) (files : FileSystem)
    (input : List UInt8) : Trace :=
  let isTool := speaker.isEmpty
  let unfit (text : String) : Trace := Tool.complained files input 2 (speaker ++ "printf: " ++ text)
  let missing : Trace := if isTool then Tool.complainedMissing "printf" "operand" files input
    else unfit "usage: printf format [arg ...]"
  let write (format : String) (words : List String) : Trace :=
    let all := pieces isTool (format.length + 1) format.toList
    let written := repeated all (words.length + 1) words
    let flaws := written.flaws.map fun (text, flaw) =>
      if isTool then flawInTool text flaw else flawInShell text flaw
    let bad := written.bad.toList.map fun (text, isOpen) =>
      if isTool then text ++ ": invalid conversion specification"
      else if isOpen then "missing format character" else text ++ ": invalid directive"
    let excess := if isTool ∧ written.goes then written.left.take 1 else []
    let warnings := excess.map fun word =>
      "warning: ignoring excess arguments, starting with '" ++ word ++ "'"
    let complaints := (flaws ++ bad ++ warnings).flatMap fun text =>
      Tool.lineBytes (speaker ++ "printf: " ++ text)
    let code := if !bad.isEmpty then (if isTool then 1 else 2) else if flaws.isEmpty then 0 else 1
    ⟨files, input, written.bytes, complaints, .exited code, 0⟩
  match arguments with
  | [] | ["--"] => missing
  | "--" :: format :: words => write format words
  | format :: words =>
    if !isTool ∧ Tool.isOption format then
      unfit ("Illegal option " ++ String.ofList (format.toList.take 2))
    else write format words

end FlameFold.Machine.Format
