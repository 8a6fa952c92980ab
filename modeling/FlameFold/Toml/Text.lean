/-!
# Texts of a settings document

Four written forms of a text: between quotes with escapes or between apostrophes as
it is, each on one line or, with the delimiter three times, over several lines.
Reading takes the characters after the opening delimiter and gives the text and what
follows the closing one.
-/

namespace FlameFold.Toml

namespace Text

/-- A character that may be written as itself: a tab, or one that is no control. -/
def isPlain (c : Char) : Bool :=
  c == '\t' || (0x20 ≤ c.toNat && c.toNat != 0x7F)

/-- A space or a tab. -/
def isSpace (c : Char) : Bool := c == ' ' || c == '\t'

/-- Put a character in front of what is read. -/
def push (c : Char) (read : Option (List Char × List Char)) : Option (List Char × List Char) :=
  read.map fun (text, rest) => (c :: text, rest)

/-- The value of a digit in base sixteen. -/
def hexValue? (c : Char) : Option Nat :=
  if '0' ≤ c ∧ c ≤ '9' then some (c.toNat - 48)
  else if 'a' ≤ c ∧ c ≤ 'f' then some (c.toNat - 87)
  else if 'A' ≤ c ∧ c ≤ 'F' then some (c.toNat - 55)
  else none

/-- The character that digits in base sixteen number. -/
def numbered? (digits : List Char) : Option Char := do
  let values ← digits.mapM hexValue?
  let n := values.foldl (fun n v => n * 16 + v) 0
  if n.isValidChar then some (Char.ofNat n) else none

/-- The character that a letter after a backslash stands for. -/
def lettered? (c : Char) : Option Char :=
  match c with
  | 'b' => some '\x08'
  | 'f' => some '\x0c'
  | 'n' => some '\n'
  | 'r' => some '\r'
  | 't' => some '\t'
  | '\\' => some '\\'
  | '"' => some '"'
  | _ => none

/-- Read to the closing quote on the same line. -/
def basic : List Char → Option (List Char × List Char)
  | [] => none
  | '"' :: rest => some ([], rest)
  | '\\' :: 'u' :: a :: b :: c :: d :: rest =>
    (numbered? [a, b, c, d]).bind fun x => push x (basic rest)
  | '\\' :: 'U' :: a :: b :: c :: d :: e :: f :: g :: h :: rest =>
    (numbered? [a, b, c, d, e, f, g, h]).bind fun x => push x (basic rest)
  | '\\' :: letter :: rest => (lettered? letter).bind fun x => push x (basic rest)
  | c :: rest => if isPlain c && c != '\\' then push c (basic rest) else none

/-- Read to the closing apostrophe on the same line. -/
def literal : List Char → Option (List Char × List Char)
  | [] => none
  | '\'' :: rest => some ([], rest)
  | c :: rest => if isPlain c then push c (literal rest) else none

/-- Up to two delimiter characters after the closing delimiter belong to the text. -/
def closing (delimiter : Char) : List Char → List Char × List Char
  | a :: b :: rest =>
    if a = delimiter ∧ b = delimiter then ([a, b], rest)
    else if a = delimiter then ([a], b :: rest)
    else ([], a :: b :: rest)
  | [a] => if a = delimiter then ([a], []) else ([], [a])
  | [] => ([], [])

/-- Whether a backslash before these characters continues the text on a later line. -/
def continues (cs : List Char) : Bool :=
  match cs.dropWhile isSpace with
  | '\n' :: _ => true
  | '\r' :: '\n' :: _ => true
  | _ => false

/-- Read to three closing quotes. While `skip` is set, which a backslash at the end
of a line does, spaces and line ends are dropped. -/
def multiBasic : Bool → List Char → Option (List Char × List Char)
  | _, [] => none
  | _, '"' :: '"' :: '"' :: rest => some (closing '"' rest)
  | _, '\\' :: 'u' :: a :: b :: c :: d :: rest =>
    (numbered? [a, b, c, d]).bind fun x => push x (multiBasic false rest)
  | _, '\\' :: 'U' :: a :: b :: c :: d :: e :: f :: g :: h :: rest =>
    (numbered? [a, b, c, d, e, f, g, h]).bind fun x => push x (multiBasic false rest)
  | _, '\\' :: letter :: rest =>
    if continues (letter :: rest) then multiBasic true (letter :: rest)
    else (lettered? letter).bind fun x => push x (multiBasic false rest)
  | skip, '\r' :: '\n' :: rest =>
    if skip then multiBasic true rest else push '\n' (multiBasic false rest)
  | skip, '\n' :: rest =>
    if skip then multiBasic true rest else push '\n' (multiBasic false rest)
  | skip, c :: rest =>
    if skip && isSpace c then multiBasic true rest
    else if isPlain c && c != '\\' then push c (multiBasic false rest)
    else none

/-- Read to three closing apostrophes. -/
def multiLiteral : List Char → Option (List Char × List Char)
  | [] => none
  | '\'' :: '\'' :: '\'' :: rest => some (closing '\'' rest)
  | '\r' :: '\n' :: rest => push '\n' (multiLiteral rest)
  | '\n' :: rest => push '\n' (multiLiteral rest)
  | c :: rest => if isPlain c then push c (multiLiteral rest) else none

/-- Drop a line end right after an opening delimiter. -/
def afterOpening : List Char → List Char
  | '\n' :: rest => rest
  | '\r' :: '\n' :: rest => rest
  | cs => cs

/-- Read a text in any of its forms. -/
def read : List Char → Option (List Char × List Char)
  | '"' :: '"' :: '"' :: rest => multiBasic false (afterOpening rest)
  | '"' :: rest => basic rest
  | '\'' :: '\'' :: '\'' :: rest => multiLiteral (afterOpening rest)
  | '\'' :: rest => literal rest
  | _ => none

/-- Read a text on one line. -/
def readLine : List Char → Option (List Char × List Char)
  | '"' :: rest => basic rest
  | '\'' :: rest => literal rest
  | _ => none

end Text

end FlameFold.Toml
