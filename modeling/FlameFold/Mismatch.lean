import FlameFold.Text.Quoted

/-!
# Data that does not fit

Why a value read from a document does not fit the place it is read into. The same
causes are worded alike whatever the format of the document.
-/

namespace FlameFold

/-- What stands in a document, as far as a message shows it. -/
inductive Found where
  /-- The null value. -/
  | null
  /-- A truth value. -/
  | boolean (value : Bool)
  /-- A whole number. -/
  | integer (value : Int)
  /-- A number with a fraction, by its text. -/
  | floating (digits : String)
  /-- A text. -/
  | text (value : String)
  /-- A list of values. -/
  | sequence
  /-- Values under keys. -/
  | map
  deriving DecidableEq, Repr

/-- The wording of what was found. -/
def Found.message : Found → String
  | .null => "null"
  | .boolean value => "boolean `" ++ (if value then "true" else "false") ++ "`"
  | .integer value => "integer `" ++ Int.repr value ++ "`"
  | .floating digits => "floating point `" ++ digits ++ "`"
  | .text value => "string " ++ Text.quoted value
  | .sequence => "sequence"
  | .map => "map"

/-- Why a value does not fit. -/
inductive Mismatch where
  /-- A value of another kind stands there. -/
  | kind (found : Found) (expected : String)
  /-- The number is out of range. -/
  | range (value : Int) (expected : String)
  /-- A list in the place of fields ends after `count` of them. -/
  | tooShort (count : Nat) (expected : String)
  /-- A field is not given. -/
  | missing (field : String)
  /-- A field is given twice. -/
  | duplicate (field : String)
  /-- A key is no field. -/
  | unknown (key : String) (fields : List String)
  deriving DecidableEq, Repr

/-- The wording of the cause. -/
def Mismatch.message : Mismatch → String
  | .kind found expected => "invalid type: " ++ found.message ++ ", expected " ++ expected
  | .range value expected =>
    "invalid value: " ++ (Found.integer value).message ++ ", expected " ++ expected
  | .tooShort count expected =>
    "invalid length " ++ Nat.repr count ++ ", expected " ++ expected
  | .missing field => "missing field `" ++ field ++ "`"
  | .duplicate field => "duplicate field `" ++ field ++ "`"
  | .unknown key fields =>
    "unknown field `" ++ key ++ "`, expected one of " ++
      ", ".intercalate (fields.map fun field => "`" ++ field ++ "`")

end FlameFold
