import FlameFold.Decimal.Binary64

/-!
# Values of a JSON text

A text is read as far as it is well formed. The first place where it is not is kept in
the value, so that whoever looks at the parts in order meets it in its turn.
-/

namespace FlameFold.Json

/-- A number. -/
inductive Number where
  /-- A whole number below `2 ^ 64`. -/
  | natural (size : Nat)
  /-- The negative of a whole number from `1` to `2 ^ 63`. -/
  | negative (size : Nat)
  /-- Any other number. -/
  | floating (number : Decimal.Binary64)
  deriving DecidableEq, Repr

/-- A value, as far as it is well formed. -/
inductive Value where
  /-- The null value. -/
  | null
  /-- A truth value. -/
  | boolean (truth : Bool)
  /-- A number. -/
  | number (number : Number)
  /-- A text. -/
  | text (content : String)
  /-- A text or a number that is written well but stands for none. -/
  | unsound
  /-- Values between brackets, and whether the closing bracket was found. -/
  | array (elements : List Value) (closed : Bool)
  /-- Values under keys, and whether the closing brace was found. A key that stands
  for no text has no name. -/
  | object (members : List (Option String × Value)) (closed : Bool)
  /-- Something that is no value. -/
  | malformed

end FlameFold.Json
