import FlameFold.Decimal.Binary64

/-!
# Values of a settings document

A document in the TOML format is a table: values under keys, in the order in which
the keys were written.
-/

namespace FlameFold.Toml

/-- How a table came to be, which decides what may still be added to it. -/
inductive Origin where
  /-- Written between braces: nothing may be added. -/
  | closed
  /-- Opened by a header of its own. -/
  | header
  /-- Named on the way to a table with a header, and not opened itself yet. -/
  | implied
  /-- Named by a dotted key. -/
  | dotted
  deriving DecidableEq, Repr

/-- A value of a document. -/
inductive Value where
  /-- A text. -/
  | text (content : String)
  /-- A whole number. -/
  | integer (number : Int)
  /-- A number with a fraction, or infinite, or no number. -/
  | float (number : Decimal.Binary64)
  /-- A truth value. -/
  | boolean (truth : Bool)
  /-- A date, a time, or both, as written. -/
  | moment (written : String)
  /-- Values between brackets. -/
  | array (elements : List Value)
  /-- Tables that share a header; the last one is still open. -/
  | tables (elements : List (List (String × Value)))
  /-- A table. -/
  | table (origin : Origin) (entries : List (String × Value))

/-- Values under keys, in order. -/
abbrev Entries := List (String × Value)

namespace Entries

/-- The value under a key. -/
def get? (entries : Entries) (key : String) : Option Value := entries.lookup key

/-- Put a value in the place of the one under a key. -/
def replace (entries : Entries) (key : String) (value : Value) : Entries :=
  entries.map fun entry => if entry.1 = key then (key, value) else entry

/-- Drop the value under a key. -/
def erase (entries : Entries) (key : String) : Entries :=
  entries.filter fun entry => entry.1 ≠ key

/-- Add a value under a new key, after the others. -/
def append (entries : Entries) (key : String) (value : Value) : Entries :=
  entries ++ [(key, value)]

end Entries

end FlameFold.Toml
