import FlameFold.Toml.Value

/-!
# Building tables

Each key of a document adds one value, and each header opens one table. What is
already there decides whether that is allowed: no key is given twice, no table is
opened twice, and dotted keys and headers do not share a table.
-/

namespace FlameFold.Toml

namespace Entries

/-- Change the table that a path leads to; `change` learns how that table came to be.
Tables that are missing on the way are made; of tables that share a header the last
one is entered. A dotted path enters only tables that no header has opened. -/
def amend (dotted : Bool) (change : Origin → Entries → Option Entries) :
    List String → Origin → Entries → Option Entries
  | [], origin, entries => change origin entries
  | key :: path, _, entries =>
    match entries.get? key with
    | none => do
      let origin := if dotted then Origin.dotted else .implied
      let inner ← amend dotted change path origin []
      return entries.append key (.table origin inner)
    | some (.table origin inner) =>
      if origin = .closed ∨ (dotted ∧ origin = .header) then none
      else do
        let inner ← amend dotted change path origin inner
        return entries.replace key (.table origin inner)
    | some (.tables elements) =>
      match elements.getLast? with
      | none => none
      | some last => do
        let last ← amend dotted change path .header last
        return entries.replace key (.tables (elements.dropLast ++ [last]))
    | some _ => none

/-- Add a value under a key whose last part is `key` and whose other parts lead to the
table for it. -/
def set (path : List String) (key : String) (value : Value) (entries : Entries) :
    Option Entries :=
  entries.amend true (fun origin inner =>
    -- a table made by dotted keys takes only dotted keys, and any other none of them
    if (origin == .dotted) == path.isEmpty then none
    else if (inner.get? key).isSome then none
    else some (inner.append key value)) path .header

/-- Open the table with the header `path`, `key`. A table that has only been named on
the way to others moves to the end. -/
def openTable (path : List String) (key : String) (entries : Entries) : Option Entries :=
  entries.amend false (fun _ inner =>
    match inner.get? key with
    | none => some (inner.append key (.table .header []))
    | some (.table .implied content) =>
      some ((inner.erase key).append key (.table .header content))
    | some _ => none) path .header

/-- Open one more of the tables that share the header `path`, `key`. -/
def openElement (path : List String) (key : String) (entries : Entries) : Option Entries :=
  entries.amend false (fun _ inner =>
    match inner.get? key with
    | none => some (inner.append key (.tables [[]]))
    | some (.tables elements) => some (inner.replace key (.tables (elements ++ [[]])))
    | some _ => none) path .header

/-- Add a value to the table that the header `header` has opened. -/
def setUnder (header path : List String) (key : String) (value : Value) (entries : Entries) :
    Option Entries :=
  entries.amend false (fun _ inner => inner.set path key value) header .header

end Entries

end FlameFold.Toml
