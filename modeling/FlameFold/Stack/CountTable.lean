import Std.Data.HashMap

/-!
# Counted stacks

A table of stacks, each with the number of its samples, in the order in which
the stacks were first seen. An index gives the place of a stack, so that counting
one more sample does not search the table.
-/

namespace FlameFold.Stack

/-- A stack and the number of samples that have it. -/
structure Entry where
  /-- The frames from the root to the leaf, joined by semicolons. -/
  signature : String
  /-- The number of samples with exactly this signature. -/
  count : Nat
  deriving DecidableEq, Repr

/-- The collapsed form of an entry: the signature, a space and the count. -/
def Entry.line (entry : Entry) : String :=
  entry.signature ++ " " ++ Nat.repr entry.count

/-- The same stack with one more sample. -/
def Entry.more (entry : Entry) : Entry :=
  { entry with count := entry.count + 1 }

/-- Stacks with their counts, in the order of their first samples. -/
structure CountTable where
  /-- The counted stacks, the first seen one first. -/
  entries : Array Entry
  /-- The place of each signature among the entries. -/
  index : Std.HashMap String Nat

namespace CountTable

/-- The table with no stack. -/
def empty : CountTable := ⟨#[], ∅⟩

/-- Count one more sample. A sample without frames is not counted. -/
def increment (table : CountTable) (signature : String) : CountTable :=
  if signature.isEmpty then table
  else match table.index[signature]? with
    | some place => { table with entries := table.entries.modify place Entry.more }
    | none =>
      { entries := table.entries.push ⟨signature, 1⟩
        index := table.index.insert signature table.entries.size }

/-- Count a sample of each signature in turn. -/
def incrementAll (table : CountTable) (signatures : List String) : CountTable :=
  signatures.foldl increment table

/-- The count of a signature, if it has been seen. -/
def get? (table : CountTable) (signature : String) : Option Nat := do
  let place ← table.index[signature]?
  let entry ← table.entries[place]?
  return entry.count

/-- The number of distinct stacks. -/
def size (table : CountTable) : Nat := table.entries.size

/-- Whether no stack has been counted. -/
def isEmpty (table : CountTable) : Bool := table.entries.isEmpty

/-- The counted stacks in the order of their first samples. -/
def toList (table : CountTable) : List Entry := table.entries.toList

/-- The number of samples of all stacks. -/
def totalSamples (table : CountTable) : Nat :=
  table.toList.foldl (fun total entry => total + entry.count) 0

/-- The entries by descending count; of equal counts, the stack seen first comes
first. -/
def sorted (table : CountTable) : List Entry :=
  table.toList.mergeSort fun a b => b.count ≤ a.count

end CountTable

end FlameFold.Stack
