import FlameFold.Toml.Table

/-!
# Tables that grow line by line

Without dotted keys a value goes into the table of the last header, and tables that share a
header stand under one key after all others.
-/

namespace FlameFold.Toml

namespace Entries

/-- A value under a new key is added after the others. -/
theorem setUnder_top {entries : Entries} {key : String} (hnew : entries.get? key = none)
    (value : Value) : entries.setUnder [] [] key value = some (entries ++ [(key, value)]) := by
  simp [setUnder, amend, set, hnew, append]

/-- Tables that share a header, after entries with other keys. -/
def withTables (entries : Entries) (header : String) (tables : List Entries) : Entries :=
  entries ++ [(header, .tables tables)]

variable {entries : Entries} {header : String} (hheader : entries.get? header = none)
include hheader

/-- The tables are found under their header. -/
theorem get?_withTables (tables : List Entries) :
    (entries.withTables header tables).get? header = some (.tables tables) := by
  have hnone : entries.lookup header = none := hheader
  rw [get?, withTables, List.lookup_append, hnone]
  simp

/-- Other tables take the place of the tables under a header. -/
theorem replace_withTables (tables others : List Entries) :
    (entries.withTables header tables).replace header (.tables others) =
      entries.withTables header others := by
  have hother : ∀ entry ∈ entries, entry.1 ≠ header := by
    intro entry hentry hsame
    have hne := List.lookup_eq_none_iff.mp hheader entry hentry
    simp [hsame] at hne
  have hkept : entries.map (fun entry =>
      if entry.1 = header then (header, Value.tables others) else entry) = entries.map id :=
    List.map_congr_left fun entry hentry => if_neg (hother entry hentry)
  simp [replace, withTables, hkept]

/-- The first of the tables is opened. -/
theorem openElement_first :
    entries.openElement [] header = some (entries.withTables header [[]]) := by
  simp [openElement, amend, hheader, append, withTables]

/-- One more table is opened. -/
theorem openElement_more (tables : List Entries) :
    (entries.withTables header tables).openElement [] header =
      some (entries.withTables header (tables ++ [[]])) := by
  simp [openElement, amend, get?_withTables hheader, replace_withTables hheader]

/-- A value under a new key is added to the last of the tables. -/
theorem setUnder_last {table : Entries} {key : String} (hnew : table.get? key = none)
    (value : Value) (tables : List Entries) :
    (entries.withTables header (tables ++ [table])).setUnder [header] [] key value =
      some (entries.withTables header (tables ++ [table ++ [(key, value)]])) := by
  simp [setUnder, amend, set, get?_withTables hheader, replace_withTables hheader, hnew, append]

end Entries

end FlameFold.Toml
