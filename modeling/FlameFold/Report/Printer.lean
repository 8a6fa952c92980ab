import FlameFold.Json.Printer
import FlameFold.Report.Basic

/-!
# Printing a report

The fields of a report in a fixed order; what an entry does not have is left out.
-/

namespace FlameFold.Report

/-- A member, if there is a value for it. -/
def member (key : String) (value : Option Json.Tree) : List (String × Json.Tree) :=
  (value.map fun value => (key, value)).toList

variable {π ε : Type}

/-- A path as a JSON value, if it can be spelled out. -/
def pathTree (spell : π → Except ε Path) (p : π) : Json.Tree :=
  match spell p with
  | .ok spelled => .text spelled.text
  | .error _ => .unprintable

/-- An entry as a JSON value. -/
def Entry.tree (spell : π → Except ε Path) (entry : Entry π) : Json.Tree :=
  .object <|
    [("label", .text entry.label), ("recording", pathTree spell entry.recording),
      ("outcome", .text entry.outcome)] ++
    member "unique_stacks" (entry.uniqueStacks.map fun n => .number n.toNat) ++
    member "total_samples" (entry.totalSamples.map fun n => .number n.toNat) ++
    member "collapsed" (entry.collapsed.map (pathTree spell)) ++
    member "svg" (entry.graphic.map (pathTree spell)) ++
    member "error" (entry.error.map .text)

/-- A report as a JSON value. -/
def tree (spell : π → Except ε Path) (report : Report π) : Json.Tree :=
  .object
    [("version", .text report.version), ("generated_at", .text report.generatedAt),
      ("recordings", .array (report.recordings.map (Entry.tree spell))),
      ("flamegraphs", .array (report.graphics.map (pathTree spell)))]

/-- What is printed of a report before the first path that cannot be spelled out. -/
def begun (spell : π → Except ε Path) (report : Report π) : String := (report.tree spell).begun

/-- The text of a report whose paths are texts. -/
def render (report : Report Path) : String := (report.tree Path.spell).render

end FlameFold.Report
