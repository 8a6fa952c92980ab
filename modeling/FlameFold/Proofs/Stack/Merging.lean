import FlameFold.Proofs.Stack.Reading
import FlameFold.Proofs.Text.Pieces

/-!
# Dumps folded in pieces

A dump may be cut at a line of dashes and its two pieces folded apart. The merge of what they
fold to is what the whole dump folds to: the stacks of the first piece keep their places and
gain the samples that the second piece has of them, and the other stacks of the second piece
follow in their order.
-/

namespace FlameFold.Stack

/-- The same stack with so many more samples. -/
def Entry.gain (entry : Entry) (more : Nat) : Entry :=
  { entry with count := entry.count + more }

/-- What is counted first keeps its place, and what is counted only later comes after it. -/
theorem tally_append (earlier later : List String) :
    tally (earlier ++ later) =
      (tally earlier).map (fun entry => entry.gain (later.count entry.signature)) ++
        (tally later).filter fun entry => entry.signature ∉ earlier := by
  have hnew : (later.removeAll earlier).eraseDups =
      later.eraseDups.filter fun signature => signature ∉ earlier := by
    rw [← eraseDups_filter]
    simp [List.removeAll]
  rw [tally, List.eraseDups_append, hnew, List.map_append]
  congr 1
  · rw [tally, List.map_map]
    refine List.map_congr_left fun signature _ => ?_
    simp [Entry.gain, List.count_append]
  · rw [tally, List.filter_map]
    refine List.map_congr_left fun signature hsignature => ?_
    have hunseen : signature ∉ earlier := by simpa using (List.mem_filter.mp hsignature).2
    simp [List.count_append, List.count_eq_zero_of_not_mem hunseen]

namespace CountTable

variable {first second whole : CountTable} {earlier later : List String}

/-- The entries of two tables as one. The entries of the first table gain the counts of the
second one, and those of the second one that the first one lacks follow. -/
def merged (first second : CountTable) : List Entry :=
  (first.toList.map fun entry => entry.gain ((second.get? entry.signature).getD 0)) ++
    second.toList.filter fun entry => (first.get? entry.signature).isNone

/-- The number of samples that a table has of a signature, 0 if it lacks it. -/
theorem Tallies.get?_getD (h : whole.Tallies later) (signature : String) :
    (whole.get? signature).getD 0 = later.count signature := by
  rw [h.get?_eq]
  split
  · rfl
  · next hnew => exact (List.count_eq_zero_of_not_mem hnew).symm

/-- A table lacks what has not been counted. -/
theorem Tallies.get?_isNone (h : whole.Tallies earlier) (signature : String) :
    (whole.get? signature).isNone = decide (signature ∉ earlier) := by
  rw [h.get?_eq]
  split <;> simp_all

/-- Counting in one table what has been counted in two merges them. -/
theorem Tallies.toList_append (hfirst : first.Tallies earlier) (hsecond : second.Tallies later)
    (h : whole.Tallies (earlier ++ later)) : whole.toList = first.merged second := by
  rw [h.entries, tally_append, ← hfirst.entries, ← hsecond.entries, merged]
  simp only [hsecond.get?_getD, hfirst.get?_isNone]

/-- What is found in one table is what is found in the two together. -/
theorem Tallies.get?_append (hfirst : first.Tallies earlier) (hsecond : second.Tallies later)
    (h : whole.Tallies (earlier ++ later)) (signature : String) :
    whole.get? signature =
      Option.merge (· + ·) (first.get? signature) (second.get? signature) := by
  rw [h.get?_eq, hfirst.get?_eq, hsecond.get?_eq, List.count_append]
  by_cases hearlier : signature ∈ earlier <;> by_cases hlater : signature ∈ later
  · simp [hearlier, hlater, Option.merge]
  · simp [hearlier, hlater, Option.merge, List.count_eq_zero_of_not_mem hlater]
  · simp [hearlier, hlater, Option.merge, List.count_eq_zero_of_not_mem hearlier]
  · simp [hearlier, hlater, Option.merge]

end CountTable

section

variable (kinds more : List LineKind)

/-- A line that ends a sample parts the groups before it from those after it. -/
theorem groups_append_terminator :
    groups (kinds ++ .terminator :: more) = groups kinds ++ groups more := by
  simp [groups, List.splitOn_append_cons_self]

/-- A line that ends a sample parts the samples before it, which are all closed, from those
after it. -/
theorem samples_append_terminator :
    samples (kinds ++ .terminator :: more) =
      samples (kinds ++ [.terminator]) ++ samples more := by
  have hclosed : (groups (kinds ++ [.terminator])).dropLast = groups kinds := by
    rw [groups_append_terminator, groups_nil, List.dropLast_concat]
  rw [samples, samples, samples, hclosed, groups_append_terminator,
    List.dropLast_append_of_ne_nil (groups_ne_nil more), List.filter_append]

/-- It parts their signatures as well. -/
theorem signatures_append_terminator :
    signatures (kinds ++ .terminator :: more) =
      signatures (kinds ++ [.terminator]) ++ signatures more := by
  rw [signatures, signatures, signatures, samples_append_terminator, List.map_append]

/-- Only what comes after the last line that ends a sample is unclosed. -/
theorem unclosed_append_terminator :
    unclosed (kinds ++ .terminator :: more) = unclosed more := by
  rw [unclosed, unclosed, groups_append_terminator,
    List.getLast?_append_of_ne_nil _ (groups_ne_nil more)]

end

section

variable (first second event : String)

/-- The lines of two texts with a newline between them. -/
theorem lineKinds_newline :
    lineKinds (first ++ "\n" ++ second) event =
      lineKinds first event ++ lineKinds second event := by
  rw [lineKinds, Text.pieces_newline, List.map_append]
  rfl

/-- A newline at the end is an empty line more, which ends a sample. -/
theorem lineKinds_closed :
    lineKinds (first ++ "\n") event = lineKinds first event ++ [.terminator] := by
  have hempty : lineKinds "" event = [.terminator] := by
    rw [lineKinds, Text.pieces_eq_singleton (by decide), List.map_singleton,
      LineKind.ofLine_empty]
  have hlines := lineKinds_newline first "" event
  rwa [String.append_empty, hempty] at hlines

/-- A line of dashes between two texts ends a sample, whatever the event. -/
theorem lineKinds_dashed :
    lineKinds (first ++ "\n---\n" ++ second) event =
      lineKinds first event ++ .terminator :: lineKinds second event := by
  have htrim : Text.trim "---" = "---" := by decide
  have hbegins : Text.beginsWith "---" "---" = true := by decide
  have hdashes : lineKinds "---" event = [.terminator] := by
    rw [lineKinds, Text.pieces_eq_singleton (by decide), List.map_singleton]
    simp [LineKind.ofLine, LineKind.ofTrimmed, htrim, hbegins]
  have htext : "\n---\n" = "\n" ++ "---" ++ "\n" := by decide
  rw [htext, ← String.append_assoc, ← String.append_assoc, lineKinds_newline, lineKinds_newline,
    hdashes, List.append_assoc, List.singleton_append]

/-- The samples of two texts with a line of dashes between them are those of the first one,
with a last newline, and those of the second one. -/
theorem signatures_dashed :
    signatures (lineKinds (first ++ "\n---\n" ++ second) event) =
      signatures (lineKinds (first ++ "\n") event) ++ signatures (lineKinds second event) := by
  rw [lineKinds_dashed, lineKinds_closed, signatures_append_terminator]

end

/-- Two texts with a line of dashes between them fold to the merge of what the first one, with
a last newline, and the second one fold to. -/
theorem fold_merges (first second event : String) :
    let earlier := fold (first ++ "\n") event
    let later := fold second event
    let whole := fold (first ++ "\n---\n" ++ second) event
    whole.table.toList = earlier.table.merged later.table ∧
      (∀ signature, whole.table.get? signature =
        Option.merge (· + ·) (earlier.table.get? signature) (later.table.get? signature)) ∧
      whole.table.totalSamples = earlier.table.totalSamples + later.table.totalSamples ∧
      whole.pending = later.pending := by
  intro earlier later whole
  have hearlier := fold_tallies (first ++ "\n") event
  have hlater := fold_tallies second event
  have hwhole := fold_tallies (first ++ "\n---\n" ++ second) event
  rw [signatures_dashed] at hwhole
  refine ⟨hearlier.toList_append hlater hwhole, hearlier.get?_append hlater hwhole, ?_, ?_⟩
  · rw [hwhole.totalSamples_eq, hearlier.totalSamples_eq, hlater.totalSamples_eq,
      List.length_append]
  · rw [(fold_eq _ event).2, (fold_eq second event).2, lineKinds_dashed,
      unclosed_append_terminator]

/-- The second half has the stack of the first one again, between two of its own. The sample that
the first half breaks off in is closed by the dashes, the one at the end stays pending. -/
example :
    (fold "b\na\n\nd\n" "event").table.toList = [⟨"a;b", 1⟩, ⟨"d", 1⟩] ∧
      (fold "c\n\nb\na\n\ne" "event").table.toList = [⟨"c", 1⟩, ⟨"a;b", 1⟩] ∧
      (fold "b\na\n\nd\n---\nc\n\nb\na\n\ne" "event").table.toList =
        [⟨"a;b", 2⟩, ⟨"d", 1⟩, ⟨"c", 1⟩] ∧
      (fold "b\na\n\nd\n---\nc\n\nb\na\n\ne" "event").pending = 1 := by
  rw [fold_eq_tallied]
  decide +kernel

end FlameFold.Stack
