import FlameFold.Proofs.Stack.Feeding
import Mathlib.Logic.Relation

/-!
# Noise in a dump

White space around a line, lines that are ignored, and further lines beside one that ends a
sample say nothing about the samples of a dump. Any number of them may come and go anywhere,
also in the middle of a sample and at both ends of the dump; the dump folds to the same. So it
makes no difference whether its newlines have carriage returns before them.
-/

namespace FlameFold.Stack

/-- One piece of noise that comes to the lines of a dump. -/
inductive Noise (event : String) : List String → List String → Prop where
  /-- White space at either end of a line. -/
  | space (earlier later : List String) (left line right : String)
      (hleft : Text.isBlankText left = true) (hright : Text.isBlankText right = true) :
      Noise event (earlier ++ line :: later) (earlier ++ (left ++ line ++ right) :: later)
  /-- A line that is ignored. -/
  | ignored (earlier later : List String) (line : String)
      (hline : LineKind.ofLine event line = .ignored) :
      Noise event (earlier ++ later) (earlier ++ line :: later)
  /-- A line that would end a sample, directly before a line that does. -/
  | before (earlier later : List String) (line last : String)
      (hline : LineKind.ofLine event line = .terminator)
      (hlast : LineKind.ofLine event last = .terminator) :
      Noise event (earlier ++ last :: later) (earlier ++ line :: last :: later)
  /-- A line that would end a sample, directly after a line that does. -/
  | after (earlier later : List String) (line last : String)
      (hline : LineKind.ofLine event line = .terminator)
      (hlast : LineKind.ofLine event last = .terminator) :
      Noise event (earlier ++ last :: later) (earlier ++ last :: line :: later)

namespace Folder

variable {folder : Folder} {line last : String} {lines noisy : List String}

/-- All lines that end samples do the same. -/
theorem feedLine_terminators (h : LineKind.ofLine folder.event line = .terminator)
    (hlast : LineKind.ofLine folder.event last = .terminator) :
    folder.feedLine line = folder.feedLine last := by
  rw [feedLine_of_terminator h, feedLine_of_terminator hlast]

/-- One piece of noise changes nothing, whatever has been read before. -/
theorem foldl_feedLine_noise {event : String} (h : Noise event lines noisy)
    (hevent : folder.event = event) :
    noisy.foldl feedLine folder = lines.foldl feedLine folder := by
  subst hevent
  -- what stands before the noise is read alike, and the event is then still the same
  have hsame : ∀ earlier : List String, (earlier.foldl feedLine folder).event = folder.event :=
    fun earlier => foldl_feedLine_event earlier folder
  cases h with
  | space earlier later left line right hleft hright =>
    rw [List.foldl_append, List.foldl_append, List.foldl_cons, List.foldl_cons,
      feedLine_congr _ (Text.trim_padded hleft hright line)]
  | ignored earlier later line hline =>
    rw [← hsame earlier] at hline
    rw [List.foldl_append, List.foldl_append, List.foldl_cons, feedLine_of_ignored hline]
  | before earlier later line last hline hlast =>
    rw [← hsame earlier] at hline hlast
    rw [List.foldl_append, List.foldl_append, List.foldl_cons, List.foldl_cons, List.foldl_cons,
      feedLine_again _ hline hlast, feedLine_terminators hline hlast]
  | after earlier later line last hline hlast =>
    rw [← hsame earlier] at hline hlast
    rw [List.foldl_append, List.foldl_append, List.foldl_cons, List.foldl_cons, List.foldl_cons,
      feedLine_again _ hlast hline]

/-- Any noise that comes and goes changes nothing. -/
theorem foldl_feedLine_noises {event : String} (h : Relation.EqvGen (Noise event) lines noisy)
    (hevent : folder.event = event) :
    noisy.foldl feedLine folder = lines.foldl feedLine folder := by
  induction h with
  | rel lines noisy hnoise => exact foldl_feedLine_noise hnoise hevent
  | refl lines => rfl
  | symm lines noisy _ ih => exact ih.symm
  | trans lines between noisy _ _ ih ih' => exact ih'.trans ih

end Folder

/-- A dump folds as it does without noise: whatever noise comes and goes at its lines, the text
of the lines that there are then folds to the same. With carriage returns before all of its
newlines it also folds to the same. -/
theorem fold_noise (text event : String) :
    (∀ lines : List String, Relation.EqvGen (Noise event) (Text.pieces text) lines →
        (∀ line ∈ lines, '\n' ∉ line.toList) →
        fold ("\n".intercalate lines) event = fold text event) ∧
      fold ("\r\n".intercalate (Text.pieces text)) event = fold text event := by
  constructor
  · intro lines hnoise hlines
    have hone : ∀ line ∈ lines, Text.pieces line = [line] := fun line hline =>
      Text.pieces_eq_singleton (hlines line hline)
    rw [fold_intercalate, List.flatMap_congr hone, List.flatMap_singleton',
      Folder.foldl_feedLine_noises hnoise rfl]
    rfl
  · have hlines : ∀ line ∈ Text.pieces text, '\n' ∉ line.toList := fun line =>
      Text.notMem_of_mem_pieces
    rw [fold_congr event (Text.trim_pieces_returns hlines), Text.intercalate_pieces]

/-- A dump with one sample of two frames. -/
def quietDump : String := "b\na\n\n"

/-- The lines of this dump with noise of each kind, also between its frames. -/
def noisyLines : List String := ["\u2003b\r", "null", "a", "---", "", "", "event 2"]

/-- With the noise the dump still folds to its one sample. -/
theorem fold_noise_quiet :
    Relation.EqvGen (Noise "event") (Text.pieces quietDump) noisyLines ∧
      (∀ line ∈ noisyLines, '\n' ∉ line.toList) ∧
      fold ("\n".intercalate noisyLines) "event" = fold quietDump "event" ∧
      fold "b\r\na\r\n\r\n" "event" = fold quietDump "event" ∧
      (fold quietDump "event").table.get? "a;b" = some 1 := by
  have hpieces : Text.pieces quietDump = ["b", "a", "", ""] := by decide +kernel
  have hspace : Noise "event" ["b", "a", "", ""] ["\u2003b\r", "a", "", ""] :=
    .space [] ["a", "", ""] "\u2003" "b" "\r" (by decide) (by decide)
  have hignored : Noise "event" ["\u2003b\r", "a", "", ""] ["\u2003b\r", "null", "a", "", ""] :=
    .ignored ["\u2003b\r"] ["a", "", ""] "null" (by decide)
  have hbefore : Noise "event" ["\u2003b\r", "null", "a", "", ""]
      ["\u2003b\r", "null", "a", "---", "", ""] :=
    .before ["\u2003b\r", "null", "a"] [""] "---" "" (by decide) (by decide)
  have hafter : Noise "event" ["\u2003b\r", "null", "a", "---", "", ""] noisyLines :=
    .after ["\u2003b\r", "null", "a", "---", ""] [] "event 2" "" (by decide) (by decide)
  have hnoise : Relation.EqvGen (Noise "event") (Text.pieces quietDump) noisyLines := by
    rw [hpieces]
    exact .trans _ _ _ (.rel _ _ hspace) <| .trans _ _ _ (.rel _ _ hignored) <|
      .trans _ _ _ (.rel _ _ hbefore) (.rel _ _ hafter)
  have hlines : ∀ line ∈ noisyLines, '\n' ∉ line.toList := by decide
  obtain ⟨hnoisy, hreturns⟩ := fold_noise quietDump "event"
  have htext : "\r\n".intercalate (Text.pieces quietDump) = "b\r\na\r\n\r\n" := by
    rw [hpieces]
    decide
  refine ⟨hnoise, hlines, hnoisy noisyLines hnoise hlines, htext ▸ hreturns, ?_⟩
  rw [(fold_tallies quietDump "event").get?_eq]
  decide +kernel

end FlameFold.Stack
