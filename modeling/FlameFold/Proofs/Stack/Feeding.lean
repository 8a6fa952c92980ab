import FlameFold.Proofs.Stack.Reading
import FlameFold.Proofs.Text.Blank
import FlameFold.Proofs.Text.Pieces

/-!
# Dumps fed in portions

A folder may be given a dump all at once, line by line, or in portions of both kinds. Where
the newlines between the portions are those of the dump, all of this comes to the same. The
reading of a text as lines, which has no line after a last newline and takes a carriage return
as part of the newline, also comes to the same once an empty line closes it.
-/

namespace FlameFold.Stack

namespace Folder

variable {lines others : List String} {line other : String}

/-- Reading lines does not change the event. -/
theorem foldl_feedLine_event (lines : List String) (folder : Folder) :
    (lines.foldl feedLine folder).event = folder.event := by
  induction lines generalizing folder with
  | nil => rfl
  | cons line rest ih => rw [List.foldl_cons, ih, feedLine_event]

/-- A line is read without the white space around it. -/
theorem feedLine_congr (folder : Folder) (h : Text.trim line = Text.trim other) :
    folder.feedLine line = folder.feedLine other := by
  rw [feedLine, feedLine, LineKind.ofLine, LineKind.ofLine, h]

/-- Lines are read without the white space around them. -/
theorem foldl_feedLine_congr (folder : Folder)
    (h : lines.map Text.trim = others.map Text.trim) :
    lines.foldl feedLine folder = others.foldl feedLine folder := by
  induction lines generalizing others folder with
  | nil => rw [List.map_eq_nil_iff.mp h.symm]
  | cons line rest ih =>
    cases others with
    | nil => cases h
    | cons other more =>
      obtain ⟨hline, hrest⟩ := List.cons.inj h
      rw [List.foldl_cons, List.foldl_cons, feedLine_congr folder hline, ih _ hrest]

/-- Where a line has ended a sample, a further one that would end a sample changes nothing. -/
theorem feedLine_again (folder : Folder)
    (h : LineKind.ofLine folder.event line = .terminator)
    (hagain : LineKind.ofLine folder.event other = .terminator) :
    (folder.feedLine line).feedLine other = folder.feedLine line := by
  rw [← feedLine_event folder line] at hagain
  rw [feedLine_of_terminator hagain, feedLine_of_terminator h]
  rfl

/-- Before the first frame a line that ends a sample changes nothing. -/
theorem feedLine_new (event : String) (h : LineKind.ofLine event line = .terminator) :
    (new event).feedLine line = new event := by
  have hkind : LineKind.ofLine (new event).event line = .terminator := h
  rw [feedLine_of_terminator hkind]
  rfl

end Folder

/-- What a folder is given at once. -/
inductive Portion where
  /-- A single line, which has no newline. -/
  | line (alone : String) (closed : '\n' ∉ alone.toList)
  /-- A text of any number of lines. -/
  | dump (whole : String)

/-- The text of a portion. -/
def Portion.text : Portion → String
  | .line alone _ => alone
  | .dump whole => whole

namespace Folder

/-- Read a portion in its own way. -/
def take (folder : Folder) : Portion → Folder
  | .line alone _ => folder.feedLine alone
  | .dump whole => folder.feed whole

/-- A line is read as the text that it is. -/
theorem take_eq_feed (folder : Folder) (portion : Portion) :
    folder.take portion = folder.feed portion.text := by
  cases portion with
  | line alone closed =>
    rw [Portion.text, feed, Text.pieces_eq_singleton closed, List.foldl_cons, List.foldl_nil, take]
  | dump whole => rfl

/-- Portions are read as the pieces that they have, one portion after the other. -/
theorem foldl_take (portions : List Portion) (folder : Folder) :
    portions.foldl take folder =
      ((portions.map Portion.text).flatMap Text.pieces).foldl feedLine folder := by
  induction portions generalizing folder with
  | nil => rfl
  | cons portion rest ih =>
    rw [List.foldl_cons, ih, take_eq_feed, feed, ← List.foldl_append]
    rfl

end Folder

/-- Texts with newlines between them fold as their pieces are read, one text after the other.
No text at all is one empty line, which comes to reading nothing. -/
theorem fold_intercalate (texts : List String) (event : String) :
    fold ("\n".intercalate texts) event =
      ((texts.flatMap Text.pieces).foldl Folder.feedLine (Folder.new event)).finish := by
  rw [fold, Folder.feed]
  by_cases hne : texts = []
  · have hempty : (Folder.new event).feedLine "" = Folder.new event :=
      Folder.feedLine_new event (LineKind.ofLine_empty event)
    have hpieces : Text.pieces ("\n".intercalate []) = [""] := by decide
    rw [hne, hpieces, List.foldl_cons, hempty]
    rfl
  · rw [Text.pieces_intercalate hne]

/-- Texts whose pieces differ in the white space around them fold alike. -/
theorem fold_congr {text other : String} (event : String)
    (h : (Text.pieces text).map Text.trim = (Text.pieces other).map Text.trim) :
    fold text event = fold other event := by
  rw [fold, fold, Folder.feed, Folder.feed, Folder.foldl_feedLine_congr _ h]

/-- A newline at the end is one more empty line. -/
theorem fold_newline (text event : String) :
    fold (text ++ "\n") event = (((Folder.new event).feed text).feedLine "").finish := by
  have hpieces := Text.pieces_newline text ""
  have hempty : Text.pieces "" = [""] := by decide
  rw [String.append_empty, hempty] at hpieces
  rw [fold, Folder.feed, hpieces, List.foldl_append]
  rfl

/-- However a dump is cut into portions at its newlines, reading them one after the other
comes to folding it at once. Reading its lines and then an empty one comes to folding it with
one more newline. -/
theorem fold_portions (event : String) :
    (∀ portions : List Portion, (portions.foldl Folder.take (Folder.new event)).finish =
        fold ("\n".intercalate (portions.map Portion.text)) event) ∧
      ∀ text : String,
        (((Text.lines text).foldl Folder.feedLine (Folder.new event)).feedLine "").finish =
          fold (text ++ "\n") event := by
  refine ⟨fun portions => ?_, fun text => ?_⟩
  · rw [fold_intercalate, Folder.foldl_take]
  · rw [fold_newline]
    rcases Text.trim_lines text with hlines | hlines
    · rw [Folder.foldl_feedLine_congr _ hlines, Folder.feed]
    · -- the last piece is empty, and the line that closes the lines stands for it
      have hclosed : (Text.lines text ++ [""]).map Text.trim =
          (Text.pieces text).map Text.trim := by
        have htrim : Text.trim "" = "" := by decide
        rw [List.map_append, List.map_singleton, htrim, hlines]
      have hend : LineKind.ofLine ((Text.lines text).foldl Folder.feedLine
          (Folder.new event)).event "" = .terminator := LineKind.ofLine_empty _
      rw [Folder.feed, ← Folder.foldl_feedLine_congr _ hclosed, List.foldl_append,
        List.foldl_cons, List.foldl_nil, Folder.feedLine_again _ hend hend]

/-- A sample may begin as a line alone and go on in a portion of several lines, and the other way
round. -/
example :
    ([.line "b" (by decide), .dump "a\n\nb", .line "a" (by decide), .dump "\nc\n"].foldl
        Folder.take (Folder.new "event")).finish.table.toList =
      [⟨"a;b", 2⟩, ⟨"c", 1⟩] := by
  rw [Folder.foldl_take, ← fold_intercalate, fold_eq_tallied]
  decide +kernel

end FlameFold.Stack
