import FlameFold.Conversion.Run
import FlameFold.Proofs.Stack.Merging
import FlameFold.Proofs.Text.Blank

/-!
# Event headers

A line that begins with the name of the sampled event ends a sample. The line is trimmed before
it is compared and the name is not, so a name with white space around it is not found in every
line that has it: white space at its front is never found, and white space at its end only where
something else follows. The dump tool is given the same name.
-/

namespace FlameFold.Stack

variable {event line : String}

/-- A line closes the sample that it stands in and is no part of any sample. -/
structure Closes (event line : String) : Prop where
  /-- Whatever has been read, the frames held are counted as a sample, and none is held any
  more. -/
  step : ∀ folder : Folder, folder.event = event →
    folder.feedLine line = ⟨event, .idle,
      if folder.sample.frames = [] then folder.table
      else folder.table.increment (signature folder.sample.frames)⟩
  /-- Wherever it stands in a dump, the samples are those of the lines before it, the last one
  closed, and those of the lines after it. -/
  dump : ∀ text before after, Text.pieces text = before ++ line :: after →
    samples (lineKinds text event) =
        samples (before.map (LineKind.ofLine event) ++ [.terminator]) ++
          samples (after.map (LineKind.ofLine event)) ∧
      unclosed (lineKinds text event) = unclosed (after.map (LineKind.ofLine event))

/-- The lines that close samples are those that are read as such. -/
theorem closes_iff : Closes event line ↔ LineKind.ofLine event line = .terminator := by
  constructor
  · intro h
    -- a line of another kind leaves the folder with the frame that it holds
    have hidle := congrArg Folder.sample
      (h.step { Folder.new event with sample := .accumulating [""] } rfl)
    rw [Folder.feedLine] at hidle
    cases hkind : LineKind.ofLine event line with
    | terminator => rfl
    | ignored =>
      simp only [Folder.new, hkind] at hidle
      cases hidle
    | frame frame =>
      simp only [Folder.new, hkind] at hidle
      cases hidle
  · intro h
    constructor
    · rintro folder rfl
      exact Folder.feedLine_of_terminator h
    · intro text before after hpieces
      have hkinds : lineKinds text event = before.map (LineKind.ofLine event) ++
          .terminator :: after.map (LineKind.ofLine event) := by
        rw [lineKinds, hpieces, List.map_append, List.map_cons, h]
      rw [hkinds]
      exact ⟨samples_append_terminator _ _, unclosed_append_terminator _ _⟩

/-- A line with text closes samples if it begins with dashes or with the name of the event. -/
theorem closes_iff_beginsWith (hline : Text.isBlankText line = false) (hevent : event ≠ "") :
    Closes event line ↔ Text.beginsWith "---" (Text.trim line) = true ∨
      Text.beginsWith event (Text.trim line) = true := by
  have hfull : (Text.trim line).isEmpty = false := by
    rw [Bool.eq_false_iff, ne_eq, String.isEmpty_iff, Text.trim_eq_empty_iff, hline]
    decide
  have hnamed : event.isEmpty = false := by
    rw [Bool.eq_false_iff, ne_eq, String.isEmpty_iff]
    exact hevent
  rw [closes_iff, LineKind.ofLine, LineKind.ofTrimmed, hfull, hnamed]
  simp only [Bool.false_or, Bool.not_false, Bool.true_and, Bool.or_eq_true]
  split_ifs with hend hignored
  · simpa using hend
  · simpa using hend
  · simpa using hend

/-- The event of settings that a run can start with has a name. -/
theorem event_of_validate {settings : Settings} (h : settings.validate = .ok ()) :
    Text.isBlankText settings.event = false := by
  unfold Settings.validate at h
  split_ifs at h with hnone hblank
  simpa using hblank

section

variable {settings : Settings} {indent : String}

/-- The dump tool is asked for the event by its name as it is given. An indented line of this
name, with any text after it, closes the sample that it stands in if no white space stands around
the name. If some does, the line still closes the sample where the white space is only at the end
of the name and more than white space follows it, or where the line begins with dashes, and in no
other case. -/
theorem event_line_closes (hvalid : settings.validate = .ok ()) (path : Path)
    (hindent : Text.isBlankText indent = true) (rest : String) :
    ["--events", settings.event] <:+:
        (Conversion.dumpRequest settings path).invocation.arguments ∧
      (Text.trim settings.event = settings.event →
        Closes settings.event (indent ++ settings.event ++ rest)) ∧
      (Closes settings.event (indent ++ settings.event ++ rest) ↔
        Text.beginsWith "---" (Text.trim (settings.event ++ rest)) = true ∨
          Text.Flush settings.event ∧
            (Text.trim settings.event = settings.event ∨ Text.isBlankText rest = false)) := by
  have hevent := event_of_validate hvalid
  have hname : settings.event ≠ "" := by
    intro hempty
    rw [hempty] at hevent
    exact absurd hevent (by decide)
  have hline : Text.isBlankText (indent ++ settings.event ++ rest) = false := by
    rw [Text.isBlankText] at hevent ⊢
    rw [String.toList_append, String.toList_append, List.all_append, List.all_append, hevent,
      Bool.and_false, Bool.false_and]
  have hdashes : Text.trim (indent ++ settings.event ++ rest) =
      Text.trim (settings.event ++ rest) := by
    have hpadded := Text.trim_padded hindent (by decide : Text.isBlankText "" = true)
      (settings.event ++ rest)
    rwa [String.append_empty, ← String.append_assoc] at hpadded
  have hcloses := closes_iff_beginsWith hline hname
  rw [Text.beginsWith_trim_iff hevent hindent, hdashes] at hcloses
  refine ⟨⟨["print"], _, rfl⟩, fun htrimmed => ?_, hcloses⟩
  exact hcloses.mpr (.inr ⟨Text.flush_of_trim htrimmed, .inl htrimmed⟩)

/-- The header of a sample, as it stands in a dump. -/
theorem event_line_closes_indented :
    Settings.standard.validate = .ok () ∧ Text.isBlankText "  " = true ∧
      Closes "jdk.ExecutionSample" "  jdk.ExecutionSample \x7b" := by
  have hvalid : Settings.standard.validate = .ok () := by decide +kernel
  have hindent : Text.isBlankText "  " = true := by decide
  obtain ⟨-, hcloses, -⟩ :=
    event_line_closes hvalid ⟨"app.jfr"⟩ hindent " \x7b"
  exact ⟨hvalid, hindent, hcloses (by decide +kernel)⟩

/-- A line of the event does not close its sample where white space stands before the name of the
event. -/
theorem spaced_event_not_closing :
    ¬∀ (settings : Settings) (indent rest : String), settings.validate = .ok () →
      Text.isBlankText indent = true →
        Closes settings.event (indent ++ settings.event ++ rest) := by
  intro h
  have hcloses := h { Settings.standard with event := " jdk.ExecutionSample" } "" " \x7b"
    (by decide +kernel) (by decide)
  have hkind := closes_iff.mp hcloses
  exact absurd hkind (by decide +kernel)

end

end FlameFold.Stack
