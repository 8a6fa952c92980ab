import FlameFold.Proofs.Stack.Tally
import FlameFold.Stack.Folder
import Mathlib.Tactic.SplitIfs

/-!
# What a dump says

The lines of a dump, read as a whole: ignored lines are left out, the others are cut
at the lines that end samples, and every closed group of frames is one sample. The
folder, which sees one line at a time, counts exactly these samples.
-/

namespace FlameFold.Stack

/-- The frame that a line is, if it is one. -/
def LineKind.frame? : LineKind → Option String
  | .frame text => some text
  | _ => none

/-- What the lines of a dump mean, in their order. -/
def lineKinds (text event : String) : List LineKind :=
  (Text.pieces text).map (LineKind.ofLine event)

/-- The frames between the lines that end samples. The last group is the one that no
line ends. -/
def groups (kinds : List LineKind) : List (List String) :=
  ((kinds.filter (· ≠ .ignored)).splitOn .terminator).map fun group =>
    group.filterMap LineKind.frame?

/-- The samples of a dump, each with its frames from the leaf to the root: the closed
groups that have frames. -/
def samples (kinds : List LineKind) : List (List String) :=
  (groups kinds).dropLast.filter (· ≠ [])

/-- The frames after the last line that ends a sample. -/
def unclosed (kinds : List LineKind) : List String :=
  (groups kinds).getLast?.getD []

/-- The signatures of the samples, in the order in which the samples are closed. -/
def signatures (kinds : List LineKind) : List String :=
  (samples kinds).map fun frames => signature frames.reverse

theorem groups_nil : groups [] = [[]] := by
  simp [groups]

theorem groups_ne_nil (kinds : List LineKind) : groups kinds ≠ [] := by
  simp [groups]

/-- A line that ends a sample closes the first group. -/
theorem groups_terminator (kinds : List LineKind) :
    groups (.terminator :: kinds) = [] :: groups kinds := by
  simp [groups, List.splitOn_cons_eq_if_modifyHead]

/-- An ignored line changes no group. -/
theorem groups_ignored (kinds : List LineKind) :
    groups (.ignored :: kinds) = groups kinds := by
  simp [groups]

/-- A frame stands at the beginning of the first group. -/
theorem groups_frame (frame : String) (kinds : List LineKind) :
    groups (.frame frame :: kinds) = (groups kinds).modifyHead (frame :: ·) := by
  rw [groups, groups, List.filter_cons_of_pos (by simp), List.splitOn_cons_eq_if_modifyHead,
    if_neg (by simp)]
  cases (kinds.filter (· ≠ .ignored)).splitOn .terminator with
  | nil => rfl
  | cons group rest => simp [LineKind.frame?]

/-- The groups hold all frames of the dump in their order. -/
theorem groups_flatten (kinds : List LineKind) :
    (groups kinds).flatten = kinds.filterMap LineKind.frame? := by
  induction kinds with
  | nil => simp [groups_nil]
  | cons kind kinds ih =>
    cases kind with
    | terminator => simpa [groups_terminator, List.filterMap_cons, LineKind.frame?] using ih
    | ignored => simpa [groups_ignored, List.filterMap_cons, LineKind.frame?] using ih
    | frame text =>
      obtain ⟨group, rest, hg⟩ := List.exists_cons_of_ne_nil (groups_ne_nil kinds)
      rw [hg] at ih
      simpa [groups_frame, hg, LineKind.frame?] using ih

/-- The frames read of the current sample, the last one first. -/
def Sample.frames : Sample → List String
  | .idle => []
  | .accumulating frames => frames

@[simp] theorem Sample.frames_idle : Sample.idle.frames = [] := rfl

@[simp] theorem Sample.frames_accumulating (frames : List String) :
    (Sample.accumulating frames).frames = frames := rfl

theorem Sample.depth_eq (sample : Sample) : sample.depth = sample.frames.length := by
  cases sample <;> rfl

namespace Folder

variable {folder : Folder} {line frame : String}

/-- No line changes the event. -/
theorem feedLine_event (folder : Folder) (line : String) :
    (folder.feedLine line).event = folder.event := by
  unfold feedLine
  split <;> rfl

/-- A line that ends a sample counts the frames held, if there are any. -/
theorem feedLine_of_terminator (h : LineKind.ofLine folder.event line = .terminator) :
    folder.feedLine line = ⟨folder.event, .idle,
      if folder.sample.frames = [] then folder.table
      else folder.table.increment (signature folder.sample.frames)⟩ := by
  obtain ⟨event, sample, table⟩ := folder
  rw [feedLine, h]
  cases sample with
  | idle => rfl
  | accumulating frames =>
    cases frames with
    | nil =>
      have hempty : (signature []).isEmpty = true := by decide
      simp only [Sample.frames, if_true, CountTable.increment_of_isEmpty table hempty]
    | cons frame rest => rfl

/-- An ignored line changes nothing. -/
theorem feedLine_of_ignored (h : LineKind.ofLine folder.event line = .ignored) :
    folder.feedLine line = folder := by
  rw [feedLine, h]

/-- A frame joins the frames held. -/
theorem feedLine_of_frame (h : LineKind.ofLine folder.event line = .frame frame) :
    folder.feedLine line =
      { folder with sample := .accumulating (frame :: folder.sample.frames) } := by
  obtain ⟨event, sample, table⟩ := folder
  rw [feedLine, h]
  cases sample <;> rfl

/-- What reading further lines comes to. The invariant ties the frames held, the table
and the unread rest: the frames held begin the first group of the rest. -/
theorem foldl_feedLine (lines : List String) (folder : Folder) :
    let rest := (groups (lines.map (LineKind.ofLine folder.event))).modifyHead
      (folder.sample.frames.reverse ++ ·)
    (lines.foldl feedLine folder).table = folder.table.incrementAll
        ((rest.dropLast.filter (· ≠ [])).map fun frames => signature frames.reverse) ∧
      (lines.foldl feedLine folder).sample.frames.length = (rest.getLast?.getD []).length := by
  induction lines generalizing folder with
  | nil => simp [groups_nil, CountTable.incrementAll]
  | cons line rest ih =>
    have ih := ih (folder.feedLine line)
    rw [feedLine_event] at ih
    simp only [List.foldl_cons, List.map_cons]
    obtain ⟨group, more, hg⟩ := List.exists_cons_of_ne_nil
      (groups_ne_nil (rest.map (LineKind.ofLine folder.event)))
    cases hk : LineKind.ofLine folder.event line with
    | terminator =>
      rw [feedLine_of_terminator hk] at ih ⊢
      rw [groups_terminator, hg]
      obtain ⟨htable, hopen⟩ := ih
      refine ⟨htable.trans ?_, ?_⟩
      · by_cases hf : folder.sample.frames = []
        · simp [hg, hf]
        · simp [hg, hf, CountTable.incrementAll]
      · simpa [hg, List.getLast?_cons] using hopen
    | ignored =>
      rw [feedLine_of_ignored hk] at ih ⊢
      rw [groups_ignored]
      exact ih
    | frame frame =>
      rw [feedLine_of_frame hk] at ih ⊢
      rw [groups_frame, hg]
      simpa [hg] using ih

end Folder

/-- An empty line ends a sample, whatever the event. -/
theorem LineKind.ofLine_empty (event : String) : LineKind.ofLine event "" = .terminator := by
  have htrim : Text.trim "" = "" := by decide
  simp [ofLine, ofTrimmed, htrim]

/-- A frame is a line without the white space around it, and none of the lines that end a
sample or are ignored. -/
theorem LineKind.of_frame {event line frame : String}
    (h : LineKind.ofLine event line = .frame frame) :
    frame = Text.trim line ∧
      ¬(frame.isEmpty || Text.beginsWith "---" frame ||
        (!event.isEmpty && Text.beginsWith event frame)) = true ∧
      ¬(Text.beginsWith "- " frame || Text.beginsWith "stackTrace:" frame ||
        Text.beginsWith "=" frame || frame == "null") = true := by
  unfold ofLine ofTrimmed at h
  split_ifs at h with hend hignored
  cases h
  exact ⟨rfl, hend, hignored⟩

/-- A line without white space around it that is a frame is not empty. -/
theorem LineKind.ne_empty_of_frame {event line frame : String}
    (h : LineKind.ofLine event line = .frame frame) : ¬frame.isEmpty = true := by
  obtain ⟨-, hend, -⟩ := LineKind.of_frame h
  intro hempty
  exact hend (by simp [hempty])

/-- Frames with text have a signature. -/
theorem signature_ne_empty {frames : List String} (hne : frames ≠ [])
    (htext : ∀ frame ∈ frames, ¬frame.isEmpty = true) : ¬(signature frames).isEmpty = true := by
  cases frames with
  | nil => exact absurd rfl hne
  | cons frame rest =>
    rw [signature]
    cases rest with
    | nil =>
      rw [String.intercalate_singleton]
      exact htext frame List.mem_cons_self
    | cons next more =>
      rw [String.intercalate_cons_cons]
      simp

/-- Every frame of a sample is a line of the dump. -/
theorem exists_line_of_mem_sample {text event frame : String} {frames : List String}
    (h : frames ∈ samples (lineKinds text event)) (hframe : frame ∈ frames) :
    ∃ line ∈ Text.pieces text, LineKind.ofLine event line = .frame frame := by
  have hflat : frame ∈ (groups (lineKinds text event)).flatten :=
    List.mem_flatten_of_mem (List.dropLast_subset _ (List.mem_filter.mp h).1) hframe
  rw [groups_flatten] at hflat
  obtain ⟨kind, hkind, hf⟩ := List.mem_filterMap.mp hflat
  obtain ⟨line, hline, rfl⟩ := List.mem_map.mp hkind
  refine ⟨line, hline, ?_⟩
  cases hl : LineKind.ofLine event line with
  | frame found =>
    rw [hl] at hf
    cases hf
    rfl
  | _ =>
    rw [hl] at hf
    cases hf

/-- A sample of a dump has frames, and all of them have text. -/
theorem samples_text {text event : String} {frames : List String}
    (h : frames ∈ samples (lineKinds text event)) :
    frames ≠ [] ∧ ∀ frame ∈ frames, ¬frame.isEmpty = true := by
  refine ⟨by simpa using (List.mem_filter.mp h).2, fun frame hframe => ?_⟩
  obtain ⟨line, -, hl⟩ := exists_line_of_mem_sample h hframe
  exact LineKind.ne_empty_of_frame hl

/-- No sample of a dump has an empty signature, so none is lost in counting. -/
theorem signatures_filter (text event : String) :
    (signatures (lineKinds text event)).filter (fun s => !s.isEmpty) =
      signatures (lineKinds text event) := by
  apply List.filter_eq_self.mpr
  intro s hs
  obtain ⟨frames, hframes, rfl⟩ := List.mem_map.mp hs
  obtain ⟨hne, htext⟩ := samples_text hframes
  have hs := signature_ne_empty (List.reverse_ne_nil_iff.mpr hne)
    fun frame hframe => htext frame (List.mem_reverse.mp hframe)
  simpa using hs

/-- Folding counts the signatures of the samples and holds the frames of the unclosed
group. -/
theorem fold_eq (text event : String) :
    (fold text event).table =
        CountTable.empty.incrementAll (signatures (lineKinds text event)) ∧
      (fold text event).pending = (unclosed (lineKinds text event)).length := by
  have hrun := Folder.foldl_feedLine (Text.pieces text) (Folder.new event)
  have hkeep : (groups (lineKinds text event)).modifyHead (fun group => group) =
      groups (lineKinds text event) := congrFun List.modifyHead_id _
  simp only [Folder.new, Sample.frames_idle, List.reverse_nil, List.nil_append] at hrun
  rw [← lineKinds, hkeep] at hrun
  obtain ⟨htable, hopen⟩ := hrun
  exact ⟨htable, (Sample.depth_eq _).trans hopen⟩

/-- The table of a dump counts the signatures of its samples. -/
theorem fold_tallies (text event : String) :
    (fold text event).table.Tallies (signatures (lineKinds text event)) := by
  have hcount := CountTable.incrementAll_tallies (signatures (lineKinds text event))
  rw [signatures_filter] at hcount
  rw [(fold_eq text event).1]
  exact hcount

/-- What a dump read as a whole comes to: the tally of its samples, with the places that the
folder gives them, and the number of frames in the unclosed group. -/
def tallied (text event : String) : Folded where
  table :=
    { entries := (tally (signatures (lineKinds text event))).toArray
      index := (fold text event).table.index }
  pending := (unclosed (lineKinds text event)).length

/-- Folding a dump tallies its samples. -/
theorem fold_eq_tallied : fold = tallied := by
  funext text event
  have hentries := (fold_tallies text event).entries
  have hpending := (fold_eq text event).2
  rw [tallied, ← hentries, ← hpending]
  rfl

/-- Reading a dump line by line comes to the same as reading it as a whole: the table
has the distinct signatures of its samples in the order in which they are first closed,
each with the number of samples that have it, and finds each of them and no other; every
sample is counted; and the frames of the unclosed group are pending. -/
theorem fold_reads_dump (text event : String) :
    (fold text event).table.toList = tally (signatures (lineKinds text event)) ∧
      (∀ signature, (fold text event).table.get? signature =
        if signature ∈ signatures (lineKinds text event) then
          some ((signatures (lineKinds text event)).count signature)
        else none) ∧
      (fold text event).table.totalSamples = (samples (lineKinds text event)).length ∧
      (fold text event).pending = (unclosed (lineKinds text event)).length := by
  have htable := fold_tallies text event
  refine ⟨htable.entries, htable.get?_eq, ?_, (fold_eq text event).2⟩
  rw [htable.totalSamples_eq, signatures, List.length_map]

end FlameFold.Stack
