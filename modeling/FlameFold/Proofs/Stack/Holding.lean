import FlameFold.Output.Collapsed
import FlameFold.Proofs.Stack.Feeding
import FlameFold.Proofs.Stack.Sorting

/-!
# What a folder holds

Whatever a folder has been given, it holds either no sample or one that has frames, and each
frame held is a trimmed line that would be read as the same frame again. So a line that ends
the sample held always counts one sample, and no signature that is counted is empty.
-/

namespace FlameFold.Stack

/-- A text that can be held as a frame of a sample of the event. -/
structure Held (event frame : String) : Prop where
  /-- It has some text, and no white space around it. -/
  tidy : Text.Tidy frame
  /-- As it stands, it means a frame. -/
  kind : LineKind.ofTrimmed event frame = .frame frame
  /-- It is not the word that stands for a missing frame. -/
  notNull : frame ≠ "null"

/-- A line that is read as a frame leaves a text that can be held as one. -/
theorem Held.of_frame {event line frame : String}
    (h : LineKind.ofLine event line = .frame frame) : Held event frame := by
  obtain ⟨rfl, hend, hignored⟩ := LineKind.of_frame h
  have hfull : Text.trim line ≠ "" := by
    intro hempty
    exact hend (by simp [hempty])
  refine ⟨Text.tidy_trim hfull, h, fun hnull => ?_⟩
  exact hignored (by simp [hnull])

/-- Frames held have a signature. -/
theorem Held.signature_full {event : String} {frames : List String} (hne : frames ≠ [])
    (h : ∀ frame ∈ frames, Held event frame) : (signature frames).isEmpty = false := by
  have htext : ∀ frame ∈ frames, ¬frame.isEmpty = true := by
    intro frame hframe hempty
    obtain rfl : frame = "" := String.isEmpty_iff.mp hempty
    exact absurd (h "" hframe).tidy.full (by decide)
  exact Bool.eq_false_iff.mpr (signature_ne_empty hne htext)

/-- Signatures that are not empty are all counted. -/
theorem CountTable.totalSamples_counted {counted : List String}
    (h : ∀ signature ∈ counted, signature.isEmpty = false) :
    (CountTable.empty.incrementAll counted).totalSamples = counted.length := by
  have hall : counted.filter (fun signature => !signature.isEmpty) = counted :=
    List.filter_eq_self.mpr fun signature hmem => by rw [h signature hmem]; rfl
  rw [(CountTable.incrementAll_tallies counted).totalSamples_eq, hall]

namespace Folder

variable {event : String} {folder : Folder} {frames : List String}

/-- The folders that can be reached from a new one by any lines and any dumps. A text that is
given as one line may have newlines in it. -/
inductive Reached (event : String) : Folder → Prop
  /-- A folder that has read nothing. -/
  | new : Reached event (new event)
  /-- A folder that has read one line more. -/
  | line {folder : Folder} (h : Reached event folder) (text : String) :
    Reached event (folder.feedLine text)
  /-- A folder that has read a dump more. -/
  | dump {folder : Folder} (h : Reached event folder) (text : String) :
    Reached event (folder.feed text)

/-- What every line keeps of a folder. -/
structure Sound (event : String) (folder : Folder) : Prop where
  /-- The event is the one that the folder was made for. -/
  named : folder.event = event
  /-- A sample that is held has frames, and all of them can be held. -/
  held : ∀ frames, folder.sample = .accumulating frames →
    frames ≠ [] ∧ ∀ frame ∈ frames, Held event frame
  /-- The table was made by counting signatures, and none of them was empty. -/
  counted : ∃ counted, folder.table = CountTable.empty.incrementAll counted ∧
    ∀ signature ∈ counted, signature.isEmpty = false

theorem new_sound (event : String) : (new event).Sound event where
  named := rfl
  held _ h := by cases h
  counted := ⟨[], rfl, by simp⟩

/-- The frames held, if any, can be held. -/
theorem Sound.heldFrames (h : folder.Sound event) :
    ∀ frame ∈ folder.sample.frames, Held event frame := by
  cases hsample : folder.sample with
  | idle => simp
  | accumulating frames => exact (h.held frames hsample).2

/-- A signature that is not empty is one more of those that were counted. -/
theorem Sound.increment (h : folder.Sound event) {signature : String}
    (hfull : signature.isEmpty = false) :
    ∃ counted, folder.table.increment signature = CountTable.empty.incrementAll counted ∧
      (∀ other ∈ counted, other.isEmpty = false) ∧
      counted.length = folder.table.totalSamples + 1 := by
  obtain ⟨counted, htable, hcounted⟩ := h.counted
  refine ⟨counted ++ [signature], ?_, fun other hother => ?_, ?_⟩
  · rw [htable, CountTable.incrementAll, CountTable.incrementAll, List.foldl_append]
    rfl
  · rcases List.mem_append.mp hother with hother | hother
    · exact hcounted other hother
    · rwa [List.mem_singleton.mp hother]
  · rw [htable, CountTable.totalSamples_counted hcounted, List.length_append]
    rfl

/-- No line breaks a folder. -/
theorem Sound.feedLine (h : folder.Sound event) (line : String) :
    (folder.feedLine line).Sound event := by
  cases hkind : LineKind.ofLine folder.event line with
  | terminator =>
    rw [feedLine_of_terminator hkind]
    refine ⟨h.named, fun frames hframes => (by cases hframes), ?_⟩
    by_cases hnone : folder.sample.frames = []
    · rw [if_pos hnone]
      exact h.counted
    · rw [if_neg hnone]
      obtain ⟨counted, htable, hcounted, -⟩ :=
        h.increment (Held.signature_full hnone h.heldFrames)
      exact ⟨counted, htable, hcounted⟩
  | ignored =>
    rw [feedLine_of_ignored hkind]
    exact h
  | frame frame =>
    rw [feedLine_of_frame hkind]
    refine ⟨h.named, fun frames hframes => ?_, h.counted⟩
    obtain rfl := Sample.accumulating.inj hframes
    rw [h.named] at hkind
    exact ⟨List.cons_ne_nil _ _, List.forall_mem_cons.mpr ⟨.of_frame hkind, h.heldFrames⟩⟩

/-- No dump breaks a folder. -/
theorem Sound.feed (h : folder.Sound event) (text : String) :
    (folder.feed text).Sound event := by
  have hlines : ∀ lines : List String, ∀ folder : Folder, folder.Sound event →
      (lines.foldl Folder.feedLine folder).Sound event := by
    intro lines
    induction lines with
    | nil => exact fun folder h => h
    | cons line rest ih => exact fun folder h => ih _ (h.feedLine line)
  exact hlines (Text.pieces text) folder h

/-- Every folder that can be reached is sound. -/
theorem Reached.sound (h : Reached event folder) : folder.Sound event := by
  induction h with
  | new => exact new_sound event
  | line _ text ih => exact ih.feedLine text
  | dump _ text ih => exact ih.feed text

/-- A line that ends the sample held counts it as one sample more and holds none. -/
theorem Sound.closes (h : folder.Sound event) (hsample : folder.sample = .accumulating frames)
    {line : String} (hline : LineKind.ofLine event line = .terminator) :
    (signature frames).isEmpty = false ∧ (folder.feedLine line).sample = .idle ∧
      (folder.feedLine line).finish.pending = 0 ∧
      (folder.feedLine line).table.totalSamples = folder.table.totalSamples + 1 := by
  obtain ⟨hne, hheld⟩ := h.held frames hsample
  have hfull := Held.signature_full hne hheld
  obtain ⟨counted, htable, hcounted, hlength⟩ := h.increment hfull
  rw [← h.named] at hline
  rw [feedLine_of_terminator hline, hsample, Sample.frames_accumulating, if_neg hne]
  refine ⟨hfull, rfl, rfl, ?_⟩
  rw [htable, CountTable.totalSamples_counted hcounted, hlength]

/-- Every entry of a sound folder has a signature, so every entry is written. -/
theorem Sound.written (h : folder.Sound event) :
    (∀ entry ∈ folder.table.sorted, entry.signature.isEmpty = false) ∧
      Output.writtenEntries folder.table = folder.table.sorted := by
  obtain ⟨counted, htable, hcounted⟩ := h.counted
  have hfull : ∀ entry ∈ folder.table.sorted, entry.signature.isEmpty = false := by
    intro entry hentry
    have hmem := folder.table.sorted_perm.mem_iff.mp hentry
    rw [htable, (CountTable.incrementAll_tallies counted).entries, tally] at hmem
    obtain ⟨signature, hsignature, rfl⟩ := List.mem_map.mp hmem
    exact hcounted signature (List.mem_filter.mp (List.mem_eraseDups.mp hsignature)).1
  refine ⟨hfull, List.filter_eq_self.mpr fun entry hentry => ?_⟩
  rw [hfull entry hentry]
  rfl

/-- Whatever lines and dumps a folder has been given, a sample that it holds has frames, and
each frame held has some text, no white space around it, is not `null`, and means a frame of
the event as it stands. A line that ends the sample held finds a signature that is not empty:
it counts one sample more and leaves none pending. The table has been made by counting
signatures that are not empty, so every entry is written to a file. -/
theorem reached_holds (h : Reached event folder) :
    folder.event = event ∧
      (∀ frames, folder.sample = .accumulating frames →
        frames ≠ [] ∧ ∀ frame ∈ frames, Held event frame) ∧
      (∀ frames line, folder.sample = .accumulating frames →
        LineKind.ofLine event line = .terminator →
          (signature frames).isEmpty = false ∧ (folder.feedLine line).sample = .idle ∧
            (folder.feedLine line).finish.pending = 0 ∧
            (folder.feedLine line).table.totalSamples = folder.table.totalSamples + 1) ∧
      (∃ counted, folder.table = CountTable.empty.incrementAll counted ∧
        ∀ signature ∈ counted, signature.isEmpty = false) ∧
      (∀ entry ∈ folder.table.sorted, entry.signature.isEmpty = false) ∧
      Output.writtenEntries folder.table = folder.table.sorted := by
  have hsound := h.sound
  exact ⟨hsound.named, hsound.held, fun _ _ hsample hline => hsound.closes hsample hline,
    hsound.counted, hsound.written⟩

/-- After a dump with one sample and two lines of the next one, dashes count the second. -/
theorem reached_holds_twice :
    let folder := ((((new "event").feed "a\n\n  b ").feedLine "null").feedLine "\tc;\n d")
    Reached "event" folder ∧ folder.sample = .accumulating ["c;\n d", "b"] ∧
      LineKind.ofLine "event" " ----" = .terminator ∧ Held "event" "b" ∧
      (folder.feedLine " ----").finish.pending = 0 ∧
      (folder.feedLine " ----").table.totalSamples = folder.table.totalSamples + 1 := by
  intro folder
  have hreached : Reached "event" folder := ((Reached.new.dump _).line _).line _
  have hsample : folder.sample = .accumulating ["c;\n d", "b"] := by decide +kernel
  have hline : LineKind.ofLine "event" " ----" = .terminator := by decide +kernel
  obtain ⟨-, hheld, hcloses, -⟩ := reached_holds hreached
  obtain ⟨-, -, hpending, htotal⟩ := hcloses _ " ----" hsample hline
  exact ⟨hreached, hsample, hline, (hheld _ hsample).2 "b" (by simp), hpending, htotal⟩

end Folder

end FlameFold.Stack
