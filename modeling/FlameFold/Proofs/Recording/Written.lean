import FlameFold.Proofs.Text.Blank
import FlameFold.Recording

/-!
# Recordings as they are written

A recording is written as its file, an equals sign and its label. It is read back where its
label is tidy. A label that is given with the file is tidy; the stem of the file, which takes the
place of a label that is not given, may have white space around it or be nothing else.
-/

namespace FlameFold.Recording

open Text (Tidy trim isBlankText)

variable {spec : String} {recording : Recording}

/-- The text of a recording: its file, an equals sign and its label. -/
def written (recording : Recording) : String :=
  recording.file.text ++ "=" ++ recording.label

/-- A text without an equals sign is all file, and the stem of the file is the label. -/
theorem split_bare (h : '=' ∉ spec.toList) :
    split spec = (trim spec, (Path.mk (trim spec)).fileStem?.getD "") := by
  rw [split, Text.span_whole h]

/-- What stands before the first equals sign is the file, and all that follows is the label. -/
theorem split_labelled {file : String} (h : '=' ∉ file.toList) (label : String) :
    split (file ++ "=" ++ label) = (trim file, trim label) := by
  have htext : (file ++ "=" ++ label).toList = file.toList ++ '=' :: label.toList := by simp
  rw [split, htext, Text.span_separator h]
  rfl

/-- A text with an equals sign has a first one. -/
theorem exists_labelled (h : '=' ∈ spec.toList) :
    ∃ file label, spec = file ++ "=" ++ label ∧ '=' ∉ file.toList := by
  obtain ⟨file, label, htext, hfile⟩ := List.eq_append_cons_of_mem h
  refine ⟨String.ofList file, String.ofList label, ?_, by simpa using hfile⟩
  rw [← String.toList_inj, htext]
  simp

/-- A text is read as the two parts that it is split into, if neither of them is empty. -/
theorem ofSpec_eq_ok_iff : ofSpec spec = .ok recording ↔
    split spec = (recording.file.text, recording.label) ∧
      recording.file.text ≠ "" ∧ recording.label ≠ "" := by
  obtain ⟨⟨file⟩, label⟩ := recording
  cases hsplit : split spec with
  | mk first second =>
    simp only [ofSpec, hsplit, String.isEmpty_iff]
    split_ifs with hfile hlabel
    · simp_all
    · simp_all
    · constructor
      · intro hread
        cases hread
        exact ⟨rfl, hfile, hlabel⟩
      · rintro ⟨hparts, -, -⟩
        cases hparts
        rfl

/-- The file of a recording that was read is tidy and has no equals sign. -/
theorem file_of_ofSpec (h : ofSpec spec = .ok recording) :
    Tidy recording.file.text ∧ '=' ∉ recording.file.text.toList := by
  obtain ⟨hsplit, hfile, -⟩ := ofSpec_eq_ok_iff.mp h
  suffices hpart : ∃ part, recording.file.text = trim part ∧ '=' ∉ part.toList by
    obtain ⟨part, hpart, hequals⟩ := hpart
    rw [hpart] at hfile ⊢
    exact ⟨Text.tidy_trim hfile, fun hmem => hequals (Text.trim_subset part hmem)⟩
  by_cases hequals : '=' ∈ spec.toList
  · obtain ⟨file, label, rfl, hnone⟩ := exists_labelled hequals
    rw [split_labelled hnone] at hsplit
    exact ⟨file, (congrArg Prod.fst hsplit).symm, hnone⟩
  · rw [split_bare hequals] at hsplit
    exact ⟨spec, (congrArg Prod.fst hsplit).symm, hequals⟩

/-- A label that was given is tidy. -/
theorem label_of_labelled (h : ofSpec spec = .ok recording) (hequals : '=' ∈ spec.toList) :
    Tidy recording.label := by
  obtain ⟨hsplit, -, hlabel⟩ := ofSpec_eq_ok_iff.mp h
  obtain ⟨file, label, rfl, hnone⟩ := exists_labelled hequals
  rw [split_labelled hnone] at hsplit
  have htrim : trim label = recording.label := congrArg Prod.snd hsplit
  rw [← htrim] at hlabel ⊢
  exact Text.tidy_trim hlabel

/-- A label that was not given is the stem of the file. -/
theorem label_of_bare (h : ofSpec spec = .ok recording) (hequals : '=' ∉ spec.toList) :
    recording.file.fileStem? = some recording.label := by
  obtain ⟨hsplit, -, hlabel⟩ := ofSpec_eq_ok_iff.mp h
  rw [split_bare hequals, Prod.mk.injEq] at hsplit
  obtain ⟨hfile, hstem⟩ := hsplit
  have hpath : Path.mk (trim spec) = recording.file := congrArg Path.mk hfile
  rw [hpath] at hstem
  cases hfound : recording.file.fileStem? with
  | none =>
    rw [hfound, Option.getD_none] at hstem
    exact absurd hstem.symm hlabel
  | some stem =>
    rw [hfound, Option.getD_some] at hstem
    rw [hstem]

/-- A recording that was read is written, and what is read back has the same file and its label
without the white space around it; a label that is nothing else is missing. -/
theorem ofSpec_written (h : ofSpec spec = .ok recording) :
    ofSpec recording.written =
      if isBlankText recording.label then .error (.labelMissing recording.written)
      else .ok ⟨recording.file, trim recording.label⟩ := by
  obtain ⟨hfile, hequals⟩ := file_of_ofSpec h
  obtain ⟨-, hnonempty, -⟩ := ofSpec_eq_ok_iff.mp h
  have hsplit : split recording.written = (recording.file.text, trim recording.label) := by
    rw [written, split_labelled hequals, hfile.trimmed]
  simp only [ofSpec, hsplit, String.isEmpty_iff, hnonempty, if_false, Text.trim_eq_empty_iff]

/-- A recording that was read has a tidy file. Its label is tidy if it was given with the file,
and the stem of the file if it was not. Written with its label, the recording is read back
exactly if the label is tidy; otherwise the white space around the label is lost, and a label of
nothing else is missing. -/
theorem ofSpec_tidy (h : ofSpec spec = .ok recording) :
    Tidy recording.file.text ∧
    ('=' ∈ spec.toList → Tidy recording.label) ∧
    ('=' ∉ spec.toList → recording.label ≠ "" ∧
      recording.file.fileStem? = some recording.label) ∧
    (ofSpec recording.written = .ok recording ↔ Tidy recording.label) ∧
    ofSpec recording.written =
      if isBlankText recording.label then .error (.labelMissing recording.written)
      else .ok ⟨recording.file, trim recording.label⟩ := by
  have hread := ofSpec_written h
  refine ⟨(file_of_ofSpec h).1, label_of_labelled h,
    fun hequals => ⟨(ofSpec_eq_ok_iff.mp h).2.2, label_of_bare h hequals⟩, ?_, hread⟩
  rw [hread]
  constructor
  · intro hsame
    split_ifs at hsame with hblank
    refine ⟨by simpa using hblank, ?_⟩
    exact congrArg Recording.label (Except.ok.inj hsame)
  · rintro ⟨hfull, htrimmed⟩
    rw [hfull, htrimmed]
    rfl

/-- The label of this recording has an equals sign and white space within, and the file has white
space around it that is not kept. -/
theorem ofSpec_tidy_spaced :
    ofSpec " my run.jfr = depth = 4\t" = .ok ⟨⟨"my run.jfr"⟩, "depth = 4"⟩ ∧
    Tidy "my run.jfr" ∧ Tidy "depth = 4" ∧
    ofSpec "my run.jfr=depth = 4" = .ok ⟨⟨"my run.jfr"⟩, "depth = 4"⟩ := by
  have hread : ofSpec " my run.jfr = depth = 4\t" = .ok ⟨⟨"my run.jfr"⟩, "depth = 4"⟩ := by
    decide +kernel
  obtain ⟨hfile, hlabelled, -, hwritten, -⟩ := ofSpec_tidy hread
  have hlabel := hlabelled (by decide)
  exact ⟨hread, hfile, hlabel, hwritten.mpr hlabel⟩

/-- A recording whose label is not given can have a label of nothing but white space, which is not
read back. -/
theorem blank_stem_not_tidy :
    ¬∀ spec recording, ofSpec spec = .ok recording → Tidy recording.file.text ∧
      Tidy recording.label ∧ ofSpec recording.written = .ok recording := by
  intro h
  have hread : ofSpec "traces/ .jfr" = .ok ⟨⟨"traces/ .jfr"⟩, " "⟩ := by decide +kernel
  obtain ⟨-, hlabel, -⟩ := h _ _ hread
  have hfull : isBlankText " " = false := hlabel.full
  exact absurd hfull (by decide)

end FlameFold.Recording
