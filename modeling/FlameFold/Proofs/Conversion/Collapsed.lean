import FlameFold.Proofs.Conversion.Lasting
import FlameFold.Proofs.Text.Damage

/-!
# The collapsed stacks that a run leaves

A recording that is dumped well has the collapsed form of its dump written to its file before
the renderer is called, or nothing is written at all. The file stays what it is until a later
recording with the same stem has its own written in its place.
-/

namespace FlameFold.Conversion

/-- At this visit the recording is there, and the dump tool ends with exit code 0 and has
written the bytes. -/
structure Visit.Dumped (settings : Settings) (runner : Runner) (visit : Visit)
    (written : List UInt8) : Prop where
  /-- The recording is there. -/
  there : visit.before.files.pathExists (settings.recordingPath visit.recording) = true
  /-- The tool is called for it and answers. -/
  answered : ∃ output, (runner visit.before.files visit.before.calls
      (dumpCall settings (settings.recordingPath visit.recording))).result = .ok (.ok output) ∧
    output.code = some 0 ∧ output.written = written

/-- What a run from `start` leaves of a visit that wrote these bytes as collapsed stacks, given
the visits that came after it. -/
structure Visit.Leaves (settings : Settings) (runner : Runner) (visit : Visit)
    (later : List Visit) (bytes : List UInt8) (start left : FileSystem) : Prop where
  /-- The bytes are written after the dump tool has ended, or writing them fails. Only a device does
  not keep them. From the files with them in it the renderer takes the visit to its end. -/
  written : (∃ error, visit.outcome = .writeFailed error) ∨
    visit.outcome.isCollapsed = true ∧ ∃ middle result,
      Output.saved (runner visit.before.files visit.before.calls
          (dumpCall settings (settings.recordingPath visit.recording))).files
        (Recording.Artifacts.of settings.outputPath
          (settings.recordingPath visit.recording)).collapsed bytes = (middle, .ok ()) ∧
      (middle.read (Recording.Artifacts.of settings.outputPath
          (settings.recordingPath visit.recording)).collapsed = .ok bytes ∨
        ∃ device, middle.find? (Recording.Artifacts.of settings.outputPath
          (settings.recordingPath visit.recording)).collapsed = some (.device device)) ∧
      Render.Course runner (rendererOf settings settings.rendererPath)
        (Recording.Artifacts.of settings.outputPath
          (settings.recordingPath visit.recording)).collapsed
        (Recording.Artifacts.of settings.outputPath
          (settings.recordingPath visit.recording)).graphic middle
        (visit.before.calls ++ [dumpCall settings (settings.recordingPath visit.recording)])
        result visit.after.files visit.after.calls
  /-- With programs that change no file, and no device among the files that are made, they are
  still there at the end if no later recording has written its own in their place. -/
  kept : runner.KeepsFiles → Recording.Clear start → visit.outcome.isCollapsed = true →
    (∀ other ∈ later, other.stem settings = visit.stem settings →
      other.outcome.isCollapsed = false) →
    left.read (Recording.Artifacts.of settings.outputPath
      (settings.recordingPath visit.recording)).collapsed = .ok bytes

section

variable {settings : Settings} {runner : Runner} {renderer : Render.Renderer} {path : Path}
  {visit : Visit} {later : List Visit} {first last before : Session} {dump : String}

/-- Where the collapsed stacks were written they stand. -/
theorem Truth.of_collapsed {after : FileSystem} {outcome : Outcome}
    (h : Truth settings runner renderer path before after outcome)
    (houtcome : outcome.isCollapsed = true) :
    ∃ counts text place, Stands settings runner path before counts text place after := by
  cases h with
  | renderFailed hcollapsed => exact ⟨_, _, _, hcollapsed⟩
  | rendered hcollapsed => exact ⟨_, _, _, hcollapsed⟩
  | _ => cases houtcome

/-- Collapsed stacks that a visit has written stand until a later visit with the same stem has
written its own. -/
theorem Visits.stands (h : Visits settings runner renderer (visit :: later) first last)
    (hclear : Recording.Clear first.files) (hkeeps : runner.KeepsFiles)
    (houtcome : visit.outcome.isCollapsed = true)
    (hlater : ∀ other ∈ later, other.stem settings = visit.stem settings →
      other.outcome.isCollapsed = false) :
    ∃ counts text place, Stands settings runner (settings.recordingPath visit.recording)
      visit.before counts text place last.files := by
  obtain ⟨hleft, htruth, hrest⟩ := h.head hclear hkeeps
  obtain ⟨places, hchanged, hwrites⟩ := hrest.changed hleft hkeeps
  obtain ⟨counts, text, place, hstands⟩ := htruth.of_collapsed houtcome
  refine ⟨counts, text, place, hstands.changed hchanged fun hplace => ?_⟩
  obtain ⟨other, hother, hw⟩ := hwrites place hplace
  have hname := (Recording.locate_collapsed hstands.holds.located).1
  obtain ⟨hstem, hwritten⟩ := Visit.Writes.collapsed hw hname
  rw [hlater other hother hstem] at hwritten
  cases hwritten

/-- A text that the dump tool writes is the dump. -/
theorem Visit.Dumped.textOfAnswer (h : visit.Dumped settings runner (Text.encode dump))
    {answer : Except Program.Failure Program.Output}
    (hanswer : (runner visit.before.files visit.before.calls
      (dumpCall settings (settings.recordingPath visit.recording))).result = .ok answer) :
    Dump.textOfAnswer answer = .ok dump := by
  obtain ⟨output, hcall, hcode, hwritten⟩ := h.answered
  obtain rfl : answer = .ok output := Except.ok.inj (hanswer.symm.trans hcall)
  have hsucceeded : output.succeeded = true := by simp [Program.Output.succeeded, hcode]
  rw [Dump.textOfAnswer, Dump.textOf, if_pos hsucceeded, Program.Output.writtenText, hwritten,
    Text.decodeLossy_encode]

/-- The collapsed stacks of a recording that is dumped well stand with the collapsed bytes of
its dump. -/
theorem Stands.text_eq (hdumped : visit.Dumped settings runner (Text.encode dump))
    {counts : Counts} {text : String} {place : Location} {files : FileSystem}
    (h : Stands settings runner (settings.recordingPath visit.recording) visit.before counts text
      place files) :
    Text.encode text = Output.collapsedBytes (Stack.fold dump settings.event).table := by
  obtain ⟨found, ⟨output, hcall, hsucceeded, hfound⟩, hform⟩ := h.dumped
  have hanswer : Dump.textOfAnswer (.ok output) = .ok found := by
    rw [Dump.textOfAnswer, Dump.textOf, if_pos hsucceeded, hfound]
  obtain rfl : found = dump := Except.ok.inj (hanswer.symm.trans (hdumped.textOfAnswer hcall))
  have hbytes := Output.collapsedText_fold found settings.event
  rw [Output.collapsedBytes, hform.text_eq, hbytes.text_eq]

/-- Converting a recording that is dumped well writes the collapsed bytes of its dump and goes on
to render them, unless they cannot be written. -/
theorem Visit.Dumped.written (h : visit.Dumped settings runner (Text.encode dump))
    {files : FileSystem} {calls : List Program.Invocation}
    (hcourse : Course settings runner renderer (settings.recordingPath visit.recording)
      visit.before.files visit.before.calls visit.outcome files calls) :
    (∃ error, visit.outcome = .writeFailed error) ∨
      visit.outcome.isCollapsed = true ∧ ∃ middle result,
        Output.saved (runner visit.before.files visit.before.calls
            (dumpCall settings (settings.recordingPath visit.recording))).files
          (Recording.Artifacts.of settings.outputPath
            (settings.recordingPath visit.recording)).collapsed
          (Output.collapsedBytes (Stack.fold dump settings.event).table) = (middle, .ok ()) ∧
        Render.Course runner renderer
          (Recording.Artifacts.of settings.outputPath
            (settings.recordingPath visit.recording)).collapsed
          (Recording.Artifacts.of settings.outputPath
            (settings.recordingPath visit.recording)).graphic middle
          (visit.before.calls ++ [dumpCall settings (settings.recordingPath visit.recording)])
          result files calls := by
  obtain ⟨recording, before, outcome, after⟩ := visit
  dsimp only at hcourse ⊢
  cases hcourse with
  | absent hthere =>
    have habsent := h.there
    rw [hthere] at habsent
    cases habsent
  | undumped _ hcall hdump =>
    rw [h.textOfAnswer hcall] at hdump
    cases hdump
  | unwritten _ _ _ _ => exact .inl ⟨_, rfl⟩
  | @written _ text _ result _ _ _ hcall hdump hsaved hrender =>
    rw [h.textOfAnswer hcall] at hdump
    cases hdump
    refine .inr ⟨?_, _, result, hsaved, hrender⟩
    cases result <;> rfl

end

/-- Of each recording that is dumped well a run leaves the collapsed bytes of its dump. -/
theorem run_leaves {settings : Settings} {runner : Runner} {before after : Session}
    {summary : Summary} (h : run settings runner before = .ok (.ok summary) after) :
    ∃ visits, Tells settings runner before summary visits after.files after.calls ∧
      ∀ earlier visit later, visits = earlier ++ visit :: later →
        ∀ dump, visit.Dumped settings runner (Text.encode dump) →
          visit.Leaves settings runner later
            (Output.collapsedBytes (Stack.fold dump settings.event).table) before.files
            after.files := by
  obtain ⟨hvalid, hscript⟩ := run_started h
  obtain ⟨told, visits, hanswer, htells⟩ := (run_follows hvalid hscript runner).of_ok h
  obtain rfl : summary = told := Except.ok.inj hanswer
  refine ⟨visits, htells, fun earlier visit later hvisits dump hdumped => ?_⟩
  obtain ⟨first, last, hfirst, -, hchain, hlast, -⟩ := htells.chain
  rw [hvisits] at hchain
  obtain ⟨middle, hearlier, hlater⟩ := hchain.split
  constructor
  · have hcourse := (convertOne_follows ..).of_ok hlater.2.1
    rcases hdumped.written hcourse with hfailed | ⟨hcollapsed, made, result, hsaved, hrender⟩
    · exact .inl hfailed
    · exact .inr ⟨hcollapsed, made, result, hsaved, Output.saved_read hsaved, hrender⟩
  · intro hkeeps hclear hcollapsed hothers
    rw [← hfirst] at hclear
    obtain ⟨places, hchanged, -⟩ := hearlier.changed hclear hkeeps
    obtain ⟨counts, text, place, hstands⟩ :=
      hlater.stands (hclear.changed hchanged) hkeeps hcollapsed hothers
    rw [← hlast, ← hstands.text_eq hdumped]
    exact hstands.holds.read

end FlameFold.Conversion
