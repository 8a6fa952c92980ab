import FlameFold.Proofs.Conversion.Outcomes
import FlameFold.Proofs.Conversion.Visits

/-!
# The programs that a run calls

What became of the recordings says which programs were called. Each recording has its block
of calls: none, the dump tool alone, or the dump tool and then the renderer, which is given
what was just written. The calls of a run are the blocks of its recordings in their order.
-/

namespace FlameFold.Conversion

/-- The call of the renderer script for the bytes of collapsed stacks. -/
def renderCall (settings : Settings) (input : List UInt8) : Program.Invocation where
  program := settings.rendererPath.text
  arguments := ["--title", settings.title]
  input := some input
  limit := settings.timeout

/-- In this session the dump tool gives a dump of the recording at a path, and writing
`bytes` to its file of collapsed stacks, which are those of the dump, leaves the files
`left`. -/
structure Collapse (settings : Settings) (runner : Runner) (path : Path) (before : Session)
    (bytes : List UInt8) (left : FileSystem) : Prop where
  /-- The bytes are the collapsed stacks of the dump. -/
  dumped : ∃ dump, Dumps settings runner path before dump ∧
    bytes = Output.collapsedBytes (Stack.fold dump settings.event).table
  /-- They have been written. -/
  saved : Output.saved (runner before.files before.calls (dumpCall settings path)).files
    (Recording.Artifacts.of settings.outputPath path).collapsed bytes = (left, .ok ())

/-- What the renderer is given: what is read back from the file of collapsed stacks. These are the
bytes just written, unless a device stands there: it gives what it has. -/
structure Fed (settings : Settings) (path : Path) (bytes : List UInt8) (left : FileSystem)
    (input : List UInt8) : Prop where
  /-- It is read from the file of collapsed stacks. -/
  read : left.read (Recording.Artifacts.of settings.outputPath path).collapsed = .ok input
  /-- It is what was written, unless a device stands there. -/
  same : (∀ device, left.find? (Recording.Artifacts.of settings.outputPath path).collapsed ≠
    some (.device device)) → input = bytes

/-- The calls made for the recording at a path, by what became of it. -/
inductive Block (settings : Settings) (runner : Runner) (path : Path) (before : Session) :
    Outcome → List Program.Invocation → Prop where
  /-- Nothing is called for a recording that is not there. -/
  | skipped : Block settings runner path before .skipped []
  /-- Without a dump only the dump tool is called. -/
  | dumpFailed {error} :
    Block settings runner path before (.dumpFailed error) [dumpCall settings path]
  /-- Nothing is rendered without a file of collapsed stacks. -/
  | writeFailed {error} :
    Block settings runner path before (.writeFailed error) [dumpCall settings path]
  /-- The renderer is called with what was written. -/
  | rendered {artifacts counts bytes left input}
    (hcollapse : Collapse settings runner path before bytes left)
    (hfed : Fed settings path bytes left input) :
    Block settings runner path before (.rendered artifacts counts)
      [dumpCall settings path, renderCall settings input]
  /-- The renderer is called in the same way where no flame graph comes of it. -/
  | renderFailed {artifacts counts error bytes left input}
    (hcollapse : Collapse settings runner path before bytes left)
    (hfed : Fed settings path bytes left input) :
    Block settings runner path before (.renderFailed artifacts counts error)
      [dumpCall settings path, renderCall settings input]
  /-- What cannot be read back is not rendered. -/
  | unread {artifacts counts error bytes left cause}
    (hcollapse : Collapse settings runner path before bytes left)
    (hread : left.read (Recording.Artifacts.of settings.outputPath path).collapsed =
      .error cause) :
    Block settings runner path before (.renderFailed artifacts counts error)
      [dumpCall settings path]

/-- What is read back after the collapsed stacks were saved can be given to the renderer. -/
theorem Collapse.fed {settings : Settings} {runner : Runner} {path : Path} {before : Session}
    {bytes input : List UInt8} {left : FileSystem}
    (h : Collapse settings runner path before bytes left)
    (hread : left.read (Recording.Artifacts.of settings.outputPath path).collapsed = .ok input) :
    Fed settings path bytes left input where
  read := hread
  same hkeeps := Except.ok.inj (hread.symm.trans (Output.saved_kept h.saved hkeeps))

/-- Rendering calls the renderer once with what was written, or not at all where that
cannot be read back. -/
theorem Collapse.block {settings : Settings} {runner : Runner} {path : Path} {before : Session}
    {bytes : List UInt8} {left files : FileSystem} {calls : List Program.Invocation}
    {result : Except Render.Failure Unit} {artifacts : Recording.Artifacts} {counts : Counts}
    (h : Collapse settings runner path before bytes left)
    (hrender : Render.Course runner (rendererOf settings settings.rendererPath)
      (Recording.Artifacts.of settings.outputPath path).collapsed
      (Recording.Artifacts.of settings.outputPath path).graphic left
      (before.calls ++ [dumpCall settings path]) result files calls) :
    ∃ block, calls = before.calls ++ block ∧
      Block settings runner path before (renderOutcome artifacts counts result) block := by
  cases hrender with
  | unread hread => exact ⟨_, rfl, .unread h hread⟩
  | notRun hread => exact ⟨_, List.append_assoc _ _ _, .renderFailed h (h.fed hread)⟩
  | failed hread => exact ⟨_, List.append_assoc _ _ _, .renderFailed h (h.fed hread)⟩
  | @printed input output after saved hread =>
    cases saved with
    | ok _ => exact ⟨_, List.append_assoc _ _ _, .rendered h (h.fed hread)⟩
    | error failure => exact ⟨_, List.append_assoc _ _ _, .renderFailed h (h.fed hread)⟩

/-- The calls of each course are those of its outcome. -/
theorem Course.block {settings : Settings} {runner : Runner} {path : Path} {before : Session}
    {outcome : Outcome} {files : FileSystem} {calls : List Program.Invocation}
    (h : Course settings runner (rendererOf settings settings.rendererPath) path before.files
      before.calls outcome files calls) :
    ∃ block, calls = before.calls ++ block ∧ Block settings runner path before outcome block := by
  cases h with
  | absent => exact ⟨[], (List.append_nil _).symm, .skipped⟩
  | undumped => exact ⟨_, rfl, .dumpFailed⟩
  | unwritten => exact ⟨_, rfl, .writeFailed⟩
  | written _ hcall hdump hsaved hrender =>
    obtain ⟨output, rfl, hsucceeded, htext⟩ := Dump.textOfAnswer_ok hdump
    have hcollapse : Collapse settings runner path before _ _ :=
      ⟨⟨_, ⟨output, hcall, hsucceeded, htext⟩, rfl⟩, hsaved⟩
    exact hcollapse.block hrender

/-- A visit and the calls that are made in it. -/
structure Visit.Calls (settings : Settings) (runner : Runner) (visit : Visit)
    (block : List Program.Invocation) : Prop where
  /-- They come after the calls made before. -/
  calls : visit.after.calls = visit.before.calls ++ block
  /-- They are the block of the recording. -/
  block : Block settings runner (settings.recordingPath visit.recording) visit.before
    visit.outcome block

/-- Each visit makes the calls of its outcome, one visit after the other. -/
theorem Visits.calls {settings : Settings} {runner : Runner} {visits : List Visit}
    {first last : Session}
    (h : Visits settings runner (rendererOf settings settings.rendererPath) visits first last) :
    ∃ blocks, List.Forall₂ (Visit.Calls settings runner) visits blocks ∧
      last.calls = first.calls ++ blocks.flatten := by
  induction visits generalizing first with
  | nil =>
    obtain rfl : first = last := h
    exact ⟨[], .nil, by simp⟩
  | cons visit rest ih =>
    obtain ⟨rfl, hstep, hrest⟩ := h
    obtain ⟨block, hcalls, hblock⟩ := ((convertOne_follows ..).of_ok hstep).block
    obtain ⟨blocks, hblocks, hlast⟩ := ih hrest
    refine ⟨block :: blocks, .cons ⟨hcalls, hblock⟩ hblocks, ?_⟩
    rw [hlast, hcalls, List.flatten_cons, List.append_assoc]

/-- Which programs a run calls is fixed by what became of its recordings. A run that is
refused calls none and leaves the session as it was. Every other run has one result for each
recording of the settings, in their order, and calls the block of each recording in the same
order and nothing else; it ends if the runner brings every call to an end. -/
theorem run_calls (settings : Settings) (runner : Runner) (before : Session) :
    (∀ shortcoming, settings.validate = .error shortcoming →
      run settings runner before = .ok (.error (.invalid shortcoming.reason)) before) ∧
    (settings.validate = .ok () → before.files.isFile settings.rendererPath = false →
      run settings runner before =
        .ok (.error (.rendererMissing settings.rendererPath)) before) ∧
    (settings.validate = .ok () → before.files.isFile settings.rendererPath = true →
      (∀ answer after, run settings runner before = .ok answer after →
        ∃ summary visits blocks, answer = .ok summary ∧
          Tells settings runner before summary visits after.files after.calls ∧
          (summary.results.map fun result => (result.recording, result.path)) =
            settings.recordings.map (fun recording =>
              (recording, settings.recordingPath recording)) ∧
          List.Forall₂ (Visit.Calls settings runner) visits blocks ∧
          after.calls = before.calls ++ blocks.flatten) ∧
      (runner.Answers → ∃ answer after, run settings runner before = .ok answer after)) := by
  refine ⟨fun _ h => run_invalid h runner before, fun hvalid h =>
    run_rendererMissing hvalid h runner, fun hvalid h => ⟨fun answer after hrun => ?_, fun
    hanswers => (run_follows hvalid h runner).returns hanswers⟩⟩
  obtain ⟨summary, visits, hanswer, htells⟩ := (run_follows hvalid h runner).of_ok hrun
  obtain ⟨first, last, -, hfirst, hvisits, -, hlast⟩ := htells.chain
  obtain ⟨blocks, hblocks, hcalls⟩ := hvisits.calls
  refine ⟨summary, visits, blocks, hanswer, htells, ?_, hblocks, ?_⟩
  · rw [htells.results, ← htells.recordings, List.map_map, List.map_map]
    rfl
  · rw [← hlast, hcalls, hfirst]

/-- In the workplace the recording is rendered, by a call of the dump tool and one of the renderer
with the collapsed stacks. -/
theorem run_calls_workplace :
    (workSettings "out").validate = .ok () ∧
    workplace.isFile (workSettings "out").rendererPath = true ∧
    ∃ summary visits blocks after,
      run (workSettings "out") workRunner (Session.start workplace) = .ok (.ok summary) after ∧
      summary.results.map Result.outcome = [.rendered (.of ⟨"./out"⟩ ⟨"./app.jfr"⟩) ⟨1, 2⟩] ∧
      Tells (workSettings "out") workRunner (Session.start workplace) summary visits after.files
        after.calls ∧
      List.Forall₂ (Visit.Calls (workSettings "out") workRunner) visits blocks ∧
      after.calls = blocks.flatten ∧
      blocks.flatten = [dumpCall (workSettings "out") ⟨"./app.jfr"⟩,
        renderCall (workSettings "out") (Text.encode "a 2\n")] := by
  have hfound : (run (workSettings "out") workRunner).found? (Session.start workplace)
      (fun summary after => (summary.results.map Result.outcome, after.calls)) =
        some ([.rendered (.of ⟨"./out"⟩ ⟨"./app.jfr"⟩) ⟨1, 2⟩],
          [dumpCall (workSettings "out") ⟨"./app.jfr"⟩,
            renderCall (workSettings "out") (Text.encode "a 2\n")]) := by
    unfold run runWith
    simp only [workSettings, convertAll]
    delta convertOne
    rw [Stack.fold_eq_tallied]
    decide +kernel
  obtain ⟨summary, after, hrun, hlook⟩ := Step.exists_of_found hfound
  obtain ⟨houtcomes, hmade⟩ := Prod.mk.inj hlook
  have hvalid : (workSettings "out").validate = .ok () := by decide +kernel
  have hscript : workplace.isFile (workSettings "out").rendererPath = true := by decide +kernel
  obtain ⟨told, visits, blocks, hanswer, htells, -, hblocks, hcalls⟩ :=
    ((run_calls (workSettings "out") workRunner (Session.start workplace)).2.2 hvalid hscript).1
      _ _ hrun
  cases hanswer
  exact ⟨hvalid, hscript, summary, visits, blocks, after, hrun, houtcomes, htells, hblocks, hcalls,
    hcalls.symm.trans hmade⟩

/-- The workplace with a device that keeps nothing in the place of the collapsed stacks. -/
def leakyWorkplace : FileSystem :=
  { workplace with
    nodes := workplace.nodes ++ [([Text.encode "out"], .directory),
      ([Text.encode "app_collapsed.txt", Text.encode "out"], .device .null)] }

/-- There the recording is rendered too, but the renderer is called without any of the bytes that
were written. -/
theorem null_device_not_fed :
    (workSettings "out").validate = .ok () ∧
    leakyWorkplace.isFile (workSettings "out").rendererPath = true ∧
    Collapse (workSettings "out") workRunner ⟨"./app.jfr"⟩ (Session.start leakyWorkplace)
      (Text.encode "a 2\n") leakyWorkplace ∧
    ∃ summary after,
      run (workSettings "out") workRunner (Session.start leakyWorkplace) =
        .ok (.ok summary) after ∧
      summary.results.map Result.outcome = [.rendered (.of ⟨"./out"⟩ ⟨"./app.jfr"⟩) ⟨1, 2⟩] ∧
      after.calls = [dumpCall (workSettings "out") ⟨"./app.jfr"⟩,
        renderCall (workSettings "out") []] := by
  have hbytes : Text.encode "a 2\n" = Output.collapsedBytes
      (Stack.fold "a\n\na\n\n" (workSettings "out").event).table := by
    rw [Stack.fold_eq_tallied]
    decide +kernel
  have hfound : (run (workSettings "out") workRunner).found? (Session.start leakyWorkplace)
      (fun summary after => (summary.results.map Result.outcome, after.calls)) =
        some ([.rendered (.of ⟨"./out"⟩ ⟨"./app.jfr"⟩) ⟨1, 2⟩],
          [dumpCall (workSettings "out") ⟨"./app.jfr"⟩, renderCall (workSettings "out") []]) := by
    unfold run runWith
    simp only [workSettings, convertAll]
    delta convertOne
    rw [Stack.fold_eq_tallied]
    decide +kernel
  obtain ⟨summary, after, hrun, hlook⟩ := Step.exists_of_found hfound
  obtain ⟨houtcomes, hmade⟩ := Prod.mk.inj hlook
  refine ⟨by decide +kernel, by decide +kernel, ⟨⟨_, ⟨_, rfl, rfl, ?_⟩, hbytes⟩, ?_⟩,
    summary, after, hrun, houtcomes, hmade⟩
  · decide +kernel
  · rfl

end FlameFold.Conversion
