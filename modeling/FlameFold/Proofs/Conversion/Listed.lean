import FlameFold.Proofs.Conversion.Outcomes
import FlameFold.Proofs.Conversion.Visits
import FlameFold.Proofs.FileSystem.Keeping
import FlameFold.Proofs.Output.Listing

/-!
# What is rendered is listed

The flame graphs are listed after the last recording was converted. A flame graph that was
rendered still stands there then, and the listing looks for it in the directory that it was
joined to. They miss each other only where the output directory is the path without any text:
names joined to it lead on from the working directory, which the path itself does not lead to.
-/

namespace FlameFold

/-- The programs called take nothing away, and put no directory where something else
stands. -/
def Runner.TakesNothing (runner : Runner) : Prop :=
  ∀ (files : FileSystem) calls invocation, files.Keeps (runner files calls invocation).files

/-- Programs that change no file take nothing away. -/
theorem Runner.KeepsFiles.takesNothing {runner : Runner} (h : runner.KeepsFiles) :
    runner.TakesNothing := fun files calls invocation => by
  rw [h files calls invocation]
  exact .refl files

/-- Saving takes nothing away, and where it succeeds the path leads to something that took the
content. -/
theorem Output.saved_keeps {files after : FileSystem} {p : Path} {content : List UInt8}
    {result : Except Failure Unit} (h : saved files p content = (after, result)) :
    files.Keeps after ∧ (result = .ok () → after.Occupied p) := by
  cases result with
  | error failure => exact ⟨(saved_error h).keeps, fun h => by cases h⟩
  | ok _ =>
    obtain ⟨made, hplaced, hwrite⟩ := saved_ok h
    obtain ⟨hkeeps, hoccupied⟩ := FileSystem.write_keeps hwrite
    exact ⟨(placed_grown hplaced).1.keeps.trans hkeeps, fun _ => hoccupied⟩

/-- Rendering takes nothing away, and where it succeeds the path of the flame graph leads to
something that took it. -/
theorem Render.Course.keeps {runner : Runner} {renderer : Renderer} {collapsed graphic : Path}
    {files after : FileSystem} {calls more : List Program.Invocation}
    {result : Except Failure Unit}
    (h : Course runner renderer collapsed graphic files calls result after more)
    (hrunner : runner.TakesNothing) :
    files.Keeps after ∧ (result = .ok () → after.Occupied graphic) := by
  cases h with
  | unread => exact ⟨.refl _, fun h => by cases h⟩
  | notRun => exact ⟨hrunner _ _ _, fun h => by cases h⟩
  | failed => exact ⟨hrunner _ _ _, fun h => by cases h⟩
  | @printed _ _ _ saved _ _ _ hsaved =>
    obtain ⟨hkeeps, hoccupied⟩ := Output.saved_keeps hsaved
    refine ⟨(hrunner _ _ _).trans hkeeps, fun hok => hoccupied ?_⟩
    cases saved with
    | error failure => cases hok
    | ok _ => rfl

namespace Conversion

/-- The outcome tells of a flame graph only if it is the one of the recording and something at
its path took it. -/
def Outcome.Shown (settings : Settings) (path : Path) (files : FileSystem) (outcome : Outcome) :
    Prop :=
  ∀ artifacts counts, outcome = .rendered artifacts counts →
    artifacts = .of settings.outputPath path ∧ files.Occupied artifacts.graphic

/-- What an outcome tells of a flame graph stays true where nothing is taken away. -/
theorem Outcome.Shown.keeps {settings : Settings} {path : Path} {files after : FileSystem}
    {outcome : Outcome} (h : outcome.Shown settings path files) (hkeeps : files.Keeps after) :
    outcome.Shown settings path after := fun artifacts counts houtcome =>
  ⟨(h artifacts counts houtcome).1, hkeeps.occupied (h artifacts counts houtcome).2⟩

/-- Converting a recording takes nothing away, and the flame graph that its outcome tells of
is there. -/
theorem Course.keeps {settings : Settings} {runner : Runner} {renderer : Render.Renderer}
    {path : Path} {files after : FileSystem} {calls more : List Program.Invocation}
    {outcome : Outcome}
    (h : Course settings runner renderer path files calls outcome after more)
    (hrunner : runner.TakesNothing) :
    files.Keeps after ∧ outcome.Shown settings path after := by
  cases h with
  | absent => exact ⟨.refl _, fun _ _ h => by cases h⟩
  | undumped => exact ⟨hrunner _ _ _, fun _ _ h => by cases h⟩
  | unwritten _ _ _ hsaved =>
    exact ⟨(hrunner _ _ _).trans (Output.saved_keeps hsaved).1, fun _ _ h => by cases h⟩
  | @written _ _ _ result _ _ _ _ _ hsaved hrender =>
    obtain ⟨hkeeps, hoccupied⟩ := hrender.keeps hrunner
    refine ⟨((hrunner _ _ _).trans (Output.saved_keeps hsaved).1).trans hkeeps,
      fun artifacts counts houtcome => ?_⟩
    cases result with
    | error failure => cases houtcome
    | ok _ =>
      cases houtcome
      exact ⟨rfl, hoccupied rfl⟩

/-- Visits take nothing away, and at their end every flame graph that their outcomes tell of
is there. -/
theorem Visits.keeps {settings : Settings} {runner : Runner} {renderer : Render.Renderer}
    {visits : List Visit} {first last : Session}
    (h : Visits settings runner renderer visits first last) (hrunner : runner.TakesNothing) :
    first.files.Keeps last.files ∧ ∀ visit ∈ visits,
      visit.outcome.Shown settings (settings.recordingPath visit.recording) last.files := by
  induction visits generalizing first with
  | nil =>
    obtain rfl : first = last := h
    exact ⟨.refl _, by simp⟩
  | cons visit rest ih =>
    obtain ⟨rfl, hstep, hrest⟩ := h
    obtain ⟨hfirst, hshown⟩ := ((convertOne_follows ..).of_ok hstep).keeps hrunner
    obtain ⟨hlater, hothers⟩ := ih hrest
    exact ⟨hfirst.trans hlater,
      List.forall_mem_cons.mpr ⟨hshown.keeps hlater, hothers⟩⟩

/-- The flame graph of every recording that a summary calls rendered is among the flame graphs
that the summary lists, unless a device stands at its path, if the path of the output directory
has a text. Without a text none is listed. -/
theorem run_lists_rendered {settings : Settings} {runner : Runner} {before after : Session}
    {summary : Summary} (hrunner : runner.TakesNothing)
    (h : run settings runner before = .ok (.ok summary) after) :
    (settings.outputPath.text ≠ "" → ∀ result ∈ summary.results, ∀ artifacts counts,
        result.outcome = .rendered artifacts counts →
          artifacts.graphic ∈ summary.graphics ∨
            ∃ device, after.files.find? artifacts.graphic = some (.device device)) ∧
      (settings.outputPath.text = "" → summary.graphics = []) := by
  obtain ⟨hvalid, hscript⟩ := run_started h
  obtain ⟨told, hanswer, hgraphics, visits, htells⟩ := (run_lists hvalid hscript runner).of_ok h
  obtain rfl : summary = told := Except.ok.inj hanswer
  obtain ⟨first, last, -, -, hvisits, hlast, -⟩ := htells.chain
  rw [hgraphics, graphicsIn]
  refine ⟨fun hdirectory result hresult artifacts counts houtcome => ?_, fun hempty => ?_⟩
  · rw [htells.results] at hresult
    obtain ⟨visit, hvisit, rfl⟩ := List.mem_map.mp hresult
    obtain ⟨rfl, hoccupied⟩ := (hvisits.keeps hrunner).2 visit hvisit artifacts counts houtcome
    rw [hlast] at hoccupied
    refine hoccupied.isFile_or_device.imp_left fun hfile => ?_
    obtain ⟨graphics, hlist, hmem⟩ := Output.listGraphics_lists hdirectory hfile
    rw [hlist]
    exact hmem
  · rw [Output.listGraphics_empty _ hempty]
    rfl

/-- In the workplace the flame graph is rendered and listed. -/
theorem run_lists_rendered_workplace : workRunner.TakesNothing ∧
    (workSettings "out").outputPath.text ≠ "" ∧ ∃ summary after,
      run (workSettings "out") workRunner (Session.start workplace) = .ok (.ok summary) after ∧
      summary.renderedCount = 1 ∧ ⟨"./out/app_flamegraph.svg"⟩ ∈ summary.graphics := by
  let artifacts := Recording.Artifacts.of ⟨"./out"⟩ ⟨"./app.jfr"⟩
  have hfound : (run (workSettings "out") workRunner).found? (Session.start workplace)
      (fun summary after => (summary.renderedCount, summary.results.head?.map Result.outcome,
        after.files.find? artifacts.graphic)) =
      some (1, some (.rendered artifacts ⟨1, 2⟩),
        some (.file (Text.encode "<svg/>") false)) := by
    unfold run runWith
    simp only [workSettings, convertAll]
    delta convertOne
    rw [Stack.fold_eq_tallied]
    decide +kernel
  obtain ⟨summary, after, hrun, hlook⟩ := Step.exists_of_found hfound
  obtain ⟨hcount, houtcome, hfile⟩ : _ ∧ _ ∧ _ := by simpa only [Prod.mk.injEq] using hlook
  obtain ⟨result, hresult, hrendered⟩ := Option.map_eq_some_iff.mp houtcome
  have hrunner : workRunner.TakesNothing := (Runner.prepared_keepsFiles _).takesNothing
  have hdirectory : (workSettings "out").outputPath.text ≠ "" := by decide +kernel
  refine ⟨hrunner, hdirectory, summary, after, hrun, hcount, ?_⟩
  obtain hlisted | ⟨device, hdevice⟩ := (run_lists_rendered hrunner hrun).1 hdirectory result
    (List.mem_of_mem_head? hresult) _ _ hrendered
  · exact hlisted
  · rw [hfile] at hdevice
    cases hdevice

/-- Where neither a root directory nor an output directory is named, the flame graph is saved in
the working directory and the recording is called rendered, but no flame graph is listed. -/
theorem rendered_not_listed :
    ¬∀ (settings : Settings) (runner : Runner) (before after : Session) (summary : Summary),
      before.files.Plain → runner.KeepsFiles →
      run settings runner before = .ok (.ok summary) after →
      ∀ result ∈ summary.results, ∀ artifacts counts,
        result.outcome = .rendered artifacts counts → artifacts.graphic ∈ summary.graphics := by
  intro h
  let settings : Settings := { workSettings "" with root := ⟨""⟩ }
  have hfound : (run settings workRunner).found? (Session.start workplace)
      (fun summary _ => (summary.results.head?.map Result.outcome, summary.graphics)) =
      some (some (.rendered (.of ⟨""⟩ ⟨"app.jfr"⟩) ⟨1, 2⟩), []) := by
    unfold run runWith
    simp only [settings, workSettings, convertAll]
    delta convertOne
    rw [Stack.fold_eq_tallied]
    decide +kernel
  obtain ⟨summary, after, hrun, hlook⟩ := Step.exists_of_found hfound
  obtain ⟨houtcome, hgraphics⟩ := Prod.mk.inj hlook
  obtain ⟨result, hresult, hrendered⟩ := Option.map_eq_some_iff.mp houtcome
  have hlisted := h settings workRunner _ after summary workplace_plain
    (Runner.prepared_keepsFiles _) hrun result (List.mem_of_mem_head? hresult) _ _ hrendered
  rw [hgraphics] at hlisted
  cases hlisted

end Conversion

end FlameFold
