import FlameFold.Proofs.Conversion.Asking

/-!
# What can break a run down

A run calls the dump tool for its recordings and the renderer script, all of them with the limit
of the settings. It completes unless it breaks down in such a call. The call is the last thing
that it does, and it has no summary then.
-/

namespace FlameFold.Conversion

variable {settings : Settings} {runner : Runner}

/-- What the run with these settings calls programs for. -/
def Calls (settings : Settings) (call : Program.Invocation) : Prop :=
  (∃ recording ∈ settings.recordings,
      call = dumpCall settings (settings.recordingPath recording)) ∨
    ∃ input, call = renderCall settings input

/-- All programs are called with the limit of the settings. -/
theorem Calls.limit {call : Program.Invocation} (h : Calls settings call) :
    call.limit = settings.timeout := by
  obtain ⟨recording, -, rfl⟩ | ⟨input, rfl⟩ := h <;> rfl

/-- The last thing that a run does that breaks down is to call a program. With the runner that
leaves everything as it is where the given one breaks down, the run ends in the session in which
the program is called. -/
theorem run_breaks {before after : Session} {breakdown : Breakdown}
    (h : run settings runner before = .error breakdown after) :
    ∃ (middle : Session) (call : Program.Invocation), Calls settings call ∧
      Session.call runner call middle = .error breakdown after ∧
      run settings runner.halting before =
        .error breakdown { middle with calls := middle.calls ++ [call] } := by
  have hrunner : runner.Keeping fun _ => True := fun _ _ _ _ => trivial
  have hsaved : Output.Keeping fun _ => True := fun _ _ _ _ => trivial
  have hagrees := runner.agrees_halting fun _ call => Calls settings call
  have hdump : ∀ recording ∈ settings.recordings, ∀ files : FileSystem, True →
      Calls settings (dumpCall settings (settings.recordingPath recording)) :=
    fun recording hmem _ _ => .inl ⟨recording, hmem, rfl⟩
  have hasks := run_alike hrunner hsaved hagrees hdump fun input _ _ => .inr ⟨input, rfl⟩
  obtain ⟨middle, call, hcall, hlast, hhalting⟩ := hasks.breaks before breakdown after trivial h
  exact ⟨middle, call, hcall, hlast, hhalting _ _ (Step.call_halting hlast)⟩

/-- A run with a summary has one result for each recording of the settings. -/
theorem run_results {before after : Session} {summary : Summary}
    (h : run settings runner before = .ok (.ok summary) after) :
    summary.results.map Result.recording = settings.recordings := by
  obtain ⟨hvalid, hscript⟩ := run_started h
  obtain ⟨told, visits, hanswer, htells⟩ := (run_follows hvalid hscript runner).of_ok h
  obtain rfl : summary = told := Except.ok.inj hanswer
  rw [htells.results, ← htells.recordings, List.map_map]
  rfl

/-- With valid settings and the renderer script there, a run has a summary or breaks down. -/
theorem run_completes {before : Session} (hvalid : settings.validate = .ok ())
    (hscript : before.files.isFile settings.rendererPath = true) (runner : Runner) :
    (∃ summary after, run settings runner before = .ok (.ok summary) after) ∨
      ∃ breakdown after, run settings runner before = .error breakdown after := by
  cases hrun : run settings runner before with
  | error breakdown after => exact .inr ⟨breakdown, after, rfl⟩
  | ok answer after =>
    obtain ⟨summary, -, rfl, -⟩ := (run_follows hvalid hscript runner).of_ok hrun
    exact .inl ⟨summary, after, rfl⟩

/-- With valid settings and the renderer script there, what comes of converting the recordings
in turn decides what comes of the run. -/
theorem run_of_converted {before : Session} (hvalid : settings.validate = .ok ())
    (hscript : before.files.isFile settings.rendererPath = true) (runner : Runner) :
    ∃ first : Session, first.files = before.files ∧
      (∀ breakdown after, convertAll settings runner (rendererOf settings settings.rendererPath)
          settings.recordings first = .error breakdown after →
        run settings runner before = .error breakdown after) ∧
      ∀ results after, convertAll settings runner (rendererOf settings settings.rendererPath)
          settings.recordings first = .ok results after →
        ∃ summary last, run settings runner before = .ok (.ok summary) last ∧
          summary.results = results := by
  have hfind : findRenderer settings before.files = .ok settings.rendererPath := by
    simp [findRenderer, hscript]
  obtain ⟨first, hfirst, hfiles, -⟩ := Step.note_gives .debug .conversion
    ("Using FlameGraph script at " ++ settings.rendererPath.text) before
  have hrun : run settings runner before =
      (runWith settings runner settings.rendererPath >>= fun summary => return .ok summary)
        before := by
    unfold run
    rw [hvalid]
    have hview : Session.view (findRenderer settings) before = .ok _ before := rfl
    refine (Step.bind_ok hview).trans ?_
    rw [hfind]
  refine ⟨first, hfiles, fun breakdown after hall => ?_, fun results after hall => ?_⟩
  · rw [hrun]
    exact Step.bind_error ((Step.bind_ok hfirst).trans (Step.bind_error hall))
  · obtain ⟨listed, hlisted, -, -⟩ := listGraphics_gives settings.outputPath after
    rw [hrun]
    refine ⟨_, _, Step.bind_ok ((Step.bind_ok hfirst).trans ((Step.bind_ok hall).trans
      ((Step.bind_ok hlisted).trans rfl))), rfl⟩

end FlameFold.Conversion
