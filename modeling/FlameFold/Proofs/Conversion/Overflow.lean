import FlameFold.Proofs.Conversion.Breakdown
import FlameFold.Proofs.Program.System

/-!
# Limits beyond the end of the clock

With such a limit a run breaks down in the first call whose program is started. Until then no
file changes, because the calls are refused, so the files before the run say whether there is
such a call: one of the recordings is there, and the dump tool is started for it.
-/

namespace FlameFold.Dump

variable {runner : Runner} {before : Session}

/-- A tool that gives nothing gives no dump, and leaves the files that the runner leaves. -/
theorem dump_refused (request : Request) {failure : Program.Failure}
    (hcall : (runner before.files before.calls request.invocation).result =
      .ok (.error failure)) :
    ∃ after, dump runner request before = .ok (.error (.notRun failure)) after ∧
      after.files = (runner before.files before.calls request.invocation).files := by
  simp only [dump, bind, EStateM.bind, Session.note, Session.noteAll, Session.call, hcall]
  exact ⟨_, rfl, rfl⟩

/-- A runner that breaks down in the call of the tool breaks the run down. -/
theorem dump_breaks (request : Request) {breakdown : Breakdown}
    (hcall : (runner before.files before.calls request.invocation).result = .error breakdown) :
    ∃ after, dump runner request before = .error breakdown after := by
  simp only [dump, bind, EStateM.bind, Session.note, Session.noteAll, Session.call, hcall]
  exact ⟨_, rfl⟩

end FlameFold.Dump

namespace FlameFold.Conversion

/-- The recording is there, and the dump tool is started for it. -/
def Dumpable (system : Program.System) (settings : Settings) (files : FileSystem)
    (recording : Recording) : Prop :=
  files.pathExists (settings.recordingPath recording) = true ∧
    system.Starts files (dumpCall settings (settings.recordingPath recording))

/-- The recording is not there, or the dump tool is refused for it. -/
def Undumpable (system : Program.System) (settings : Settings) (files : FileSystem)
    (recording : Recording) : Prop :=
  files.pathExists (settings.recordingPath recording) = true →
    system.Refuses files (dumpCall settings (settings.recordingPath recording))

/-- Nothing was written for the recording. -/
def Outcome.IsIdle (outcome : Outcome) : Prop :=
  outcome = .skipped ∨ ∃ error, outcome = .dumpFailed error

section

variable {settings : Settings} {runner : Runner} {renderer : Render.Renderer} {path : Path}
  {before : Session}

/-- A recording that is not there is skipped. -/
theorem convertOne_absent (h : before.files.pathExists path = false) (recording : Recording) :
    (convertOne settings runner renderer recording path).Gives before .skipped before.files := by
  unfold convertOne
  refine (Step.view_gives (·.pathExists path) before).bind fun looked hl => ?_
  rw [h, if_neg Bool.false_ne_true]
  exact (Step.note_gives _ _ _ looked).bind fun noted hn =>
    (hn.trans hl) ▸ Step.pure_gives _ noted

/-- What the dump of a recording that is there comes to decides the conversion, if there is no
dump. -/
theorem convertOne_there (h : before.files.pathExists path = true) (renderer : Render.Renderer)
    (recording : Recording) :
    ∃ noted : Session, noted.files = before.files ∧ noted.calls = before.calls ∧
      (∀ failure dumped,
        Dump.dump runner (dumpRequest settings path) noted = .ok (.error failure) dumped →
        ∃ after, convertOne settings runner renderer recording path before =
          .ok (.dumpFailed failure.message) after ∧ after.files = dumped.files) ∧
      ∀ breakdown after,
        Dump.dump runner (dumpRequest settings path) noted = .error breakdown after →
        convertOne settings runner renderer recording path before = .error breakdown after := by
  obtain ⟨noted, hnoted, hfiles, hcalls⟩ :=
    Step.note_gives .info .conversion ("Processing " ++ recording.label ++ "...") before
  have hview : Session.view (·.pathExists path) before = .ok _ before := rfl
  refine ⟨noted, hfiles, hcalls, fun failure dumped hdump => ?_, fun breakdown after hdump => ?_⟩
  · obtain ⟨after, hafter, hleft, -⟩ := noteDumpFailure_gives settings.dumpTool failure dumped
    refine ⟨after, ?_, hleft⟩
    unfold convertOne
    refine (Step.bind_ok hview).trans ((congrFun (if_pos h) before).trans ?_)
    exact (Step.bind_ok hnoted).trans ((Step.bind_ok hdump).trans (Step.bind_ok hafter))
  · unfold convertOne
    refine (Step.bind_ok hview).trans ((congrFun (if_pos h) before).trans ?_)
    exact (Step.bind_ok hnoted).trans (Step.bind_error hdump)

/-- A recording for which the dump tool gives nothing leaves the files that the runner
leaves. -/
theorem convertOne_refused {failure : Program.Failure} (h : before.files.pathExists path = true)
    (hcall : (runner before.files before.calls (dumpCall settings path)).result =
      .ok (.error failure)) (renderer : Render.Renderer) (recording : Recording) :
    ∃ error after, convertOne settings runner renderer recording path before =
        .ok (.dumpFailed error) after ∧
      after.files = (runner before.files before.calls (dumpCall settings path)).files := by
  obtain ⟨noted, hfiles, hcalls, hrefused, -⟩ := convertOne_there h renderer recording
  rw [← hfiles, ← hcalls] at hcall ⊢
  obtain ⟨dumped, hdump, hleft⟩ := Dump.dump_refused (dumpRequest settings path) hcall
  obtain ⟨after, hstep, hsame⟩ := hrefused _ dumped hdump
  exact ⟨_, after, hstep, hsame.trans hleft⟩

/-- Where the runner breaks down in the call of the dump tool, the conversion does. -/
theorem convertOne_breaks {breakdown : Breakdown} (h : before.files.pathExists path = true)
    (hcall : (runner before.files before.calls (dumpCall settings path)).result =
      .error breakdown) (recording : Recording) :
    ∃ after, convertOne settings runner renderer recording path before =
      .error breakdown after := by
  obtain ⟨noted, hfiles, hcalls, -, hbreaks⟩ := convertOne_there h renderer recording
  rw [← hfiles, ← hcalls] at hcall
  obtain ⟨after, hdump⟩ := Dump.dump_breaks (dumpRequest settings path) hcall
  exact ⟨after, hbreaks breakdown after hdump⟩

variable {system : Program.System} {limit : Duration}

/-- What the conversion of a recording comes to with a limit beyond the end of the clock. Where
the dump tool is started it breaks down. Otherwise nothing is written, and no file is changed. -/
theorem convertOne_overflow (hlimit : settings.timeout = some limit)
    (hpasses : system.PassesClock limit) (renderer : Render.Renderer) (recording : Recording)
    (before : Session) :
    (¬Undumpable system settings before.files recording ∧ ∃ after,
      convertOne settings system.runner renderer recording (settings.recordingPath recording)
        before = .error .clockOverflow after) ∨
    (¬Dumpable system settings before.files recording ∧ ∃ outcome after,
      convertOne settings system.runner renderer recording (settings.recordingPath recording)
        before = .ok outcome after ∧ outcome.IsIdle ∧ after.files = before.files) := by
  cases hthere : before.files.pathExists (settings.recordingPath recording) with
  | false =>
    have hskipped : (convertOne settings system.runner renderer recording
        (settings.recordingPath recording)).Gives before .skipped before.files :=
      convertOne_absent hthere recording
    obtain ⟨after, hstep, hfiles, -⟩ := hskipped
    have hnot : ¬Dumpable system settings before.files recording :=
      fun hdumpable => Bool.false_ne_true (hthere.symm.trans hdumpable.1)
    exact .inr ⟨hnot, _, after, hstep, .inl rfl, hfiles⟩
  | true =>
    cases hanswer : system before.files before.calls
        (dumpCall settings (settings.recordingPath recording)) with
    | error cause =>
      obtain ⟨hkept, hcall⟩ := Program.System.runner_refused hanswer
      obtain ⟨error, after, hstep, hfiles⟩ := convertOne_refused hthere hcall renderer recording
      refine .inr ⟨?_, _, after, hstep, .inr ⟨error, rfl⟩, hfiles.trans hkept⟩
      rintro ⟨-, hstarts⟩
      obtain ⟨started, hstarted⟩ := hstarts before.calls
      rw [hanswer] at hstarted
      cases hstarted
    | ok started =>
      have hcall := Program.System.runner_overflow hanswer hlimit
        (hpasses _ _ _ started hanswer)
      refine .inl ⟨?_, convertOne_breaks hthere hcall recording⟩
      intro hundumpable
      obtain ⟨cause, hcause⟩ := hundumpable hthere before.calls
      rw [hanswer] at hcause
      cases hcause

/-- With such a limit converting recordings in turn breaks down if the dump tool is started for
one of them, and otherwise nothing is written for any of them. -/
theorem convertAll_overflow (hlimit : settings.timeout = some limit)
    (hpasses : system.PassesClock limit) (renderer : Render.Renderer)
    (recordings : List Recording) (before : Session) :
    ((∃ recording ∈ recordings, Dumpable system settings before.files recording) → ∃ after,
      convertAll settings system.runner renderer recordings before =
        .error .clockOverflow after) ∧
    ((∀ recording ∈ recordings, Undumpable system settings before.files recording) →
      ∃ results after,
        convertAll settings system.runner renderer recordings before = .ok results after ∧
          ∀ result ∈ results, result.outcome.IsIdle) := by
  induction recordings generalizing before with
  | nil => exact ⟨by simp, fun _ => ⟨[], before, rfl, by simp⟩⟩
  | cons recording rest ih =>
    obtain ⟨hstarted, after, hstep⟩ | ⟨hrefused, outcome, middle, hstep, hidle, hfiles⟩ :=
      convertOne_overflow hlimit hpasses renderer recording before
    · refine ⟨fun _ => ⟨after, Step.bind_error hstep⟩, fun hall => ?_⟩
      exact absurd (hall recording List.mem_cons_self) hstarted
    · obtain ⟨hbreaks, hends⟩ := ih middle
      rw [hfiles] at hbreaks hends
      constructor
      · intro hsome
        rw [List.exists_mem_cons_iff] at hsome
        obtain ⟨after, hrest⟩ := hbreaks (hsome.resolve_left hrefused)
        exact ⟨after, (Step.bind_ok hstep).trans (Step.bind_error hrest)⟩
      · intro hall
        obtain ⟨results, after, hrest, hresults⟩ := hends (List.forall_mem_cons.mp hall).2
        exact ⟨_, after, (Step.bind_ok hstep).trans (Step.bind_ok hrest),
          List.forall_mem_cons.mpr ⟨hidle, hresults⟩⟩

/-- With such a limit a run breaks down if the dump tool is started for one of its recordings. If
it is not there or refused for all of them, the run completes and nothing was written. -/
theorem run_overflow (hvalid : settings.validate = .ok ())
    (hscript : before.files.isFile settings.rendererPath = true)
    (hlimit : settings.timeout = some limit) (hpasses : system.PassesClock limit) :
    ((∃ recording ∈ settings.recordings, Dumpable system settings before.files recording) →
      ∃ after, run settings system.runner before = .error .clockOverflow after) ∧
    ((∀ recording ∈ settings.recordings, Undumpable system settings before.files recording) →
      ∃ summary after, run settings system.runner before = .ok (.ok summary) after ∧
        ∀ result ∈ summary.results, result.outcome.IsIdle) := by
  obtain ⟨first, hfiles, hbreaks, hends⟩ := run_of_converted hvalid hscript system.runner
  obtain ⟨hsome, hnone⟩ := convertAll_overflow hlimit hpasses
    (rendererOf settings settings.rendererPath) settings.recordings first
  rw [hfiles] at hsome hnone
  constructor
  · intro hdumpable
    obtain ⟨after, hall⟩ := hsome hdumpable
    exact ⟨after, hbreaks _ _ hall⟩
  · intro hundumpable
    obtain ⟨results, after, hall, hidle⟩ := hnone hundumpable
    obtain ⟨summary, last, hrun, rfl⟩ := hends results after hall
    exact ⟨summary, last, hrun, hidle⟩

end

end FlameFold.Conversion
