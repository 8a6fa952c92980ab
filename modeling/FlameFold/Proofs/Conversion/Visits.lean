import FlameFold.Proofs.Conversion.Course

/-!
# The visits of a run

A run visits its recordings in turn, and converts each of them in the session that the visit
before it left. What holds of a run is told visit by visit.
-/

namespace FlameFold.Conversion

/-- The conversion of one recording in a run. -/
structure Visit where
  /-- The recording. -/
  recording : Recording
  /-- The session that it was converted in. -/
  before : Session
  /-- What became of it. -/
  outcome : Outcome
  /-- The session that its conversion left. -/
  after : Session

/-- What the summary of a run tells of a visit. -/
def Visit.result (settings : Settings) (visit : Visit) : Result :=
  ⟨visit.recording, settings.recordingPath visit.recording, visit.outcome⟩

/-- The visits lead from one session to another: each begins where the one before it ended,
and ends with the outcome and the session of the conversion of its recording. -/
def Visits (settings : Settings) (runner : Runner) (renderer : Render.Renderer) :
    List Visit → Session → Session → Prop
  | [], first, last => first = last
  | visit :: rest, first, last =>
    visit.before = first ∧
      convertOne settings runner renderer visit.recording
        (settings.recordingPath visit.recording) visit.before = .ok visit.outcome visit.after ∧
      Visits settings runner renderer rest visit.after last

/-- Visits can be looked at from the middle on. -/
theorem Visits.split {settings : Settings} {runner : Runner} {renderer : Render.Renderer}
    {earlier later : List Visit} {first last : Session}
    (h : Visits settings runner renderer (earlier ++ later) first last) :
    ∃ middle, Visits settings runner renderer earlier first middle ∧
      Visits settings runner renderer later middle last := by
  induction earlier generalizing first with
  | nil => exact ⟨first, rfl, h⟩
  | cons visit rest ih =>
    obtain ⟨hbefore, hstep, hrest⟩ := h
    obtain ⟨middle, hearlier, hlater⟩ := ih hrest
    exact ⟨middle, ⟨hbefore, hstep, hearlier⟩, hlater⟩

/-- Converting recordings in turn visits each of them, and the results tell of the visits. -/
theorem convertAll_follows (settings : Settings) (runner : Runner) (renderer : Render.Renderer)
    (recordings : List Recording) (before : Session) :
    Step.Follows runner (convertAll settings runner renderer recordings) before
      fun results files calls => ∃ visits last,
        Visits settings runner renderer visits before last ∧
          visits.map Visit.recording = recordings ∧ results = visits.map (Visit.result settings) ∧
          last.files = files ∧ last.calls = calls := by
  induction recordings generalizing before with
  | nil => exact Step.follows_pure ⟨[], before, rfl, rfl, rfl, rfl, rfl⟩
  | cons recording rest ih =>
    unfold convertAll
    refine (convertOne_follows settings runner renderer recording _ before).bind
      fun outcome middle hstep _ => ?_
    refine (ih middle).bind fun results after _ hrest => ?_
    obtain ⟨visits, last, hvisits, hrecordings, hresults, hfiles, hcalls⟩ := hrest
    refine Step.follows_pure
      ⟨⟨recording, before, outcome, middle⟩ :: visits, last, ⟨rfl, hstep, hvisits⟩, ?_, ?_,
        hfiles, hcalls⟩
    · rw [List.map_cons, hrecordings]
    · rw [List.map_cons, hresults]
      rfl

/-- The visits that a run makes from a session on until the files and calls given, and the
summary that tells of them. -/
structure Tells (settings : Settings) (runner : Runner) (before : Session) (summary : Summary)
    (visits : List Visit) (files : FileSystem) (calls : List Program.Invocation) : Prop where
  /-- The visits start from the files and calls before the run and end with those after it. -/
  chain : ∃ first last, first.files = before.files ∧ first.calls = before.calls ∧
    Visits settings runner (rendererOf settings settings.rendererPath) visits first last ∧
    last.files = files ∧ last.calls = calls
  /-- Each recording of the settings is visited once, in their order. -/
  recordings : visits.map Visit.recording = settings.recordings
  /-- There is one result for each visit. -/
  results : summary.results = visits.map (Visit.result settings)

/-- The flame graphs in a directory; none if it cannot be listed. -/
def graphicsIn (files : FileSystem) (directory : Path) : List Path :=
  (Output.listGraphics files directory).toOption.getD []

/-- Listing the flame graphs calls no program and changes no file. -/
theorem listGraphics_gives (directory : Path) (before : Session) :
    (listGraphics directory).Gives before (graphicsIn before.files directory) before.files := by
  unfold listGraphics graphicsIn
  refine (Step.view_gives (Output.listGraphics · directory) before).bind fun looked hl => ?_
  cases Output.listGraphics before.files directory with
  | ok graphics => exact hl ▸ Step.pure_gives _ looked
  | error cause =>
    exact (Step.note_gives _ _ _ looked).bind fun noted hn =>
      (hn.trans hl) ▸ Step.pure_gives _ noted

/-- A run with a renderer script does nothing but visit its recordings and tell of it, with
the flame graphs that are in the output directory at its end. -/
theorem runWith_lists (settings : Settings) (runner : Runner) (before : Session) :
    Step.Follows runner (runWith settings runner settings.rendererPath) before
      fun summary files calls => summary.graphics = graphicsIn files settings.outputPath ∧
        ∃ visits, Tells settings runner before summary visits files calls := by
  unfold runWith
  refine (Step.note_gives _ _ _ before).follows fun first hfirst hcalls => ?_
  refine (convertAll_follows settings runner _ _ first).bind fun results converted _ h => ?_
  obtain ⟨visits, last, hvisits, hrecordings, hresults, hlast, hmore⟩ := h
  refine (listGraphics_gives settings.outputPath converted).follows fun listed hlisted hsame => ?_
  refine (Step.printBytes_gives _ listed).follows fun printed hp hp' => ?_
  refine (Step.timeWaited_gives printed).follows fun timed ht ht' => ?_
  refine (Step.note_gives _ _ _ timed).follows fun noted hn hn' => ?_
  have hfiles : noted.files = converted.files := by rw [hn, ht, hp, hlisted]
  refine Step.follows_pure ⟨by rw [hfiles],
    visits, ⟨first, last, hfirst, hcalls, hvisits, ?_, ?_⟩, hrecordings, hresults⟩
  · rw [hlast, hfiles]
  · rw [hmore, hn', ht', hp', hsame]

/-- Settings that make no run are refused before anything is done. -/
theorem run_invalid {settings : Settings} {shortcoming : Settings.Shortcoming}
    (h : settings.validate = .error shortcoming) (runner : Runner) (before : Session) :
    run settings runner before = .ok (.error (.invalid shortcoming.reason)) before := by
  simp only [run, h]
  rfl

/-- Without the renderer script the run is refused before anything is done. -/
theorem run_rendererMissing {settings : Settings} {before : Session}
    (hvalid : settings.validate = .ok ())
    (h : before.files.isFile settings.rendererPath = false) (runner : Runner) :
    run settings runner before = .ok (.error (.rendererMissing settings.rendererPath)) before := by
  have hfind : findRenderer settings before.files =
      .error (.rendererMissing settings.rendererPath) := by
    simp [findRenderer, h]
  simp only [run, hvalid, bind, EStateM.bind, Session.view, hfind]
  rfl

/-- A run with a summary has started with valid settings and the renderer script. -/
theorem run_started {settings : Settings} {runner : Runner} {before after : Session}
    {summary : Summary} (h : run settings runner before = .ok (.ok summary) after) :
    settings.validate = .ok () ∧ before.files.isFile settings.rendererPath = true := by
  cases hvalid : settings.validate with
  | error shortcoming =>
    rw [run_invalid hvalid] at h
    cases h
  | ok _ =>
    cases hscript : before.files.isFile settings.rendererPath with
    | false =>
      rw [run_rendererMissing hvalid hscript] at h
      cases h
    | true => exact ⟨rfl, rfl⟩

/-- With valid settings and the renderer script there, the run visits its recordings and lists
the flame graphs that are in the output directory at its end. -/
theorem run_lists {settings : Settings} {before : Session}
    (hvalid : settings.validate = .ok ())
    (h : before.files.isFile settings.rendererPath = true) (runner : Runner) :
    Step.Follows runner (run settings runner) before fun answer files calls =>
      ∃ summary, answer = .ok summary ∧
        summary.graphics = graphicsIn files settings.outputPath ∧
        ∃ visits, Tells settings runner before summary visits files calls := by
  have hfind : findRenderer settings before.files = .ok settings.rendererPath := by
    simp [findRenderer, h]
  unfold run
  rw [hvalid]
  refine (Step.view_gives _ before).follows fun looked hfiles hcalls => ?_
  rw [hfind]
  refine (runWith_lists settings runner looked).bind fun summary after _ htells => ?_
  obtain ⟨hgraphics, visits, ⟨first, last, hfirst, hfirst', hrest⟩, hrecordings, hresults⟩ := htells
  exact Step.follows_pure ⟨summary, rfl, hgraphics, visits,
    ⟨first, last, hfirst.trans hfiles, hfirst'.trans hcalls, hrest⟩, hrecordings, hresults⟩

/-- With valid settings and the renderer script there, the run visits its recordings. -/
theorem run_follows {settings : Settings} {before : Session}
    (hvalid : settings.validate = .ok ())
    (h : before.files.isFile settings.rendererPath = true) (runner : Runner) :
    Step.Follows runner (run settings runner) before fun answer files calls =>
      ∃ summary visits, answer = .ok summary ∧
        Tells settings runner before summary visits files calls :=
  (run_lists hvalid h runner).mono fun _ _ _ ⟨summary, hanswer, _, visits, htells⟩ =>
    ⟨summary, visits, hanswer, htells⟩

end FlameFold.Conversion
