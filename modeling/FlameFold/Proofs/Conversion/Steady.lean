import FlameFold.Proofs.Conversion.Lasting

/-!
# Steady programs

A runner is steady if it answers each call by the call alone and no program changes a file.
Then what becomes of a recording depends on nothing but the files at the time: not on the calls
made before, and not on the recordings converted before, except through the files they left.
What a run gives, leaves and calls can then be told from its recordings and its files alone.
-/

namespace FlameFold

/-- What a runner answers to each call. -/
abbrev Answering := Program.Invocation → Except Program.Failure Program.Output

/-- The runner answers each call by the call alone, and no program changes a file. -/
structure Runner.Steady (runner : Runner) (answer : Answering) : Prop where
  /-- The programs called change no file. -/
  files : runner.KeepsFiles
  /-- The answer is that to the call. -/
  result : ∀ files calls invocation,
    (runner files calls invocation).result = .ok (answer invocation)

/-- The runner that gives the same answer at once whenever it gets the same call. -/
def Runner.steady (answer : Answering) : Runner :=
  fun files _ invocation => ⟨files, [], ⟨0⟩, .ok (answer invocation)⟩

theorem Runner.steady_steady (answer : Answering) : (Runner.steady answer).Steady answer :=
  ⟨fun _ _ _ => rfl, fun _ _ _ => rfl⟩

/-- A steady runner brings every call to an end. -/
theorem Runner.Steady.answers {runner : Runner} {answer : Answering}
    (h : runner.Steady answer) : runner.Answers :=
  fun files calls invocation => ⟨_, h.result files calls invocation⟩

/-- What something comes to with steady programs: what it gives, the files that it leaves and
the calls that it makes. -/
structure Account (α : Type) where
  /-- What it gives. -/
  result : α
  /-- The files that it leaves. -/
  files : FileSystem
  /-- The calls that it makes. -/
  calls : List Program.Invocation

/-- What rendering comes to. -/
def Render.account (answer : Answering) (renderer : Renderer) (collapsed graphic : Path)
    (files : FileSystem) : Account (Except Failure Unit) :=
  match files.read collapsed with
  | .error cause => ⟨.error (.inputUnreadable collapsed cause), files, []⟩
  | .ok input =>
    let call := renderer.invocation input
    match answer call with
    | .error failure => ⟨.error (.notRun failure), files, [call]⟩
    | .ok output =>
      if output.succeeded then
        let (after, saved) := Output.saved files graphic output.written
        ⟨saved.mapError .notSaved, after, [call]⟩
      else
        ⟨.error (.rendererFailed output.status (Text.trim output.complaintsText)), files, [call]⟩

/-- Rendering with steady programs comes to its account. -/
theorem Render.Course.account {runner : Runner} {answer : Answering} {renderer : Renderer}
    {collapsed graphic : Path} {files after : FileSystem}
    {calls more : List Program.Invocation} {result : Except Failure Unit}
    (hrunner : runner.Steady answer)
    (h : Course runner renderer collapsed graphic files calls result after more) :
    result = (Render.account answer renderer collapsed graphic files).result ∧
      after = (Render.account answer renderer collapsed graphic files).files ∧
      more = calls ++ (Render.account answer renderer collapsed graphic files).calls := by
  cases h with
  | unread hread => simp [Render.account, hread]
  | notRun hread hcall =>
    have hanswer := Except.ok.inj ((hrunner.result _ _ _).symm.trans hcall)
    simp [Render.account, hread, hanswer, hrunner.files _ _ _]
  | failed hread hcall hfailed =>
    have hanswer := Except.ok.inj ((hrunner.result _ _ _).symm.trans hcall)
    simp [Render.account, hread, hanswer, hfailed, hrunner.files _ _ _]
  | printed hread hcall hsucceeded hsaved =>
    have hanswer := Except.ok.inj ((hrunner.result _ _ _).symm.trans hcall)
    rw [hrunner.files] at hsaved
    simp [Render.account, hread, hanswer, hsucceeded, hsaved]

namespace Conversion

/-- What writing the collapsed stacks of the recording at a path and rendering them comes to. -/
def tableAccount (settings : Settings) (answer : Answering) (renderer : Render.Renderer)
    (path : Path) (table : Stack.CountTable) (files : FileSystem) : Account Outcome :=
  let artifacts := Recording.Artifacts.of settings.outputPath path
  match Output.saved files artifacts.collapsed (Output.collapsedBytes table) with
  | (after, .error failure) => ⟨.writeFailed failure.message, after, []⟩
  | (middle, .ok ()) =>
    let rendered := Render.account answer renderer artifacts.collapsed artifacts.graphic middle
    ⟨renderOutcome artifacts (countsOf table) rendered.result, rendered.files, rendered.calls⟩

/-- What the conversion of the recording at a path comes to. -/
def account (settings : Settings) (answer : Answering) (renderer : Render.Renderer)
    (path : Path) (files : FileSystem) : Account Outcome :=
  if files.pathExists path then
    match Dump.textOfAnswer (answer (dumpCall settings path)) with
    | .error failure => ⟨.dumpFailed failure.message, files, [dumpCall settings path]⟩
    | .ok text =>
      let made := tableAccount settings answer renderer path
        (Stack.fold text settings.event).table files
      ⟨made.result, made.files, dumpCall settings path :: made.calls⟩
  else ⟨.skipped, files, []⟩

section

variable {settings : Settings} {runner : Runner} {answer : Answering}
  {renderer : Render.Renderer} {path : Path} {files : FileSystem}

/-- Collapsed stacks that could not be saved are not rendered. -/
theorem tableAccount_unsaved {table : Stack.CountTable} {after : FileSystem}
    {failure : Output.Failure}
    (h : Output.saved files (Recording.Artifacts.of settings.outputPath path).collapsed
      (Output.collapsedBytes table) = (after, .error failure)) :
    tableAccount settings answer renderer path table files =
      ⟨.writeFailed failure.message, after, []⟩ := by
  unfold tableAccount
  simp only [h]

/-- Collapsed stacks that were saved are rendered. -/
theorem tableAccount_saved {table : Stack.CountTable} {middle : FileSystem}
    {rendered : Account (Except Render.Failure Unit)}
    (h : Output.saved files (Recording.Artifacts.of settings.outputPath path).collapsed
      (Output.collapsedBytes table) = (middle, .ok ()))
    (hrender : Render.account answer renderer
      (Recording.Artifacts.of settings.outputPath path).collapsed
      (Recording.Artifacts.of settings.outputPath path).graphic middle = rendered) :
    tableAccount settings answer renderer path table files =
      ⟨renderOutcome (.of settings.outputPath path) (countsOf table) rendered.result,
        rendered.files, rendered.calls⟩ := by
  unfold tableAccount
  simp only [h, hrender]

/-- Without its file there is nothing to do for a recording. -/
theorem account_absent (h : files.pathExists path = false) :
    account settings answer renderer path files = ⟨.skipped, files, []⟩ := by
  rw [account, if_neg (by simp [h])]

/-- Without a dump there is nothing more to do for a recording. -/
theorem account_undumped {failure : Dump.Failure} (h : files.pathExists path = true)
    (hdump : Dump.textOfAnswer (answer (dumpCall settings path)) = .error failure) :
    account settings answer renderer path files =
      ⟨.dumpFailed failure.message, files, [dumpCall settings path]⟩ := by
  rw [account, if_pos h, hdump]

/-- A dump is folded, and its table is written and rendered. -/
theorem account_dumped {text : String} {table : Stack.CountTable}
    (h : files.pathExists path = true)
    (hdump : Dump.textOfAnswer (answer (dumpCall settings path)) = .ok text)
    (htable : (Stack.fold text settings.event).table = table) :
    account settings answer renderer path files =
      ⟨(tableAccount settings answer renderer path table files).result,
        (tableAccount settings answer renderer path table files).files,
        dumpCall settings path ::
          (tableAccount settings answer renderer path table files).calls⟩ := by
  rw [account, if_pos h, hdump, ← htable]

/-- A conversion with steady programs comes to its account. -/
theorem Course.account {after : FileSystem} {calls more : List Program.Invocation}
    {outcome : Outcome} (hrunner : runner.Steady answer)
    (h : Course settings runner renderer path files calls outcome after more) :
    outcome = (Conversion.account settings answer renderer path files).result ∧
      after = (Conversion.account settings answer renderer path files).files ∧
      more = calls ++ (Conversion.account settings answer renderer path files).calls := by
  cases h with
  | absent hthere =>
    rw [account_absent hthere]
    exact ⟨rfl, rfl, (List.append_nil _).symm⟩
  | undumped hthere hcall hdump =>
    obtain rfl := Except.ok.inj ((hrunner.result _ _ _).symm.trans hcall)
    rw [account_undumped hthere hdump, hrunner.files]
    exact ⟨rfl, rfl, rfl⟩
  | @unwritten _ text _ _ hthere hcall hdump hsaved =>
    obtain rfl := Except.ok.inj ((hrunner.result _ _ _).symm.trans hcall)
    rw [hrunner.files] at hsaved
    generalize htable : (Stack.fold text settings.event).table = table at hsaved
    rw [account_dumped hthere hdump htable, tableAccount_unsaved hsaved]
    exact ⟨rfl, rfl, rfl⟩
  | @written _ text _ _ _ _ hthere hcall hdump hsaved hrender =>
    obtain rfl := Except.ok.inj ((hrunner.result _ _ _).symm.trans hcall)
    rw [hrunner.files] at hsaved
    obtain ⟨hresult, hafter, hmore⟩ := hrender.account hrunner
    generalize htable : (Stack.fold text settings.event).table = table at hsaved ⊢
    rw [account_dumped hthere hdump htable, tableAccount_saved hsaved rfl, hresult, hafter, hmore,
      List.append_assoc]
    dsimp only
    exact ⟨rfl, rfl, rfl⟩

/-- The conversion of a recording comes to its account. -/
theorem convertOne_account {recording : Recording} {before after : Session} {outcome : Outcome}
    (hrunner : runner.Steady answer)
    (h : convertOne settings runner renderer recording path before = .ok outcome after) :
    outcome = (account settings answer renderer path before.files).result ∧
      after.files = (account settings answer renderer path before.files).files ∧
      after.calls = before.calls ++ (account settings answer renderer path before.files).calls :=
  ((convertOne_follows ..).of_ok h).account hrunner

/-- What converting recordings in turn comes to. -/
def accounts (settings : Settings) (answer : Answering) (renderer : Render.Renderer) :
    List Recording → FileSystem → Account (List Result)
  | [], files => ⟨[], files, []⟩
  | recording :: rest, files =>
    let path := settings.recordingPath recording
    let first := account settings answer renderer path files
    let others := accounts settings answer renderer rest first.files
    ⟨⟨recording, path, first.result⟩ :: others.result, others.files, first.calls ++ others.calls⟩

theorem accounts_cons (recording : Recording) (rest : List Recording) {first : Account Outcome}
    (h : account settings answer renderer (settings.recordingPath recording) files = first) :
    accounts settings answer renderer (recording :: rest) files =
      ⟨⟨recording, settings.recordingPath recording, first.result⟩ ::
          (accounts settings answer renderer rest first.files).result,
        (accounts settings answer renderer rest first.files).files,
        first.calls ++ (accounts settings answer renderer rest first.files).calls⟩ := by
  subst h
  rfl

/-- Which recordings the settings list does not matter to what becomes of a table. -/
theorem tableAccount_recordings (recordings : List Recording) (table : Stack.CountTable) :
    tableAccount { settings with recordings := recordings } answer renderer path table files =
      tableAccount settings answer renderer path table files := by
  have houtput : { settings with recordings := recordings }.outputPath = settings.outputPath := rfl
  unfold tableAccount
  rw [houtput]

/-- Nor does it matter to the conversion of a recording. -/
theorem account_recordings (recordings : List Recording) :
    account { settings with recordings := recordings } answer renderer path files =
      account settings answer renderer path files := by
  have hcall : dumpCall { settings with recordings := recordings } path = dumpCall settings path :=
    rfl
  unfold account
  simp only [hcall, tableAccount_recordings]

/-- Nor does it matter to the conversion of recordings that are given. -/
theorem accounts_recordings (recordings others : List Recording) :
    accounts { settings with recordings := recordings } answer renderer others files =
      accounts settings answer renderer others files := by
  induction others generalizing files with
  | nil => rfl
  | cons recording rest ih =>
    rw [accounts_cons recording rest (account_recordings recordings), ih,
      accounts_cons recording rest rfl]
    rfl

/-- Visits come to the account of their recordings. -/
theorem Visits.accounts {visits : List Visit} {first last : Session}
    (hrunner : runner.Steady answer)
    (h : Visits settings runner renderer visits first last) {recordings : List Recording}
    (hrecordings : visits.map Visit.recording = recordings) :
    visits.map (Visit.result settings) =
        (Conversion.accounts settings answer renderer recordings first.files).result ∧
      last.files = (Conversion.accounts settings answer renderer recordings first.files).files ∧
      last.calls = first.calls ++
        (Conversion.accounts settings answer renderer recordings first.files).calls := by
  subst hrecordings
  induction visits generalizing first with
  | nil =>
    obtain rfl : first = last := h
    exact ⟨rfl, rfl, (List.append_nil _).symm⟩
  | cons visit rest ih =>
    obtain ⟨rfl, hstep, hrest⟩ := h
    obtain ⟨houtcome, hleft, hmade⟩ := convertOne_account hrunner hstep
    obtain ⟨hresults, hlast, hcalls⟩ := ih hrest
    rw [hleft] at hresults hlast hcalls
    refine ⟨?_, hlast, ?_⟩
    · rw [List.map_cons, hresults, Visit.result, houtcome]
      rfl
    · rw [hcalls, hmade, List.append_assoc]
      rfl

end

/-- Valid settings list a recording. -/
theorem recordings_ne_nil {settings : Settings} (h : settings.validate = .ok ()) :
    settings.recordings ≠ [] := by
  intro hnil
  rw [Settings.validate, if_pos (by simp [hnil])] at h
  cases h

/-- Other recordings make no valid settings invalid, if there are any. -/
theorem validate_recordings {settings : Settings} {recordings : List Recording}
    (h : settings.validate = .ok ()) (hne : recordings ≠ []) :
    { settings with recordings := recordings }.validate = .ok () := by
  unfold Settings.validate at h ⊢
  rw [if_neg (by simpa using hne)]
  split at h
  · cases h
  · exact h

/-- What a run comes to, once it has started. -/
def runAccount (settings : Settings) (answer : Answering) (files : FileSystem) :
    Account (List Result) :=
  accounts settings answer (rendererOf settings settings.rendererPath) settings.recordings files

/-- With valid settings and the renderer script there, a run with steady programs ends with a
summary, and comes to the account of its recordings. -/
theorem run_accounts {settings : Settings} {runner : Runner} {answer : Answering}
    {before : Session} (hrunner : runner.Steady answer) (hvalid : settings.validate = .ok ())
    (hscript : before.files.isFile settings.rendererPath = true) :
    ∃ summary after, run settings runner before = .ok (.ok summary) after ∧
      summary.results = (runAccount settings answer before.files).result ∧
      summary.graphics = graphicsIn after.files settings.outputPath ∧
      after.files = (runAccount settings answer before.files).files ∧
      after.calls = before.calls ++ (runAccount settings answer before.files).calls := by
  have hfollows := run_lists hvalid hscript runner
  obtain ⟨answer', after, hrun⟩ := hfollows.returns hrunner.answers
  obtain ⟨summary, rfl, hgraphics, visits, htells⟩ := hfollows.of_ok hrun
  obtain ⟨first, last, hfirst, hcalls, hvisits, hlast, hmade⟩ := htells.chain
  obtain ⟨hresults, hfiles, hmore⟩ := hvisits.accounts hrunner htells.recordings
  rw [hfirst] at hresults hfiles hmore
  rw [hcalls] at hmore
  exact ⟨summary, after, hrun, htells.results.trans hresults, hgraphics, hlast.symm.trans hfiles,
    hmade.symm.trans hmore⟩

/-- What is answered to the calls for recordings of the branches: a dump with one sample, but
for `web.jfr` one with none and this exit code; and a flame graph. -/
def branchAnswer (code : Int) : Answering := fun call =>
  if call.input.isSome then .ok ⟨some 0, Text.encode "<svg/>", []⟩
  else if call.arguments.getLast? = some "./b/web.jfr" then .ok ⟨some code, [], []⟩
  else .ok ⟨some 0, Text.encode "a\n\n", []⟩

end Conversion

end FlameFold
