import FlameFold.Conversion.Run
import FlameFold.Proofs.Output.Saving

/-!
# The courses that a conversion can take

Every point at which the conversion of a recording can end is one rule of a relation
between the files and calls before it and the outcome, files and calls after it. The
conversion takes one of these courses unless the runner breaks down.
-/

namespace FlameFold.Render

/-- The courses that rendering can take. -/
inductive Course (runner : Runner) (renderer : Renderer) (collapsed graphic : Path)
    (files : FileSystem) (calls : List Program.Invocation) :
    Except Failure Unit → FileSystem → List Program.Invocation → Prop where
  /-- The collapsed stacks could not be read back. -/
  | unread {cause} (hread : files.read collapsed = .error cause) :
    Course runner renderer collapsed graphic files calls
      (.error (.inputUnreadable collapsed cause)) files calls
  /-- The script gave no output. -/
  | notRun {input failure} (hread : files.read collapsed = .ok input)
    (hcall : (runner files calls (renderer.invocation input)).result = .ok (.error failure)) :
    Course runner renderer collapsed graphic files calls (.error (.notRun failure))
      (runner files calls (renderer.invocation input)).files
      (calls ++ [renderer.invocation input])
  /-- The script ended, and not well. -/
  | failed {input output} (hread : files.read collapsed = .ok input)
    (hcall : (runner files calls (renderer.invocation input)).result = .ok (.ok output))
    (hfailed : output.succeeded = false) :
    Course runner renderer collapsed graphic files calls
      (.error (.rendererFailed output.status (Text.trim output.complaintsText)))
      (runner files calls (renderer.invocation input)).files
      (calls ++ [renderer.invocation input])
  /-- The script printed a flame graph, which was saved or not. -/
  | printed {input output after result} (hread : files.read collapsed = .ok input)
    (hcall : (runner files calls (renderer.invocation input)).result = .ok (.ok output))
    (hsucceeded : output.succeeded = true)
    (hsaved : Output.saved (runner files calls (renderer.invocation input)).files graphic
      output.written = (after, result)) :
    Course runner renderer collapsed graphic files calls (result.mapError .notSaved) after
      (calls ++ [renderer.invocation input])

/-- What is printed is saved or not, and no program is called for it. -/
theorem writeGraphic_follows (runner : Runner) (content : List UInt8) (graphic : Path)
    (before : Session) :
    Step.Follows runner (do
        match ← Output.writeGraphic content graphic with
        | .error failure => return .error (Failure.notSaved failure)
        | .ok () => return .ok ()) before
      fun result files calls => calls = before.calls ∧ ∃ saved,
        Output.saved before.files graphic content = (files, saved) ∧
          result = saved.mapError .notSaved := by
  refine (Output.writeGraphic_gives content graphic before).follows fun after hleft hcalls => ?_
  cases hsaved : Output.saved before.files graphic content with
  | mk files saved =>
    rw [hsaved] at hleft
    cases saved with
    | error failure => exact Step.follows_pure ⟨hcalls, _, by rw [hleft], rfl⟩
    | ok _ => exact Step.follows_pure ⟨hcalls, _, by rw [hleft], rfl⟩

/-- Rendering takes one of its courses. -/
theorem render_follows (runner : Runner) (renderer : Renderer) (collapsed graphic : Path)
    (before : Session) : Step.Follows runner (render runner renderer collapsed graphic) before
      (Course runner renderer collapsed graphic before.files before.calls) := by
  unfold render
  refine (Step.note_gives _ _ _ before).follows fun noted hfiles hcalls => ?_
  rw [← hfiles, ← hcalls]
  refine (Step.view_gives (·.read collapsed) noted).follows fun looked hfiles hcalls => ?_
  cases hread : noted.files.read collapsed with
  | error cause =>
    rw [← hfiles] at hread ⊢
    rw [← hcalls]
    exact Step.follows_pure (.unread hread)
  | ok input =>
    refine (Step.note_gives _ _ _ looked).follows fun fed hfed hsame => ?_
    rw [← hfiles, ← hfed] at hread ⊢
    rw [← hcalls, ← hsame]
    refine Step.call_follows fun answer after hcall hafter hmore => ?_
    cases answer with
    | error failure =>
      apply Step.follows_pure
      rw [hafter, hmore]
      exact .notRun hread hcall
    | ok output =>
      dsimp only
      split
      · next hsucceeded =>
        refine (writeGraphic_follows runner output.written graphic after).mono
          fun result files calls hsaved => ?_
        obtain ⟨rfl, saved, hsaved, rfl⟩ := hsaved
        rw [hafter] at hsaved
        rw [hmore]
        exact .printed hread hcall hsucceeded hsaved
      · next hfailed =>
        apply Step.follows_pure
        rw [hafter, hmore]
        exact .failed hread hcall (by simpa using hfailed)

end FlameFold.Render

namespace FlameFold.Dump

/-- The text that the dump tool gave, or why there is none. -/
def textOfAnswer : Except Program.Failure Program.Output → Except Failure String
  | .error failure => .error (.notRun failure)
  | .ok output => textOf output

/-- There is a text only of a dump that ended well. -/
theorem textOfAnswer_ok {answer : Except Program.Failure Program.Output} {text : String}
    (h : textOfAnswer answer = .ok text) :
    ∃ output, answer = .ok output ∧ output.succeeded = true ∧ text = output.writtenText := by
  cases answer with
  | error failure => cases h
  | ok output =>
    rw [textOfAnswer, textOf] at h
    split at h
    · next hs => exact ⟨output, rfl, hs, (Except.ok.inj h).symm⟩
    · cases h

/-- Dumping calls the tool once and gives the text of its answer. -/
theorem dump_follows (runner : Runner) (request : Request) (before : Session) :
    Step.Follows runner (dump runner request) before fun result files calls =>
      ∃ answer, (runner before.files before.calls request.invocation).result = .ok answer ∧
        result = textOfAnswer answer ∧
        files = (runner before.files before.calls request.invocation).files ∧
        calls = before.calls ++ [request.invocation] := by
  unfold dump
  refine (Step.note_gives _ _ _ before).follows fun noted hfiles hcalls => ?_
  rw [← hfiles, ← hcalls]
  refine Step.call_follows fun answer after hcall hafter hmore => ?_
  cases answer with
  | error failure => exact Step.follows_pure ⟨_, hcall, rfl, hafter, hmore⟩
  | ok output =>
    dsimp only
    cases htext : textOf output with
    | error failure => exact Step.follows_pure ⟨_, hcall, htext.symm, hafter, hmore⟩
    | ok text =>
      refine (Step.note_gives _ _ _ after).follows fun last hleft hlast => ?_
      exact Step.follows_pure ⟨_, hcall, htext.symm, hleft.trans hafter, hlast.trans hmore⟩

end FlameFold.Dump

namespace FlameFold.Conversion

/-- The outcome of a recording whose collapsed stacks were written, by what rendering
gave. -/
def renderOutcome (artifacts : Recording.Artifacts) (counts : Counts) :
    Except Render.Failure Unit → Outcome
  | .ok () => .rendered artifacts counts
  | .error failure => .renderFailed artifacts counts failure.message

/-- What was counted in a table. -/
def countsOf (table : Stack.CountTable) : Counts := ⟨table.size, table.totalSamples⟩

/-- The call of the dump tool for the recording at a path. -/
def dumpCall (settings : Settings) (path : Path) : Program.Invocation where
  program := settings.dumpTool
  arguments := ["print", "--events", settings.event, "--stack-depth",
    Nat.repr settings.stackDepth.toNat, path.text]
  input := none
  limit := settings.timeout

/-- In this session the dump tool ends well and gives `dump` for the recording at a path. -/
def Dumps (settings : Settings) (runner : Runner) (path : Path) (before : Session)
    (dump : String) : Prop :=
  ∃ output, (runner before.files before.calls (dumpCall settings path)).result =
      .ok (.ok output) ∧
    output.succeeded = true ∧ dump = output.writtenText

/-- The courses that the conversion of the recording at a path can take. -/
inductive Course (settings : Settings) (runner : Runner) (renderer : Render.Renderer)
    (path : Path) (files : FileSystem) (calls : List Program.Invocation) :
    Outcome → FileSystem → List Program.Invocation → Prop where
  /-- The recording is not there. -/
  | absent (hthere : files.pathExists path = false) :
    Course settings runner renderer path files calls .skipped files calls
  /-- The dump tool gave no text. -/
  | undumped {answer failure} (hthere : files.pathExists path = true)
    (hcall : (runner files calls (dumpCall settings path)).result = .ok answer)
    (hdump : Dump.textOfAnswer answer = .error failure) :
    Course settings runner renderer path files calls (.dumpFailed failure.message)
      (runner files calls (dumpCall settings path)).files (calls ++ [dumpCall settings path])
  /-- The collapsed stacks could not be saved. -/
  | unwritten {answer text after failure} (hthere : files.pathExists path = true)
    (hcall : (runner files calls (dumpCall settings path)).result = .ok answer)
    (hdump : Dump.textOfAnswer answer = .ok text)
    (hsaved : Output.saved (runner files calls (dumpCall settings path)).files
      (Recording.Artifacts.of settings.outputPath path).collapsed
      (Output.collapsedBytes (Stack.fold text settings.event).table) = (after, .error failure)) :
    Course settings runner renderer path files calls (.writeFailed failure.message) after
      (calls ++ [dumpCall settings path])
  /-- The collapsed stacks were saved, and rendered or not. -/
  | written {answer text middle result after more} (hthere : files.pathExists path = true)
    (hcall : (runner files calls (dumpCall settings path)).result = .ok answer)
    (hdump : Dump.textOfAnswer answer = .ok text)
    (hsaved : Output.saved (runner files calls (dumpCall settings path)).files
      (Recording.Artifacts.of settings.outputPath path).collapsed
      (Output.collapsedBytes (Stack.fold text settings.event).table) = (middle, .ok ()))
    (hrender : Render.Course runner renderer
      (Recording.Artifacts.of settings.outputPath path).collapsed
      (Recording.Artifacts.of settings.outputPath path).graphic middle
      (calls ++ [dumpCall settings path]) result after more) :
    Course settings runner renderer path files calls
      (renderOutcome (.of settings.outputPath path)
        (countsOf (Stack.fold text settings.event).table) result) after more

/-- Noting why there is no dump calls no program. -/
theorem noteDumpFailure_gives (tool : String) (failure : Dump.Failure) (before : Session) :
    (noteDumpFailure tool failure).Gives before () before.files := by
  unfold noteDumpFailure
  refine (Step.note_gives _ _ _ before).bind fun noted hn => ?_
  cases failure with
  | toolFailed status written complaints =>
    refine (Step.note_gives _ _ _ noted).bind fun told ht => ?_
    rw [← hn, ← ht]
    exact Step.note_gives _ _ _ told
  | notRun failure => exact hn ▸ Step.pure_gives () noted

/-- What becomes of a table is decided by whether its collapsed stacks are saved, and by
rendering. -/
theorem produce_follows (runner : Runner) (renderer : Render.Renderer)
    (artifacts : Recording.Artifacts) (table : Stack.CountTable) (before : Session) :
    Step.Follows runner (produce runner renderer artifacts table) before
      fun outcome files calls =>
        (∃ failure, Output.saved before.files artifacts.collapsed (Output.collapsedBytes table) =
            (files, .error failure) ∧ outcome = .writeFailed failure.message ∧
            calls = before.calls) ∨
          ∃ middle result, Output.saved before.files artifacts.collapsed
              (Output.collapsedBytes table) = (middle, .ok ()) ∧
            Render.Course runner renderer artifacts.collapsed artifacts.graphic middle
              before.calls result files calls ∧
            outcome = renderOutcome artifacts (countsOf table) result := by
  unfold produce
  refine (Output.writeCollapsed_gives table _ before).follows fun saved hleft hcalls => ?_
  cases hsaved : Output.saved before.files artifacts.collapsed (Output.collapsedBytes table) with
  | mk files result =>
    rw [hsaved] at hleft
    dsimp only at hleft
    cases result with
    | error failure =>
      refine (Step.note_gives _ _ _ saved).follows fun noted hn hsame => ?_
      refine Step.follows_pure (.inl ⟨failure, ?_, rfl, hsame.trans hcalls⟩)
      rw [hn, hleft]
    | ok _ =>
      refine (Render.render_follows runner renderer _ _ saved).bind fun result after _ hrender => ?_
      rw [hleft, hcalls] at hrender
      cases result with
      | ok _ => exact Step.follows_pure (.inr ⟨files, _, rfl, hrender, rfl⟩)
      | error failure =>
        refine (Step.note_gives _ _ _ after).follows fun noted hn hsame => ?_
        rw [← hn, ← hsame] at hrender
        exact Step.follows_pure (.inr ⟨files, _, rfl, hrender, rfl⟩)

/-- What becomes of a dump is one of the courses of its recording. -/
theorem produce_course {settings : Settings} {runner : Runner} {path : Path}
    {before after : Session} {answer : Except Program.Failure Program.Output} {text : String}
    (hthere : before.files.pathExists path = true)
    (hcall : (runner before.files before.calls (dumpCall settings path)).result = .ok answer)
    (htext : Dump.textOfAnswer answer = .ok text)
    (hafter : after.files = (runner before.files before.calls (dumpCall settings path)).files)
    (hmore : after.calls = before.calls ++ [dumpCall settings path])
    (renderer : Render.Renderer) :
    Step.Follows runner (produce runner renderer (.of settings.outputPath path)
      (Stack.fold text settings.event).table) after
      (Course settings runner renderer path before.files before.calls) := by
  refine (produce_follows runner renderer _ _ after).mono fun outcome files calls h => ?_
  rw [hafter, hmore] at h
  obtain ⟨failure, hsaved, rfl, rfl⟩ | ⟨made, result, hsaved, hrender, rfl⟩ := h
  · exact .unwritten hthere hcall htext hsaved
  · exact .written hthere hcall htext hsaved hrender

/-- The conversion of a recording takes one of its courses. -/
theorem convertOne_follows (settings : Settings) (runner : Runner) (renderer : Render.Renderer)
    (recording : Recording) (path : Path) (before : Session) :
    Step.Follows runner (convertOne settings runner renderer recording path) before
      (Course settings runner renderer path before.files before.calls) := by
  unfold convertOne
  refine (Step.view_gives (·.pathExists path) before).follows fun looked hfiles hcalls => ?_
  rw [← hfiles, ← hcalls]
  split
  · next hthere =>
    refine (Step.note_gives _ _ _ looked).follows fun noted hn hsame => ?_
    rw [← hn] at hthere ⊢
    rw [← hsame]
    refine (Dump.dump_follows runner _ noted).bind fun dumped middle _ hdump => ?_
    obtain ⟨answer, hcall, rfl, hmiddle, hmore⟩ := hdump
    cases htext : Dump.textOfAnswer answer with
    | error failure =>
      refine (noteDumpFailure_gives _ _ middle).follows fun last hleft hlast => ?_
      apply Step.follows_pure
      rw [hleft, hlast, hmiddle, hmore]
      exact .undumped hthere hcall htext
    | ok text =>
      refine (Step.noteAll_gives _ middle).follows fun counted hc hsame => ?_
      have hcounted := hc.trans hmiddle
      have hmade := hsame.trans hmore
      split
      · refine (Step.note_gives _ _ _ counted).follows fun last hleft hlast => ?_
        exact produce_course hthere hcall htext (hleft.trans hcounted) (hlast.trans hmade) renderer
      · exact produce_course hthere hcall htext hcounted hmade renderer
  · next hthere =>
    refine (Step.note_gives _ _ _ looked).follows fun noted hn hsame => ?_
    rw [← hn] at hthere ⊢
    rw [← hsame]
    exact Step.follows_pure (.absent (by simpa using hthere))

end FlameFold.Conversion
