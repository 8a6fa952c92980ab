import FlameFold.Proofs.Conversion.Course
import FlameFold.Proofs.Output.Collapsed
import FlameFold.Proofs.Recording.Artifacts

/-!
# What an outcome says of the files

With programs that change no file, and no device among the files that are made, the outcome of
a conversion tells which files it left: none, the file of collapsed stacks, or this file and
the flame graph. It tells what they hold, and everything else is as it was before, except that
directories were made on the way to the output directory.
-/

namespace FlameFold.Conversion

/-- The file of collapsed stacks of the recording at a path stands at `place` with `text`: the
collapsed form of the dump that the dump tool gives in the session before, with the stacks and
samples that are counted. -/
structure Stands (settings : Settings) (runner : Runner) (path : Path) (before : Session)
    (counts : Counts) (text : String) (place : Location) (files : FileSystem) : Prop where
  /-- The text is the collapsed form of the dump. -/
  dumped : ∃ dump, Dumps settings runner path before dump ∧
    Output.CollapsedForm dump settings.event text counts.uniqueStacks counts.totalSamples
  /-- The file holds the text. -/
  holds : files.Holds (Recording.Artifacts.of settings.outputPath path).collapsed place
    (Text.encode text)

/-- The flame graph of the recording at a path stands at `place`: the bytes that the renderer
printed when it was given `text` as the collapsed stacks just written. -/
structure Drawn (settings : Settings) (runner : Runner) (renderer : Render.Renderer)
    (path : Path) (before : Session) (text : String) (place : Location) (files : FileSystem) :
    Prop where
  /-- The renderer ends well, and the file holds what it prints. -/
  printed : ∃ left output,
    Output.saved before.files (Recording.Artifacts.of settings.outputPath path).collapsed
      (Text.encode text) = (left, .ok ()) ∧
    (runner left (before.calls ++ [dumpCall settings path])
      (renderer.invocation (Text.encode text))).result = .ok (.ok output) ∧
    output.succeeded = true ∧
    files.Holds (Recording.Artifacts.of settings.outputPath path).graphic place output.written

/-- What each outcome says of the files before and after. -/
inductive Truth (settings : Settings) (runner : Runner) (renderer : Render.Renderer)
    (path : Path) (before : Session) (after : FileSystem) : Outcome → Prop where
  /-- Nothing has changed. -/
  | skipped (h : after = before.files) :
    Truth settings runner renderer path before after .skipped
  /-- Nothing has changed. -/
  | dumpFailed {error} (h : after = before.files) :
    Truth settings runner renderer path before after (.dumpFailed error)
  /-- At most directories were made on the way to the output directory. -/
  | writeFailed {error}
    (h : FileSystem.Grown settings.outputPath.ancestors before.files after) :
    Truth settings runner renderer path before after (.writeFailed error)
  /-- The file of collapsed stacks is there, and the flame graph is as it was. -/
  | renderFailed {counts error text place}
    (hcollapsed : Stands settings runner path before counts text place after)
    (hgraphic : FileSystem.LeftAlone settings.outputPath.ancestors
      (Recording.Artifacts.of settings.outputPath path).graphic before.files after)
    (hrest : FileSystem.Changed settings.outputPath.ancestors [place] before.files after) :
    Truth settings runner renderer path before after
      (.renderFailed (.of settings.outputPath path) counts error)
  /-- Both files are there. -/
  | rendered {counts text place graphic}
    (hcollapsed : Stands settings runner path before counts text place after)
    (hgraphic : Drawn settings runner renderer path before text graphic after)
    (hrest : FileSystem.Changed settings.outputPath.ancestors [place, graphic] before.files
      after) :
    Truth settings runner renderer path before after
      (.rendered (.of settings.outputPath path) counts)

section

variable {settings : Settings} {runner : Runner} {renderer : Render.Renderer} {path : Path}
  {before : Session} {counts : Counts} {text : String} {place graphic : Location}
  {files after : FileSystem} {paths : List Path} {places : List Location}

/-- Collapsed stacks stand as long as their place is not written to. -/
theorem Stands.changed (h : Stands settings runner path before counts text place files)
    (hchanged : FileSystem.Changed paths places files after) (hplace : place ∉ places) :
    Stands settings runner path before counts text place after :=
  ⟨h.dumped, hchanged.holds hplace h.holds⟩

/-- A flame graph stands as long as its place is not written to. -/
theorem Drawn.changed (h : Drawn settings runner renderer path before text graphic files)
    (hchanged : FileSystem.Changed paths places files after) (hplace : graphic ∉ places) :
    Drawn settings runner renderer path before text graphic after := by
  obtain ⟨left, output, hsaved, hcall, hsucceeded, hholds⟩ := h.printed
  exact ⟨left, output, hsaved, hcall, hsucceeded, hchanged.holds hplace hholds⟩

/-- The path of a flame graph leads to it. -/
theorem Drawn.located (h : Drawn settings runner renderer path before text graphic files) :
    files.locate (Recording.Artifacts.of settings.outputPath path).graphic = .ok graphic := by
  obtain ⟨_, _, -, -, -, hholds⟩ := h.printed
  exact hholds.located

/-- Both files lie in the output directory, so making way for them makes directories on the
way to it. -/
theorem ancestors_collapsed (settings : Settings) (path : Path) :
    (Recording.Artifacts.of settings.outputPath path).collapsed.parent?.elim []
      Path.ancestors = settings.outputPath.ancestors :=
  Path.ancestors_parent? (Recording.parent?_collapsed _ _)

theorem ancestors_graphic (settings : Settings) (path : Path) :
    (Recording.Artifacts.of settings.outputPath path).graphic.parent?.elim []
      Path.ancestors = settings.outputPath.ancestors :=
  Path.ancestors_parent? (Recording.parent?_graphic _ _)

/-- Collapsed stacks that were saved are held by a file. -/
theorem saved_collapsed {content : List UInt8} (hclear : Recording.Clear files)
    (h : Output.saved files (Recording.Artifacts.of settings.outputPath path).collapsed content =
      (after, .ok ())) :
    ∃ place, after.Holds (Recording.Artifacts.of settings.outputPath path).collapsed place content ∧
      FileSystem.Changed settings.outputPath.ancestors [place] files after := by
  rw [← ancestors_collapsed settings path]
  obtain hheld | ⟨hchanged, place, device, hl, hn⟩ := Output.saved_changed h
  · exact hheld
  · exact absurd (Recording.locate_collapsed hl).1 (hclear.changed hchanged place device hn path).1

/-- A flame graph that was saved is held by a file. -/
theorem saved_graphic {content : List UInt8} (hclear : Recording.Clear files)
    (h : Output.saved files (Recording.Artifacts.of settings.outputPath path).graphic content =
      (after, .ok ())) :
    ∃ place, after.Holds (Recording.Artifacts.of settings.outputPath path).graphic place content ∧
      FileSystem.Changed settings.outputPath.ancestors [place] files after := by
  rw [← ancestors_graphic settings path]
  obtain hheld | ⟨hchanged, place, device, hl, hn⟩ := Output.saved_changed h
  · exact hheld
  · exact absurd (Recording.locate_graphic hl).1 (hclear.changed hchanged place device hn path).2

/-- Where no flame graph was saved, its path is as it was. -/
theorem Stands.renderFailed (h : Stands settings runner path before counts text place files)
    (hchanged : FileSystem.Changed settings.outputPath.ancestors [place] before.files files)
    (hgrown : FileSystem.Grown settings.outputPath.ancestors files after) (error : String) :
    Truth settings runner renderer path before after
      (.renderFailed (.of settings.outputPath path) counts error) := by
  have hafter := hchanged.trans (hgrown.changed [])
  have hstands := h.changed (hgrown.changed []) List.not_mem_nil
  refine .renderFailed hstands (hafter.leftAlone ?_ ?_) hafter
  · exact fun graphic hl => (Recording.locate_graphic hl).2
  · intro graphic hl hmem
    exact Recording.collapsed_ne_graphic hstands.holds.located hl (List.mem_singleton.mp hmem).symm

/-- What is true where a recording was rendered. -/
theorem Truth.of_rendered {outcome : Outcome} {artifacts : Recording.Artifacts}
    (h : Truth settings runner renderer path before after outcome)
    (houtcome : outcome = .rendered artifacts counts) :
    artifacts = .of settings.outputPath path ∧ ∃ text place graphic,
      Stands settings runner path before counts text place after ∧
      Drawn settings runner renderer path before text graphic after := by
  cases h with
  | rendered hcollapsed hgraphic =>
    obtain ⟨hartifacts, hcounts⟩ := Outcome.rendered.inj houtcome
    exact ⟨hartifacts.symm, _, _, _, hcounts ▸ hcollapsed, hgraphic⟩
  | _ => cases houtcome

/-- What rendering gives is true of the files that it leaves. -/
theorem Stands.truth (h : Stands settings runner path before counts text place files)
    (hchanged : FileSystem.Changed settings.outputPath.ancestors [place] before.files files)
    (hsaved : Output.saved before.files
      (Recording.Artifacts.of settings.outputPath path).collapsed (Text.encode text) =
        (files, .ok ()))
    (hclear : Recording.Clear files) (hkeeps : runner.KeepsFiles)
    {result : Except Render.Failure Unit} {calls : List Program.Invocation}
    (hrender : Render.Course runner renderer
      (Recording.Artifacts.of settings.outputPath path).collapsed
      (Recording.Artifacts.of settings.outputPath path).graphic files
      (before.calls ++ [dumpCall settings path]) result after calls) :
    Truth settings runner renderer path before after
      (renderOutcome (.of settings.outputPath path) counts result) := by
  cases hrender with
  | unread hread =>
    rw [h.holds.read] at hread
    cases hread
  | notRun =>
    rw [hkeeps]
    exact h.renderFailed hchanged (.refl _ _) _
  | failed =>
    rw [hkeeps]
    exact h.renderFailed hchanged (.refl _ _) _
  | @printed input output _ saved hread hcall hsucceeded hdrawn =>
    rw [hkeeps] at hdrawn
    cases saved with
    | error failure =>
      have hgrown := Output.saved_error hdrawn
      rw [ancestors_graphic] at hgrown
      exact h.renderFailed hchanged hgrown _
    | ok _ =>
      obtain ⟨graphic, hholds, hmore⟩ := saved_graphic hclear hdrawn
      have hne := Recording.collapsed_ne_graphic h.holds.located hholds.located
      have hinput : input = Text.encode text := Except.ok.inj (hread.symm.trans h.holds.read)
      rw [hinput] at hcall
      exact .rendered (h.changed hmore (by simpa using hne))
        ⟨files, output, hsaved, hcall, hsucceeded, hholds⟩ (hchanged.trans hmore)

/-- The outcome of each course is true of the files that it leaves. -/
theorem Course.truth {outcome : Outcome} {calls : List Program.Invocation}
    (hclear : Recording.Clear before.files) (hkeeps : runner.KeepsFiles)
    (h : Course settings runner renderer path before.files before.calls outcome after calls) :
    Truth settings runner renderer path before after outcome := by
  cases h with
  | absent => exact .skipped rfl
  | undumped =>
    rw [hkeeps]
    exact .dumpFailed rfl
  | unwritten _ _ _ hsaved =>
    have hgrown := Output.saved_error hsaved
    rw [ancestors_collapsed, hkeeps] at hgrown
    exact .writeFailed hgrown
  | @written _ dump _ _ _ _ _ hcall hdump hsaved hrender =>
    rw [hkeeps] at hsaved
    obtain ⟨place, hholds, hchanged⟩ := saved_collapsed hclear hsaved
    obtain ⟨output, rfl, hsucceeded, htext⟩ := Dump.textOfAnswer_ok hdump
    have hstands : Stands settings runner path before
        (countsOf (Stack.fold dump settings.event).table) _ place _ :=
      ⟨⟨dump, ⟨output, hcall, hsucceeded, htext⟩,
        Output.collapsedText_fold dump settings.event⟩, hholds⟩
    exact hstands.truth hchanged hsaved (hclear.changed hchanged) hkeeps hrender

end

/-- The outcome of a conversion says exactly what happened to the files. With a runner that
brings every call to an end there is an outcome. -/
theorem convertOne_truth (settings : Settings) {runner : Runner} {before : Session}
    (hclear : Recording.Clear before.files) (hkeeps : runner.KeepsFiles)
    (renderer : Render.Renderer) (recording : Recording) (path : Path) :
    (∀ outcome after,
      convertOne settings runner renderer recording path before = .ok outcome after →
        Truth settings runner renderer path before after.files outcome) ∧
    (runner.Answers → ∃ outcome after,
      convertOne settings runner renderer recording path before = .ok outcome after) := by
  have hfollows := convertOne_follows settings runner renderer recording path before
  refine ⟨fun outcome after hstep => ?_, hfollows.returns⟩
  exact (hfollows.of_ok hstep).truth hclear hkeeps

/-- A working directory with a recording and a renderer script. -/
def workplace : FileSystem where
  nodes :=
    [([Text.encode "app.jfr"], .file [] false), ([Text.encode "render.pl"], .file [] true)]
  here := []

/-- Settings for the workplace that write to a directory. -/
def workSettings (directory : String) : Settings :=
  { Settings.standard with
    root := ⟨"."⟩
    outputDirectory := some ⟨directory⟩
    rendererScript := ⟨"render.pl"⟩
    recordings := [⟨⟨"app.jfr"⟩, "app"⟩] }

/-- A dump with two samples of one stack, and then a flame graph. -/
def workRunner : Runner :=
  .prepared [fun _ => .ok ⟨some 0, Text.encode "a\n\na\n\n", []⟩,
    fun _ => .ok ⟨some 0, Text.encode "<svg/>", []⟩]

theorem workplace_plain : workplace.Plain :=
  FileSystem.plain_of_nodes (by simp [workplace])

/-- In the workplace the recording is rendered, and the outcome is true. -/
theorem convertOne_truth_workplace :
    Recording.Clear workplace ∧ workRunner.KeepsFiles ∧ ∃ after,
      convertOne (workSettings "out") workRunner (rendererOf (workSettings "out") ⟨"./render.pl"⟩)
        ⟨⟨"app.jfr"⟩, "app"⟩ ⟨"./app.jfr"⟩ (Session.start workplace) =
          .ok (.rendered (.of ⟨"./out"⟩ ⟨"./app.jfr"⟩) ⟨1, 2⟩) after ∧
      Truth (workSettings "out") workRunner (rendererOf (workSettings "out") ⟨"./render.pl"⟩)
        ⟨"./app.jfr"⟩ (Session.start workplace) after.files
        (.rendered (.of ⟨"./out"⟩ ⟨"./app.jfr"⟩) ⟨1, 2⟩) := by
  have hends : ((convertOne (workSettings "out") workRunner
      (rendererOf (workSettings "out") ⟨"./render.pl"⟩) ⟨⟨"app.jfr"⟩, "app"⟩ ⟨"./app.jfr"⟩).ends
        (Session.start workplace)).map Prod.fst =
          some (.rendered (.of ⟨"./out"⟩ ⟨"./app.jfr"⟩) ⟨1, 2⟩) := by
    delta convertOne
    rw [Stack.fold_eq_tallied]
    decide +kernel
  obtain ⟨⟨outcome, files⟩, hends, rfl⟩ := Option.map_eq_some_iff.mp hends
  obtain ⟨after, hstep, -⟩ := Step.exists_of_ends hends
  have hclear : Recording.Clear (Session.start workplace).files :=
    Recording.clear_of_plain workplace_plain
  have hkeeps : workRunner.KeepsFiles := Runner.prepared_keepsFiles _
  have htruth := convertOne_truth (workSettings "out") hclear hkeeps
    (rendererOf (workSettings "out") ⟨"./render.pl"⟩) ⟨⟨"app.jfr"⟩, "app"⟩ ⟨"./app.jfr"⟩
  exact ⟨hclear, hkeeps, after, hstep, htruth.1 _ _ hstep⟩

/-- Where the output directory is reached through a directory with the name of the flame
graph, making way for the collapsed stacks makes this directory. The flame graph cannot be
saved, and its path, which led nowhere, leads to the directory. -/
theorem graphic_absent_not_kept :
    ¬∀ (settings : Settings) (runner : Runner) (renderer : Render.Renderer)
      (recording : Recording) (path : Path) (before after : Session)
      (artifacts : Recording.Artifacts) (counts : Counts) (error : String),
      before.files.Plain → runner.KeepsFiles →
      convertOne settings runner renderer recording path before =
        .ok (.renderFailed artifacts counts error) after →
      before.files.pathExists artifacts.graphic = false →
      after.files.pathExists artifacts.graphic = false := by
  intro h
  let winding := workSettings "x/app_flamegraph.svg/../../x"
  let artifacts := Recording.Artifacts.of winding.outputPath ⟨"./app.jfr"⟩
  let error := "Invalid output path: Path is a directory: " ++ artifacts.graphic.text
  have hends : ((convertOne winding workRunner (rendererOf winding ⟨"./render.pl"⟩)
      ⟨⟨"app.jfr"⟩, "app"⟩ ⟨"./app.jfr"⟩).ends (Session.start workplace)).map
        (fun (outcome, files) => (outcome, files.pathExists artifacts.graphic)) =
          some (.renderFailed artifacts ⟨1, 2⟩ error, true) := by
    delta convertOne
    rw [Stack.fold_eq_tallied]
    decide +kernel
  obtain ⟨⟨outcome, files⟩, hends, hfound⟩ := Option.map_eq_some_iff.mp hends
  obtain ⟨rfl, hthere⟩ := Prod.mk.inj hfound
  obtain ⟨after, hstep, rfl⟩ := Step.exists_of_ends hends
  have habsent := h winding workRunner _ _ _ _ after _ _ _ workplace_plain
    (Runner.prepared_keepsFiles _) hstep (by decide +kernel)
  rw [hthere] at habsent
  cases habsent

end FlameFold.Conversion
