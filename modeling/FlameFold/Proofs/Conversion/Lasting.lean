import FlameFold.Proofs.Conversion.Outcomes
import FlameFold.Proofs.Conversion.Visits

/-!
# What a summary still says at the end

The files of a recording are named by its stem. A later recording with another stem writes to
other places, so what a summary tells of a recording stays true until a recording with the
same stem is converted and writes its own files in their place.
-/

namespace FlameFold.Conversion

/-- Whether the file of collapsed stacks was written. -/
def Outcome.isCollapsed : Outcome → Bool
  | .rendered _ _ => true
  | .renderFailed _ _ _ => true
  | _ => false

/-- The stem that the files of the recording are named by. -/
def Visit.stem (settings : Settings) (visit : Visit) : String :=
  (settings.recordingPath visit.recording).stem

/-- The visit may have written a file at the place: one of its own two files, as far as its
outcome tells that it was written. -/
def Visit.Writes (settings : Settings) (visit : Visit) (place : Location) : Prop :=
  (visit.outcome.isCollapsed = true ∧
      place.head? = some (Recording.fileName (visit.stem settings) Recording.collapsedEnding)) ∨
    (visit.outcome.isRendered = true ∧
      place.head? = some (Recording.fileName (visit.stem settings) Recording.graphicEnding))

section

variable {settings : Settings} {runner : Runner} {renderer : Render.Renderer} {visit : Visit}
  {visits later : List Visit} {first last : Session} {place : Location}

/-- A visit changes no file but those that it writes. -/
theorem Visit.changed {files : FileSystem}
    (h : Truth settings runner renderer (settings.recordingPath visit.recording) visit.before
      files visit.outcome) :
    ∃ places, FileSystem.Changed settings.outputPath.ancestors places visit.before.files files ∧
      ∀ place ∈ places, visit.Writes settings place := by
  obtain ⟨recording, before, outcome, after⟩ := visit
  unfold Visit.Writes
  dsimp only at h ⊢
  cases h with
  | skipped h => exact ⟨[], h ▸ .refl _ _, by simp⟩
  | dumpFailed h => exact ⟨[], h ▸ .refl _ _, by simp⟩
  | writeFailed h => exact ⟨[], h.changed [], by simp⟩
  | @renderFailed _ _ _ place hcollapsed _ hrest =>
    refine ⟨[place], hrest, fun q hq => .inl ⟨rfl, ?_⟩⟩
    rw [List.mem_singleton.mp hq]
    exact (Recording.locate_collapsed hcollapsed.holds.located).1
  | @rendered _ _ place graphic hcollapsed hgraphic hrest =>
    refine ⟨[place, graphic], hrest, fun q hq => ?_⟩
    rcases List.mem_pair.mp hq with rfl | rfl
    · exact .inl ⟨rfl, (Recording.locate_collapsed hcollapsed.holds.located).1⟩
    · exact .inr ⟨rfl, (Recording.locate_graphic hgraphic.located).1⟩

/-- The first visit leads on to the rest, and its outcome is true. -/
theorem Visits.head (h : Visits settings runner renderer (visit :: later) first last)
    (hclear : Recording.Clear first.files) (hkeeps : runner.KeepsFiles) :
    Recording.Clear visit.after.files ∧
      Truth settings runner renderer (settings.recordingPath visit.recording) visit.before
        visit.after.files visit.outcome ∧
      Visits settings runner renderer later visit.after last := by
  obtain ⟨rfl, hstep, hrest⟩ := h
  have htruth := ((convertOne_follows ..).of_ok hstep).truth hclear hkeeps
  obtain ⟨places, hchanged, -⟩ := Visit.changed htruth
  exact ⟨hclear.changed hchanged, htruth, hrest⟩

/-- Visits change no files but those that they write. -/
theorem Visits.changed (h : Visits settings runner renderer visits first last)
    (hclear : Recording.Clear first.files) (hkeeps : runner.KeepsFiles) :
    ∃ places, FileSystem.Changed settings.outputPath.ancestors places first.files last.files ∧
      ∀ place ∈ places, ∃ visit ∈ visits, visit.Writes settings place := by
  induction visits generalizing first with
  | nil =>
    obtain rfl : first = last := h
    exact ⟨[], .refl _ _, by simp⟩
  | cons visit rest ih =>
    obtain ⟨hleft, htruth, hrest⟩ := h.head hclear hkeeps
    obtain ⟨places, hfirst, hwrites⟩ := Visit.changed htruth
    obtain ⟨more, hmore, hlater⟩ := ih hrest hleft
    have hbefore : visit.before = first := h.1
    rw [hbefore] at hfirst
    refine ⟨places ++ more, hfirst.trans hmore, fun place hplace => ?_⟩
    rcases List.mem_append.mp hplace with hplace | hplace
    · exact ⟨visit, List.mem_cons_self, hwrites place hplace⟩
    · obtain ⟨other, hother, hw⟩ := hlater place hplace
      exact ⟨other, List.mem_cons_of_mem _ hother, hw⟩

/-- Collapsed stacks are written by visits with their stem only. -/
theorem Visit.Writes.collapsed {other : Visit} (h : other.Writes settings place)
    (hplace : place.head? =
      some (Recording.fileName (visit.stem settings) Recording.collapsedEnding)) :
    other.stem settings = visit.stem settings ∧ other.outcome.isCollapsed = true := by
  rw [Visit.Writes, hplace] at h
  obtain ⟨hwritten, hname⟩ | ⟨-, hname⟩ := h
  · exact ⟨(Recording.fileName_inj.mp (Option.some.inj hname)).symm, hwritten⟩
  · exact absurd (Option.some.inj hname) (Recording.fileName_ne _ _)

/-- Flame graphs are written by visits with their stem only. -/
theorem Visit.Writes.graphic {other : Visit} (h : other.Writes settings place)
    (hplace : place.head? =
      some (Recording.fileName (visit.stem settings) Recording.graphicEnding)) :
    other.stem settings = visit.stem settings ∧ other.outcome.isRendered = true := by
  rw [Visit.Writes, hplace] at h
  obtain ⟨-, hname⟩ | ⟨hwritten, hname⟩ := h
  · exact absurd (Option.some.inj hname).symm (Recording.fileName_ne _ _)
  · exact ⟨(Recording.fileName_inj.mp (Option.some.inj hname)).symm, hwritten⟩

end

/-- What is left at the end of a recording that was rendered, given the visits that came after
it: its collapsed stacks, until a recording with the same stem was dumped and written, and its
flame graph, until one was rendered. -/
structure Lasting (settings : Settings) (runner : Runner) (visit : Visit) (later : List Visit)
    (artifacts : Recording.Artifacts) (counts : Counts) (files : FileSystem) : Prop where
  /-- The two files are those of the recording. -/
  artifacts : artifacts = .of settings.outputPath (settings.recordingPath visit.recording)
  /-- They still are what they were. -/
  files : ∃ text place graphic,
    ((∀ other ∈ later, other.stem settings = visit.stem settings →
        other.outcome.isCollapsed = false) →
      Stands settings runner (settings.recordingPath visit.recording) visit.before counts text
        place files) ∧
    ((∀ other ∈ later, other.stem settings = visit.stem settings →
        other.outcome.isRendered = false) →
      Drawn settings runner (rendererOf settings settings.rendererPath)
        (settings.recordingPath visit.recording) visit.before text graphic files)

/-- What a visit leaves lasts over the visits after it. -/
theorem Visits.lasting {settings : Settings} {runner : Runner} {visit : Visit}
    {later : List Visit} {first last : Session}
    (h : Visits settings runner (rendererOf settings settings.rendererPath) (visit :: later)
      first last)
    (hclear : Recording.Clear first.files) (hkeeps : runner.KeepsFiles)
    {artifacts : Recording.Artifacts} {counts : Counts}
    (houtcome : visit.outcome = .rendered artifacts counts) :
    Lasting settings runner visit later artifacts counts last.files := by
  obtain ⟨hleft, htruth, hrest⟩ := h.head hclear hkeeps
  obtain ⟨places, hchanged, hwrites⟩ := hrest.changed hleft hkeeps
  obtain ⟨hartifacts, text, place, graphic, hcollapsed, hgraphic⟩ := htruth.of_rendered houtcome
  refine ⟨hartifacts, text, place, graphic, fun hkept => ?_, fun hkept => ?_⟩
  · refine hcollapsed.changed hchanged fun hplace => ?_
    obtain ⟨other, hother, hw⟩ := hwrites place hplace
    have hname := (Recording.locate_collapsed hcollapsed.holds.located).1
    obtain ⟨hstem, hwritten⟩ := Visit.Writes.collapsed hw hname
    rw [hkept other hother hstem] at hwritten
    cases hwritten
  · refine hgraphic.changed hchanged fun hplace => ?_
    obtain ⟨other, hother, hw⟩ := hwrites graphic hplace
    have hname := (Recording.locate_graphic hgraphic.located).1
    obtain ⟨hstem, hwritten⟩ := Visit.Writes.graphic hw hname
    rw [hkept other hother hstem] at hwritten
    cases hwritten

/-- At the end of a run its summary is true of every recording that was rendered, until a
later recording with the same stem has written its own files in their place. -/
theorem run_summary_lasts {settings : Settings} {runner : Runner} {before after : Session}
    {summary : Summary} (hclear : Recording.Clear before.files) (hkeeps : runner.KeepsFiles)
    (h : run settings runner before = .ok (.ok summary) after) :
    ∃ visits, Tells settings runner before summary visits after.files after.calls ∧
      ∀ earlier visit later, visits = earlier ++ visit :: later →
        ∀ artifacts counts, visit.outcome = .rendered artifacts counts →
          Lasting settings runner visit later artifacts counts after.files := by
  obtain ⟨hvalid, hscript⟩ := run_started h
  obtain ⟨told, visits, hanswer, htells⟩ := (run_follows hvalid hscript runner).of_ok h
  obtain rfl : summary = told := Except.ok.inj hanswer
  refine ⟨visits, htells, fun earlier visit later hvisits artifacts counts houtcome => ?_⟩
  obtain ⟨first, last, hfirst, -, hchain, hlast, -⟩ := htells.chain
  rw [hvisits] at hchain
  obtain ⟨middle, hearlier, hlater⟩ := hchain.split
  rw [← hfirst] at hclear
  obtain ⟨places, hchanged, -⟩ := hearlier.changed hclear hkeeps
  exact hlast ▸ hlater.lasting (hclear.changed hchanged) hkeeps houtcome

/-- Recordings in two directories, two of them with the same stem, and a renderer script. -/
def branches : FileSystem where
  nodes :=
    [([Text.encode "a"], .directory), ([Text.encode "b"], .directory),
      ([Text.encode "app.jfr", Text.encode "a"], .file [] false),
      ([Text.encode "app.jfr", Text.encode "b"], .file [] false),
      ([Text.encode "web.jfr", Text.encode "b"], .file [] false),
      ([Text.encode "render.pl"], .file [] true)]
  here := []

/-- Settings that convert the recordings of the branches into one directory. -/
def branchSettings (files : List String) : Settings :=
  { Settings.standard with
    root := ⟨"."⟩
    outputDirectory := some ⟨"out"⟩
    rendererScript := ⟨"render.pl"⟩
    recordings := files.map fun file => ⟨⟨file⟩, file⟩ }

/-- A dump with one sample that is rendered, and a dump with none that is rendered or not. -/
def branchRunner (code : Int) : Runner :=
  .prepared [fun _ => .ok ⟨some 0, Text.encode "a\n\n", []⟩,
    fun _ => .ok ⟨some 0, Text.encode "<svg/>", []⟩, fun _ => .ok ⟨some 0, [], []⟩,
    fun _ => .ok ⟨some code, [], []⟩]

theorem branches_plain : branches.Plain :=
  FileSystem.plain_of_nodes (by simp [branches])

/-- Recordings with different stems are both rendered, and the summary stays true of them. -/
theorem run_summary_lasts_branches : Recording.Clear branches ∧ (branchRunner 0).KeepsFiles ∧
    ∃ summary after, run (branchSettings ["a/app.jfr", "b/web.jfr"]) (branchRunner 0)
        (Session.start branches) = .ok (.ok summary) after ∧
      summary.renderedCount = 2 ∧
      ∃ visits, Tells (branchSettings ["a/app.jfr", "b/web.jfr"]) (branchRunner 0)
          (Session.start branches) summary visits after.files after.calls ∧
        ∀ earlier visit later, visits = earlier ++ visit :: later →
          ∀ artifacts counts, visit.outcome = .rendered artifacts counts →
            Lasting (branchSettings ["a/app.jfr", "b/web.jfr"]) (branchRunner 0) visit later
              artifacts counts after.files := by
  have hfound : (run (branchSettings ["a/app.jfr", "b/web.jfr"]) (branchRunner 0)).found?
      (Session.start branches) (fun summary _ => summary.renderedCount) = some 2 := by
    unfold run runWith
    simp only [branchSettings, List.map_cons, List.map_nil, convertAll]
    delta convertOne
    rw [Stack.fold_eq_tallied]
    decide +kernel
  obtain ⟨summary, after, hrun, hcount⟩ := Step.exists_of_found hfound
  have hkeeps : (branchRunner 0).KeepsFiles := Runner.prepared_keepsFiles _
  have hclear : Recording.Clear (Session.start branches).files :=
    Recording.clear_of_plain branches_plain
  exact ⟨hclear, hkeeps, summary, after, hrun, hcount, run_summary_lasts hclear hkeeps hrun⟩

/-- Of two recordings with the same stem the second writes in the place of the first. The
summary says that the first one has a line, and at the end its file has none. -/
theorem shared_stem_not_lasting :
    ¬∀ (settings : Settings) (runner : Runner) (before after : Session) (summary : Summary),
      before.files.Plain → runner.KeepsFiles →
      run settings runner before = .ok (.ok summary) after →
      ∀ result ∈ summary.results, ∀ artifacts counts,
        result.outcome = .rendered artifacts counts →
        ∃ content, after.files.read artifacts.collapsed = .ok content ∧
          content.count 0x0A = counts.uniqueStacks := by
  intro h
  let settings := branchSettings ["a/app.jfr", "b/app.jfr"]
  let artifacts := Recording.Artifacts.of ⟨"./out"⟩ ⟨"./a/app.jfr"⟩
  have hfound : (run settings (branchRunner 1)).found? (Session.start branches)
      (fun summary after => (summary.results.head?.map Result.outcome,
        (after.files.read artifacts.collapsed).toOption)) =
      some (some (.rendered artifacts ⟨1, 1⟩), some []) := by
    unfold run runWith
    simp only [settings, branchSettings, List.map_cons, List.map_nil, convertAll]
    delta convertOne
    rw [Stack.fold_eq_tallied]
    decide +kernel
  obtain ⟨summary, after, hrun, hlook⟩ := Step.exists_of_found hfound
  obtain ⟨houtcome, hread⟩ := Prod.mk.inj hlook
  obtain ⟨result, hresult, hrendered⟩ := Option.map_eq_some_iff.mp houtcome
  obtain ⟨content, hcontent, hcount⟩ := h settings (branchRunner 1) _ after summary branches_plain
    (Runner.prepared_keepsFiles _) hrun result (List.mem_of_mem_head? hresult) _ _ hrendered
  rw [hcontent] at hread
  obtain rfl : content = [] := Option.some.inj hread
  exact absurd hcount (by decide)

end FlameFold.Conversion
