import FlameFold.Proofs.CommandLine.Running
import FlameFold.Proofs.CommandLine.Words
import FlameFold.Proofs.Conversion.Collapsed

/-!
# Three ways to collapsed stacks

The collapsed stacks of a dump are printed, written to a file that is named for them, or left
by a run that converts a recording. They are the same bytes in all three.
-/

namespace FlameFold.CommandLine

variable {around : Surroundings} {files : FileSystem}

/-- The text of a dump is at this path, or on the input where the path stands for it. -/
def Offers (around : Surroundings) (files : FileSystem) (input dump : String) : Prop :=
  if input = inputMark.text then around.input = Text.encode dump
  else files.read ⟨input⟩ = .ok (Text.encode dump)

/-- A dump that is offered is read. -/
theorem readDump_offered {input dump : String} (h : Offers around files input dump)
    (before : Session) (hfiles : before.files = files) :
    readDump around ⟨input⟩ before = .ok (.ok dump) before := by
  unfold Offers at h
  unfold readDump
  split at h
  · next hmark =>
    have hpath : (⟨input⟩ : Path) = inputMark := congrArg Path.mk hmark
    rw [if_pos hpath, h, Text.decode?_encode]
    rfl
  · next hmark =>
    have hpath : (⟨input⟩ : Path) ≠ inputMark := fun heq => hmark (congrArg Path.text heq)
    have hread : before.files.readText ⟨input⟩ = .ok dump := by
      simp only [FileSystem.readText, hfiles, h, bind, Except.bind, Text.decode?_encode]
    rw [if_neg hpath]
    simp only [bind, EStateM.bind, Session.view, hread]
    rfl

/-- A path that can be read is not empty. -/
theorem Offers.input_ne {input dump : String} (h : Offers around files input dump) :
    input ≠ "" := by
  rintro rfl
  rw [Offers, if_neg (by decide)] at h
  cases h

/-- The bytes of the collapsed stacks of a dump are printed when no file is named for them. -/
theorem foldDump_prints {input dump : String} (h : Offers around files input dump)
    (event : String) : ∃ after,
    foldDump around (foldOptions input event none) (Session.start files) = .ok (.ok ()) after ∧
      after.printed = Output.collapsedBytes (Stack.fold dump event).table := by
  have hread := readDump_offered h (Session.start files) rfl
  refine ⟨_, (Step.bind_ok hread).trans rfl, ?_⟩
  rw [Output.collapsedBytes, (Output.collapsedText_fold dump event).text_eq]
  exact List.nil_append _

/-- The bytes of the collapsed stacks of a dump are saved at the path that is named for
them. -/
theorem foldDump_saves {input dump : String} (h : Offers around files input dump)
    (event output : String) {left : FileSystem}
    (hsaved : Output.saved files ⟨output⟩
      (Output.collapsedBytes (Stack.fold dump event).table) = (left, .ok ())) : ∃ after,
    foldDump around (foldOptions input event (some output)) (Session.start files) =
      .ok (.ok ()) after ∧ after.files = left := by
  have hread := readDump_offered h (Session.start files) rfl
  have hgives : (do
      Session.noteAll (Stack.fold dump event).records
      deliver (Stack.fold dump event).table (some ⟨output⟩)).Gives (Session.start files)
        (.ok ()) left := by
    refine (Step.noteAll_gives _ _).bind fun noted hn => ?_
    have hwrite := Output.writeCollapsed_gives (Stack.fold dump event).table ⟨output⟩ noted
    rw [show noted.files = files from hn, hsaved] at hwrite
    refine hwrite.bind fun written hw => ?_
    obtain rfl : written.files = left := hw
    exact Step.pure_gives _ written
  obtain ⟨after, hfold, hleft, -⟩ := hgives
  exact ⟨after, (Step.bind_ok hread).trans hfold, hleft⟩

/-- The collapsed stacks of a dump are the same bytes wherever they come from: printed, written
to the file that is named for them, or left by a run for a recording with this dump. -/
theorem collapsed_stacks_agree (dump event : String) : ∃ bytes : List UInt8,
    (∃ text unique total, bytes = Text.encode text ∧
      Output.CollapsedForm dump event text unique total) ∧
    (∀ (around : Surroundings) (files : FileSystem) (input : String),
      around.environment.NamesPaths → Offers around (withInput around.input files) input dump →
      (run around files (foldWords input event none)).code = 0 ∧
      (run around files (foldWords input event none)).printed = bytes ∧
      ∀ output left, Output.saved (withInput around.input files) ⟨output⟩ bytes = (left, .ok ()) →
        (run around files (foldWords input event (some output))).code = 0 ∧
        (run around files (foldWords input event (some output))).files = left ∧
        (left.read ⟨output⟩ = .ok bytes ∨ ∃ device, left.find? ⟨output⟩ = some (.device device))) ∧
    ∀ (settings : Settings) (runner : Runner) (before after : Session)
      (summary : Conversion.Summary), settings.event = event →
      Conversion.run settings runner before = .ok (.ok summary) after →
      ∃ visits, Conversion.Tells settings runner before summary visits after.files after.calls ∧
        ∀ earlier visit later, visits = earlier ++ visit :: later →
          visit.Dumped settings runner (Text.encode dump) →
          visit.Leaves settings runner later bytes before.files after.files := by
  refine ⟨Output.collapsedBytes (Stack.fold dump event).table,
    ⟨_, _, _, rfl, Output.collapsedText_fold dump event⟩, ?_, ?_⟩
  · intro around files input henv hoffers
    have hrun : ∀ output?, output? ≠ some "" → run around files (foldWords input event output?) =
        runRequest around (withInput around.input files)
          ⟨.fold, foldOptions input event output?⟩ := by
      intro output? hne
      exact run_parsed (Request.parse_foldWords henv hoffers.input_ne hne event)
    obtain ⟨after, hfold, hprinted⟩ := foldDump_prints hoffers event
    have hdone : perform around ⟨.fold, foldOptions input event none⟩
        (Session.start (withInput around.input files)) = .ok (.ok ()) after := hfold
    obtain ⟨hcode, hout, -⟩ := runRequest_ok hdone
    refine ⟨(congrArg Outcome.code (hrun none (by simp))).trans hcode,
      (congrArg Outcome.printed (hrun none (by simp))).trans (hout.trans hprinted), ?_⟩
    intro output left hsaved
    have hne : output ≠ "" := by
      rintro rfl
      cases hsaved
    obtain ⟨after, hfold, hleft⟩ := foldDump_saves hoffers event output hsaved
    have hdone : perform around ⟨.fold, foldOptions input event (some output)⟩
        (Session.start (withInput around.input files)) = .ok (.ok ()) after := hfold
    obtain ⟨hcode, -, hfiles⟩ := runRequest_ok hdone
    rw [hrun (some output) (by simpa using hne)]
    exact ⟨hcode, hfiles.trans hleft, Output.saved_read hsaved⟩
  · rintro settings runner before after summary rfl h
    obtain ⟨visits, htells, hleaves⟩ := Conversion.run_leaves h
    exact ⟨visits, htells, fun earlier visit later hvisits hdumped =>
      hleaves earlier visit later hvisits dump hdumped⟩

/-- A dump of two samples of one stack on the input of a run in the workplace. -/
def workSurroundings : Surroundings :=
  ⟨[], Text.encode "a\n\na\n\n", "", Conversion.workRunner⟩

/-- The one visit of a run in the workplace is to a recording with this dump. -/
theorem dumped_workplace {visit : Conversion.Visit} {first : Session}
    (hrecording : visit.recording = ⟨⟨"app.jfr"⟩, "app"⟩) (hbefore : visit.before = first)
    (hfiles : first.files = Conversion.workplace) (hcalls : first.calls = []) :
    visit.Dumped (Conversion.workSettings "out") Conversion.workRunner
      (Text.encode "a\n\na\n\n") := by
  subst hbefore
  constructor
  · rw [hfiles, hrecording]
    decide +kernel
  · refine ⟨⟨some 0, Text.encode "a\n\na\n\n", []⟩, ?_, rfl, rfl⟩
    simp [Conversion.workRunner, Runner.prepared, hcalls]

/-- In the workplace the one line of this dump can be written to a file. -/
theorem saved_workplace : ∃ left,
    Output.saved (withInput workSurroundings.input Conversion.workplace) ⟨"out.txt"⟩
      (Text.encode "a 2\n") = (left, .ok ()) ∧ left.isFile ⟨"out.txt"⟩ = true := by
  have hends : (Output.saved (withInput workSurroundings.input Conversion.workplace) ⟨"out.txt"⟩
      (Text.encode "a 2\n")).map (·.isFile ⟨"out.txt"⟩) id = (true, .ok ()) := by
    decide +kernel
  generalize Output.saved (withInput workSurroundings.input Conversion.workplace) ⟨"out.txt"⟩
    (Text.encode "a 2\n") = pair at hends ⊢
  obtain ⟨left, result⟩ := pair
  obtain ⟨hfile, rfl⟩ := Prod.mk.inj hends
  exact ⟨left, rfl, hfile⟩

/-- In the workplace the one line of this dump is printed, written and left. -/
theorem collapsed_stacks_agree_workplace : ∃ bytes, bytes = Text.encode "a 2\n" ∧
    (run workSurroundings Conversion.workplace
      (foldWords "-" "jdk.ExecutionSample" none)).printed = bytes ∧
    (run workSurroundings Conversion.workplace
      (foldWords "-" "jdk.ExecutionSample" (some "out.txt"))).files.read ⟨"out.txt"⟩ = .ok bytes ∧
    ∃ summary after, Conversion.run (Conversion.workSettings "out") Conversion.workRunner
        (Session.start Conversion.workplace) = .ok (.ok summary) after ∧
      after.files.read ⟨"./out/app_collapsed.txt"⟩ = .ok bytes := by
  obtain ⟨bytes, ⟨text, unique, total, hbytes, hform⟩, hfold, hconvert⟩ :=
    collapsed_stacks_agree "a\n\na\n\n" "jdk.ExecutionSample"
  have htext : text = "a 2\n" := by
    have htable : (Stack.fold "a\n\na\n\n" "jdk.ExecutionSample").table.toList = [⟨"a", 2⟩] := by
      rw [Stack.fold_eq_tallied]
      decide +kernel
    have hsorted : (Stack.fold "a\n\na\n\n" "jdk.ExecutionSample").table.sorted = [⟨"a", 2⟩] := by
      simp [Stack.CountTable.sorted, htable]
    rw [hform.text_eq, hsorted]
    decide +kernel
  subst hbytes htext
  obtain ⟨left, hsaved, hfile⟩ := saved_workplace
  obtain ⟨-, hprinted, hwritten⟩ := hfold workSurroundings Conversion.workplace "-"
    ⟨by decide, by decide⟩ rfl
  obtain ⟨-, hfiles, hread⟩ := hwritten "out.txt" left hsaved
  refine ⟨_, rfl, hprinted, ?_, ?_⟩
  · rw [hfiles]
    refine hread.resolve_right ?_
    rintro ⟨device, hdevice⟩
    rw [FileSystem.isFile, hdevice] at hfile
    cases hfile
  · have hfound : (Conversion.run (Conversion.workSettings "out") Conversion.workRunner).found?
        (Session.start Conversion.workplace)
        (fun summary _ => summary.results.map fun result => result.outcome.isCollapsed) =
          some [true] := by
      unfold Conversion.run Conversion.runWith
      simp only [Conversion.workSettings, Conversion.convertAll]
      delta Conversion.convertOne
      rw [Stack.fold_eq_tallied]
      decide +kernel
    obtain ⟨summary, after, hrun, houtcomes⟩ := Step.exists_of_found hfound
    refine ⟨summary, after, hrun, ?_⟩
    obtain ⟨visits, htells, hleaves⟩ := hconvert _ _ _ _ _ rfl hrun
    obtain ⟨first, last, hfirst, hcalls, hchain, -, -⟩ := htells.chain
    obtain ⟨visit, rfl, hrecording⟩ := List.map_eq_singleton_iff.mp htells.recordings
    rw [htells.results] at houtcomes
    have hdumped := dumped_workplace hrecording hchain.1 hfirst hcalls
    have hkept := (hleaves [] visit [] rfl hdumped).kept (Runner.prepared_keepsFiles _)
      (Recording.clear_of_plain Conversion.workplace_plain) (List.cons.inj houtcomes).1 (by simp)
    rw [hrecording] at hkept
    exact hkept

end FlameFold.CommandLine
