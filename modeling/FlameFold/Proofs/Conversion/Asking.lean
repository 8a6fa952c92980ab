import FlameFold.Proofs.Conversion.Calls
import FlameFold.Proofs.Session.Asking

/-!
# What a run asks its runner

A run asks its runner for dumps of its recordings and for renderings, and for nothing else,
however it ends. This is followed down through the run. It is said for any kind of files that
neither the programs called nor the writing of a file makes files of another kind.
-/

namespace FlameFold

/-- No file that is saved makes files of another kind of files of this kind. -/
def Output.Keeping (kept : FileSystem → Prop) : Prop :=
  ∀ files p content, kept files → kept (saved files p content).1

section

variable {kept : FileSystem → Prop} {asked : FileSystem → Program.Invocation → Prop}
  {runner other : Runner} (hrunner : runner.Keeping kept) (hsaved : Output.Keeping kept)
  (hagrees : runner.Agrees asked other)

section

include hsaved

theorem Output.writeCollapsed_alike (table : Stack.CountTable) (p : Path) :
    Step.Alike kept asked runner other (writeCollapsed table p) (writeCollapsed table p) :=
  .of_gives fun before hbefore => ⟨_, _, writeCollapsed_gives table p before, hsaved _ _ _ hbefore⟩

theorem Output.writeGraphic_alike (content : List UInt8) (p : Path) :
    Step.Alike kept asked runner other (writeGraphic content p) (writeGraphic content p) :=
  .of_gives fun before hbefore => ⟨_, _, writeGraphic_gives content p before, hsaved _ _ _ hbefore⟩

end

include hrunner hagrees

/-- Dumping asks for the dump tool alone. -/
theorem Dump.dump_alike {request : Request}
    (h : ∀ files, kept files → asked files request.invocation) :
    Step.Alike kept asked runner other (dump runner request) (dump other request) := by
  unfold dump
  refine (Step.note_alike _ _ _).bind fun _ => ?_
  refine (Step.call_alike hrunner hagrees h).bind fun answer => ?_
  cases answer with
  | error failure => exact Step.pure_alike _
  | ok output =>
    dsimp only
    cases textOf output with
    | error failure => exact Step.pure_alike _
    | ok text => exact (Step.note_alike _ _ _).bind fun _ => Step.pure_alike _

include hsaved

/-- Rendering asks for the script alone. -/
theorem Render.render_alike {renderer : Renderer}
    (h : ∀ input files, kept files → asked files (renderer.invocation input))
    (collapsed graphic : Path) :
    Step.Alike kept asked runner other (render runner renderer collapsed graphic)
      (render other renderer collapsed graphic) := by
  unfold render
  refine (Step.note_alike _ _ _).bind fun _ => ?_
  refine (Step.view_alike _).bind fun read => ?_
  cases read with
  | error cause => exact Step.pure_alike _
  | ok input =>
    refine (Step.note_alike _ _ _).bind fun _ => ?_
    refine (Step.call_alike hrunner hagrees (h input)).bind fun answer => ?_
    cases answer with
    | error failure => exact Step.pure_alike _
    | ok output =>
      dsimp only
      split
      · refine (Output.writeGraphic_alike hsaved _ _).bind fun written => ?_
        cases written <;> exact Step.pure_alike _
      · exact Step.pure_alike _

namespace Conversion

variable {settings : Settings} {renderer : Render.Renderer}

/-- What becomes of a table asks for the script alone. -/
theorem produce_alike
    (h : ∀ input files, kept files → asked files (renderer.invocation input))
    (artifacts : Recording.Artifacts) (table : Stack.CountTable) :
    Step.Alike kept asked runner other (produce runner renderer artifacts table)
      (produce other renderer artifacts table) := by
  unfold produce
  refine (Output.writeCollapsed_alike hsaved _ _).bind fun written => ?_
  cases written with
  | error failure => exact (Step.note_alike _ _ _).bind fun _ => Step.pure_alike _
  | ok count =>
    refine (Render.render_alike hrunner hsaved hagrees h _ _).bind fun rendered => ?_
    cases rendered with
    | error failure => exact (Step.note_alike _ _ _).bind fun _ => Step.pure_alike _
    | ok _ => exact Step.pure_alike _

/-- Converting a recording asks for its dump and for renderings. -/
theorem convertOne_alike {path : Path}
    (hdump : ∀ files, kept files → asked files (dumpCall settings path))
    (h : ∀ input files, kept files → asked files (renderer.invocation input))
    (recording : Recording) :
    Step.Alike kept asked runner other (convertOne settings runner renderer recording path)
      (convertOne settings other renderer recording path) := by
  unfold convertOne
  refine (Step.view_alike _).bind fun there => ?_
  split
  · refine (Step.note_alike _ _ _).bind fun _ => ?_
    have hdumping : Step.Alike kept asked runner other
        (Dump.dump runner (dumpRequest settings path))
        (Dump.dump other (dumpRequest settings path)) := Dump.dump_alike hrunner hagrees hdump
    refine hdumping.bind fun dumped => ?_
    cases dumped with
    | error failure =>
      exact (Step.Alike.of_leaves fun before => ⟨_, noteDumpFailure_gives _ _ before⟩).bind
        fun _ => Step.pure_alike _
    | ok text =>
      have hproduce := produce_alike hrunner hsaved hagrees h (.of settings.outputPath path)
        (Stack.fold text settings.event).table
      refine (Step.Alike.of_leaves fun before => ⟨_, Step.noteAll_gives _ before⟩).bind
        fun _ => ?_
      split
      · exact (Step.note_alike _ _ _).bind fun _ => hproduce
      · exact hproduce
  · exact (Step.note_alike _ _ _).bind fun _ => Step.pure_alike _

/-- Converting recordings in turn asks for their dumps and for renderings. -/
theorem convertAll_alike {recordings : List Recording}
    (hdump : ∀ recording ∈ recordings, ∀ files, kept files →
      asked files (dumpCall settings (settings.recordingPath recording)))
    (h : ∀ input files, kept files → asked files (renderer.invocation input)) :
    Step.Alike kept asked runner other (convertAll settings runner renderer recordings)
      (convertAll settings other renderer recordings) := by
  induction recordings with
  | nil => exact Step.pure_alike _
  | cons recording rest ih =>
    obtain ⟨hfirst, hrest⟩ := List.forall_mem_cons.mp hdump
    refine (convertOne_alike hrunner hsaved hagrees hfirst h recording).bind fun outcome => ?_
    exact (ih hrest).bind fun results => Step.pure_alike _

omit hrunner hsaved hagrees in
/-- The renderer script is found where it is a file. -/
theorem findRenderer_eq_ok_iff {files : FileSystem} {script : Path} :
    findRenderer settings files = .ok script ↔
      script = settings.rendererPath ∧ files.isFile script = true := by
  unfold findRenderer
  dsimp only
  split_ifs with hfile
  · constructor
    · intro hfound
      cases hfound
      exact ⟨rfl, hfile⟩
    · rintro ⟨rfl, -⟩
      rfl
  · constructor
    · intro hfound
      cases hfound
    · rintro ⟨rfl, hfile'⟩
      exact absurd hfile' hfile

/-- A run asks for dumps of its recordings and for renderings. -/
theorem run_alike
    (hdump : ∀ recording ∈ settings.recordings, ∀ files, kept files →
      asked files (dumpCall settings (settings.recordingPath recording)))
    (h : ∀ input files, kept files → asked files (renderCall settings input)) :
    Step.Alike kept asked runner other (run settings runner) (run settings other) := by
  unfold run
  cases settings.validate with
  | error shortcoming => exact Step.pure_alike _
  | ok _ =>
    refine (Step.view_alike _).bind_of_ok fun before middle found hview => ?_
    have hfound : findRenderer settings before.files = found := (EStateM.Result.ok.inj hview).1
    cases found with
    | error failure => exact Step.pure_alike _
    | ok script =>
      obtain ⟨rfl, -⟩ := findRenderer_eq_ok_iff.mp hfound
      have hall : Step.Alike kept asked runner other
          (convertAll settings runner (rendererOf settings settings.rendererPath)
            settings.recordings)
          (convertAll settings other (rendererOf settings settings.rendererPath)
            settings.recordings) := convertAll_alike hrunner hsaved hagrees hdump h
      refine Step.Alike.bind ?_ fun summary => Step.pure_alike _
      unfold runWith
      refine (Step.note_alike _ _ _).bind fun _ => ?_
      refine hall.bind fun results => ?_
      refine (Step.Alike.of_leaves fun session => ⟨_, listGraphics_gives _ session⟩).bind
        fun graphics => ?_
      refine (Step.Alike.of_leaves fun session => ⟨_, Step.printBytes_gives _ session⟩).bind
        fun _ => ?_
      refine (Step.Alike.of_leaves fun session => ⟨_, Step.timeWaited_gives session⟩).bind
        fun waited => ?_
      exact (Step.note_alike _ _ _).bind fun _ => Step.pure_alike _

end Conversion

end

end FlameFold
