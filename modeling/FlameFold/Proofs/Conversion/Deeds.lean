import FlameFold.Proofs.Conversion.Steady
import FlameFold.Proofs.FileSystem.Refilling
import FlameFold.Proofs.Output.Standing

/-!
# What a recording does in an output directory that stands

Where the output directory stands and programs are steady, converting a recording makes no
directory and reads nothing but its own collapsed stacks. It does the same in all file systems
that differ in nothing but plain files, whatever these hold: it has the same outcome, fills the
same files with the same contents and makes the same calls. A run does what its recordings do,
one after the other, as long as no recording comes to be there that was not.
-/

namespace FlameFold

open FileSystem

/-- The file of collapsed stacks has its place in an output directory that stands. -/
theorem Recording.berth_collapsed {fs : FileSystem} {directory : Path} {out : Location}
    (hl : fs.locate directory = .ok out) (hn : fs.node? out = some .directory) (p : Path) :
    fs.Berth (Artifacts.of directory p).collapsed (fileName p.stem collapsedEnding) out := by
  rw [collapsed_eq]
  exact Path.berth_join (collapsed_isName p) hl hn

/-- The flame graph has its place in an output directory that stands. -/
theorem Recording.berth_graphic {fs : FileSystem} {directory : Path} {out : Location}
    (hl : fs.locate directory = .ok out) (hn : fs.node? out = some .directory) (p : Path) :
    fs.Berth (Artifacts.of directory p).graphic (fileName p.stem graphicEnding) out := by
  rw [graphic_eq]
  exact Path.berth_join (graphic_isName p) hl hn

variable {base fs top : FileSystem} {answer : Answering} {renderer : Render.Renderer}
  {out : Location}

/-- What rendering does depends on the collapsed stacks that are read, and on no other file. -/
theorem Render.account_filled (answer : Answering) (renderer : Renderer) {collapsed graphic : Path}
    {name : Name} (hberth : ∀ fs, base.Filled fs → fs.Berth graphic name out)
    (input : Except SystemFault (List UInt8)) :
    ∃ result writings calls, base.Takes writings ∧
      (writings.map Writing.place).Sublist [name :: out] ∧
      ∀ fs, base.Filled fs → fs.read collapsed = input →
        account answer renderer collapsed graphic fs = ⟨result, fs.fillAll writings, calls⟩ := by
  cases input with
  | error cause =>
    refine ⟨.error (.inputUnreadable collapsed cause), [], [], by simp [Takes], by simp,
      fun fs _ hread => ?_⟩
    simp only [account, hread, fillAll_nil]
  | ok input =>
    cases hanswer : answer (renderer.invocation input) with
    | error failure =>
      refine ⟨.error (.notRun failure), [], [renderer.invocation input], by simp [Takes], by simp,
        fun fs _ hread => ?_⟩
      simp only [account, hread, hanswer, fillAll_nil]
    | ok output =>
      by_cases hsucceeded : output.succeeded = true
      · obtain ⟨filing, htakes, hplaces, hsaved, -⟩ := Output.saved_filled hberth output.written
        refine ⟨filing.result.mapError .notSaved, filing.writings, [renderer.invocation input],
          htakes, hplaces, fun fs hfs hread => ?_⟩
        simp only [account, hread, hanswer, if_pos hsucceeded, hsaved fs hfs]
      · refine ⟨.error (.rendererFailed output.status (Text.trim output.complaintsText)), [],
          [renderer.invocation input], by simp [Takes], by simp, fun fs _ hread => ?_⟩
        simp only [account, hread, hanswer, if_neg hsucceeded, fillAll_nil]

namespace Conversion

/-- What the conversion of a recording does. -/
structure Deed where
  /-- What becomes of the recording. -/
  outcome : Outcome
  /-- The files that are filled. -/
  writings : List Writing
  /-- The programs that are called. -/
  calls : List Program.Invocation

namespace Deed

/-- To pass over a recording. -/
def skip : Deed := ⟨.skipped, [], []⟩

/-- What a deed comes to. -/
def account (deed : Deed) (files : FileSystem) : Account Outcome :=
  ⟨deed.outcome, files.fillAll deed.writings, deed.calls⟩

/-- The deed fills files for the recording at the path and no others, each once, and nothing
stands in the way of them. -/
structure Fits (deed : Deed) (base : FileSystem) (path : Path) : Prop where
  /-- Nothing stands in the way. -/
  takes : base.Takes deed.writings
  /-- The files are named by the stem of the recording. -/
  places : ∃ out, (deed.writings.map Writing.place).Sublist
    [Recording.fileName path.stem Recording.collapsedEnding :: out,
      Recording.fileName path.stem Recording.graphicEnding :: out]

namespace Fits

variable {deed other : Deed} {path another : Path} {writing found : Writing}

/-- A file that is filled is named by the stem of the recording. -/
theorem head?_place (h : deed.Fits base path) (hmem : writing ∈ deed.writings) :
    writing.place.head? = some (Recording.fileName path.stem Recording.collapsedEnding) ∨
      writing.place.head? = some (Recording.fileName path.stem Recording.graphicEnding) := by
  obtain ⟨out, hplaces⟩ := h.places
  rcases List.mem_pair.mp (hplaces.subset (List.mem_map_of_mem hmem)) with hplace | hplace
  · exact .inl (by rw [hplace]; rfl)
  · exact .inr (by rw [hplace]; rfl)

/-- No file is filled twice. -/
theorem apart (h : deed.Fits base path) :
    deed.writings.Pairwise fun writing found => writing.place ≠ found.place := by
  obtain ⟨out, hplaces⟩ := h.places
  refine List.pairwise_map.mp (List.Pairwise.sublist hplaces ?_)
  simpa using Recording.fileName_ne path.stem path.stem

/-- Recordings with different stems fill different files. -/
theorem place_ne (h : deed.Fits base path) (h' : other.Fits base another)
    (hstem : path.stem ≠ another.stem) (hmem : writing ∈ deed.writings)
    (hfound : found ∈ other.writings) : writing.place ≠ found.place := by
  intro hplace
  have hname := h.head?_place hmem
  rw [hplace] at hname
  rcases hname with hname | hname <;> rcases h'.head?_place hfound with hother | hother <;>
    rw [hother, Option.some.injEq] at hname
  · exact hstem (Recording.fileName_inj.mp hname).symm
  · exact Recording.fileName_ne _ _ hname.symm
  · exact Recording.fileName_ne _ _ hname
  · exact hstem (Recording.fileName_inj.mp hname).symm

end Fits

theorem skip_fits (base : FileSystem) (path : Path) : skip.Fits base path :=
  ⟨by simp [skip, Takes], [], by simp [skip]⟩

end Deed

section

variable {settings : Settings} {path : Path}

/-- What becomes of a table depends on no plain file. -/
theorem tableAccount_filled (answer : Answering) (renderer : Render.Renderer)
    (hl : base.locate settings.outputPath = .ok out) (hn : base.node? out = some .directory)
    (path : Path) (table : Stack.CountTable) :
    ∃ deed : Deed, deed.Fits base path ∧ ∀ fs, base.Filled fs →
      tableAccount settings answer renderer path table fs = deed.account fs := by
  have hcollapsed := fun fs (hfs : base.Filled fs) =>
    Recording.berth_collapsed (hfs.locate hl) (hfs.directory _ hn) path
  have hgraphic := fun fs (hfs : base.Filled fs) =>
    Recording.berth_graphic (hfs.locate hl) (hfs.directory _ hn) path
  obtain ⟨filing, htakes, hplaces, hsaved, hread⟩ :=
    Output.saved_filled hcollapsed (Output.collapsedBytes table)
  cases hresult : filing.result with
  | error failure =>
    refine ⟨⟨.writeFailed failure.message, filing.writings, []⟩,
      ⟨htakes, out, hplaces.trans (by simp)⟩, fun fs hfs => ?_⟩
    exact tableAccount_unsaved ((hsaved fs hfs).trans (by rw [hresult]))
  | ok _ =>
    obtain ⟨input, hread⟩ := hread hresult
    obtain ⟨result, more, calls, htakes', hplaces', hrender⟩ :=
      Render.account_filled answer renderer hgraphic input
    refine ⟨⟨renderOutcome (.of settings.outputPath path) (countsOf table) result,
      filing.writings ++ more, calls⟩, ⟨?_, out, ?_⟩, fun fs hfs => ?_⟩
    · exact List.forall_mem_append.mpr ⟨htakes, htakes'⟩
    · rw [List.map_append]
      exact hplaces.append hplaces'
    · rw [tableAccount_saved ((hsaved fs hfs).trans (by rw [hresult]))
        (hrender _ (hfs.fillAll htakes) (hread fs hfs)), Deed.account, fillAll_append]

/-- What the conversion of a recording that is there does depends on no plain file. -/
theorem account_filled (answer : Answering) (renderer : Render.Renderer)
    (hdirectory : base.isDirectory settings.outputPath = true) (path : Path) :
    ∃ deed : Deed, deed.Fits base path ∧ ∀ fs, base.Filled fs →
      account settings answer renderer path fs =
        (if fs.pathExists path then deed else .skip).account fs := by
  obtain ⟨out, hl, hn⟩ := isDirectory_iff.mp hdirectory
  cases hdump : Dump.textOfAnswer (answer (dumpCall settings path)) with
  | error failure =>
    refine ⟨⟨.dumpFailed failure.message, [], [dumpCall settings path]⟩,
      ⟨by simp [Takes], [], by simp⟩, fun fs _ => ?_⟩
    cases hthere : fs.pathExists path with
    | false => exact account_absent hthere
    | true => exact account_undumped hthere hdump
  | ok text =>
    generalize htable : (Stack.fold text settings.event).table = table
    obtain ⟨deed, hfits, hdeed⟩ := tableAccount_filled answer renderer hl hn path table
    refine ⟨⟨deed.outcome, deed.writings, dumpCall settings path :: deed.calls⟩,
      ⟨hfits.takes, hfits.places⟩, fun fs hfs => ?_⟩
    cases hthere : fs.pathExists path with
    | false => exact account_absent hthere
    | true =>
      rw [account_dumped hthere hdump htable, hdeed fs hfs]
      rfl

end

/-- What each recording does where it is there, in all file systems that differ from `base` in
nothing but plain files. -/
structure Deeds (settings : Settings) (answer : Answering) (renderer : Render.Renderer)
    (base : FileSystem) (deed : Recording → Deed) : Prop where
  /-- Each deed fills the files of its own recording. -/
  fits : ∀ recording, (deed recording).Fits base (settings.recordingPath recording)
  /-- Converting a recording comes to its deed, if it is there. -/
  account : ∀ recording fs, base.Filled fs →
    account settings answer renderer (settings.recordingPath recording) fs =
      (if fs.pathExists (settings.recordingPath recording) then deed recording
        else .skip).account fs

/-- Where the output directory stands, each recording does one thing. -/
theorem exists_deeds (settings : Settings) (answer : Answering) (renderer : Render.Renderer)
    (hdirectory : base.isDirectory settings.outputPath = true) :
    ∃ deed, Deeds settings answer renderer base deed := by
  choose deed hdeed using fun recording : Recording =>
    account_filled answer renderer hdirectory (settings.recordingPath recording)
  exact ⟨deed, fun recording => (hdeed recording).1, fun recording => (hdeed recording).2⟩

/-- What is done for a recording in a run from `base`: nothing, if it is not there. -/
def done (settings : Settings) (base : FileSystem) (deed : Recording → Deed)
    (recording : Recording) : Deed :=
  if base.pathExists (settings.recordingPath recording) then deed recording else .skip

/-- The result of a recording in a run from `base`. -/
def told (settings : Settings) (base : FileSystem) (deed : Recording → Deed)
    (recording : Recording) : Result :=
  ⟨recording, settings.recordingPath recording, (done settings base deed recording).outcome⟩

/-- The files that are filled for recordings in a run from `base`. -/
def written (settings : Settings) (base : FileSystem) (deed : Recording → Deed)
    (recordings : List Recording) : List Writing :=
  recordings.flatMap fun recording => (done settings base deed recording).writings

/-- The calls that are made for recordings in a run from `base`. -/
def called (settings : Settings) (base : FileSystem) (deed : Recording → Deed)
    (recordings : List Recording) : List Program.Invocation :=
  recordings.flatMap fun recording => (done settings base deed recording).calls

namespace Deeds

variable {settings : Settings} {deed : Recording → Deed} {recordings : List Recording}

/-- What is done for a recording fills files of its own. -/
theorem done_fits (h : Deeds settings answer renderer base deed) (recording : Recording) :
    (done settings base deed recording).Fits base (settings.recordingPath recording) := by
  unfold done
  split
  · exact h.fits recording
  · exact Deed.skip_fits _ _

/-- Converting recordings fills files and changes nothing else, and the files of every recording
that was there before are there afterwards, as far as it fills them. -/
theorem filled (h : Deeds settings answer renderer base deed) (hfs : base.Filled fs) :
    base.Filled (accounts settings answer renderer recordings fs).files ∧
      fs.Persists (accounts settings answer renderer recordings fs).files ∧
      ∀ recording ∈ recordings, ∀ writing ∈ (done settings base deed recording).writings,
        ((accounts settings answer renderer recordings fs).files.node? writing.place).isSome := by
  induction recordings generalizing fs with
  | nil => exact ⟨hfs, .refl fs, by simp⟩
  | cons recording rest ih =>
    rw [accounts_cons recording rest (h.account recording fs hfs)]
    generalize hstep : (if fs.pathExists (settings.recordingPath recording) then deed recording
      else Deed.skip) = step
    have htakes : base.Takes step.writings := by
      rw [← hstep]
      split
      · exact (h.fits recording).takes
      · exact (Deed.skip_fits base (settings.recordingPath recording)).takes
    have hfirst := (Filled.refl fs).fillAll (hfs.takes htakes)
    obtain ⟨hfilled, hpersists, hthere⟩ := ih (hfs.fillAll htakes)
    refine ⟨hfilled, hfirst.toPersists.trans hpersists, List.forall_mem_cons.mpr ⟨?_, hthere⟩⟩
    intro writing hwriting
    unfold done at hwriting
    split at hwriting
    · next hpresent =>
      rw [if_pos (hfs.pathExists hpresent)] at hstep
      subst hstep
      exact hpersists.there _ (fillAll_there (hfs.takes htakes) hwriting)
    · cases hwriting

/-- Converting recordings in turn does what is done for each of them in a run from `base`, as
long as all that is filled is there in `top` and no recording is there that is not in `base`. -/
theorem accounts_eq (h : Deeds settings answer renderer base deed) (hfs : base.Filled fs)
    (htop : fs.Persists top)
    (hthere : ∀ recording ∈ recordings, top.pathExists (settings.recordingPath recording) =
      base.pathExists (settings.recordingPath recording))
    (hwritten : ∀ recording ∈ recordings,
      ∀ writing ∈ (done settings base deed recording).writings,
        (top.node? writing.place).isSome) :
    accounts settings answer renderer recordings fs =
      ⟨recordings.map (told settings base deed), fs.fillAll (written settings base deed recordings),
        called settings base deed recordings⟩ := by
  induction recordings generalizing fs with
  | nil => rfl
  | cons recording rest ih =>
    obtain ⟨hpresent, hothers⟩ := List.forall_mem_cons.mp hthere
    obtain ⟨hfirst, hrest⟩ := List.forall_mem_cons.mp hwritten
    have htakes := (h.done_fits recording).takes
    have hsame := hfs.toPersists.pathExists_between htop hpresent
    rw [accounts_cons recording rest (h.account recording fs hfs), hsame, ← done, Deed.account,
      ih (hfs.fillAll htakes) (htop.fillAll (hfs.takes htakes) hfirst) hothers hrest, written,
      written, List.flatMap_cons, fillAll_append]
    rfl

end Deeds

/-- Nothing stands in the way of what fits. -/
theorem takes_written {settings : Settings} {deed : Recording → Deed}
    (h : ∀ recording, (done settings base deed recording).Fits base
      (settings.recordingPath recording)) (recordings : List Recording) :
    base.Takes (written settings base deed recordings) := by
  intro writing hwriting
  obtain ⟨recording, -, hmem⟩ := List.mem_flatMap.mp hwriting
  exact (h recording).takes writing hmem

/-- A run in which no recording comes to be there does what its recordings do in a run from
`base`, in whatever order they are converted, and in all file systems between `base` and what
the run leaves. -/
theorem runAccount_eq {settings : Settings}
    (hdirectory : base.isDirectory settings.outputPath = true)
    (hthere : ∀ recording ∈ settings.recordings,
      (runAccount settings answer base).files.pathExists (settings.recordingPath recording) =
        base.pathExists (settings.recordingPath recording)) :
    base.Filled (runAccount settings answer base).files ∧
      ∃ deed, (∀ recording, (done settings base deed recording).Fits base
          (settings.recordingPath recording)) ∧
        ∀ recordings ⊆ settings.recordings, ∀ fs, base.Filled fs →
          fs.Persists (runAccount settings answer base).files →
          runAccount { settings with recordings := recordings } answer fs =
            ⟨recordings.map (told settings base deed),
              fs.fillAll (written settings base deed recordings),
              called settings base deed recordings⟩ := by
  obtain ⟨deed, hdeeds⟩ := exists_deeds settings answer (rendererOf settings settings.rendererPath)
    hdirectory
  obtain ⟨hfilled, -, hwritten⟩ := hdeeds.filled (Filled.refl base)
  refine ⟨hfilled, deed, hdeeds.done_fits, fun recordings hsub fs hfs htop => ?_⟩
  refine (accounts_recordings recordings recordings).trans ?_
  exact hdeeds.accounts_eq hfs htop (fun recording hmem => hthere recording (hsub hmem))
    fun recording hmem => hwritten recording (hsub hmem)

/-- The branches with an output directory. -/
def standingBranches : FileSystem :=
  { branches with nodes := ([Text.encode "out"], .directory) :: branches.nodes }

end Conversion

end FlameFold
