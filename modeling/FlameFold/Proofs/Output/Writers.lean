import FlameFold.Proofs.Output.ReportFile
import FlameFold.Proofs.Output.Standing

/-!
# What the writers leave

Collapsed stacks, flame graphs and reports are saved in one way. Either the path leads to a plain
file with the content and nothing more, or no file has come or changed; in both cases nothing
was taken away, and what else is new is a directory on the way to the file. A name in a directory
that stands is refused only where no file could stand. A report with a path that is no text is the
exception: it is found out when the file has been emptied and the report begun.
-/

namespace FlameFold.Output

open FileSystem (Changed Grown)

variable {α β : Type} {p : Path} {content : List UInt8} {files before after : FileSystem}

/-- The directories on the way to the file of a path. -/
def way (p : Path) : List Path := p.parent?.elim [] Path.ancestors

/-- The path is a name in a directory that stands, it is not too long for a path, and no directory
has the name. -/
structure Writable (files : FileSystem) (p : Path) : Prop where
  /-- The path is a name in a directory that stands. -/
  joined : ∃ directory name, Path.IsName name ∧ p = directory.join ⟨String.ofList name⟩ ∧
    (name.flatMap String.utf8EncodeChar).length ≤ FileSystem.nameLimit ∧
    files.isDirectory directory = true
  /-- The text can be a path. -/
  checked : FileSystem.checkText p = .ok ()
  /-- No directory stands there. -/
  plain : files.isDirectory p = false

/-- What a writer leaves of the files, by its answer. -/
inductive Leaves (p : Path) (content : List UInt8) (before after : FileSystem) :
    Except Failure α → Prop
  /-- The path leads to a plain file with the content. At all other places nothing has changed but
  for directories made on the way to it. -/
  | written {value : α} {place : Location} (holds : after.Holds p place content)
      (changed : Changed (way p) [place] before after) : Leaves p content before after (.ok value)
  /-- Nothing has changed but for directories made on the way, and the path could not simply be
  written to. -/
  | refused {failure : Failure} (grown : Grown (way p) before after)
      (hard : ¬Writable before p) : Leaves p content before after (.error failure)

/-- The report whose paths have the bytes of those of another one. -/
def rawReport (texts : Report Path) : Report RawPath := texts.mapPaths fun q => .ofText q.text

/-- What the writer of reports leaves of the files, by its answer. -/
inductive ReportLeaves (report : Report RawPath) (p : Path) (before after : FileSystem) :
    Except (ReportFailure RawPath.Fault) Unit → Prop
  /-- All paths of the report are texts, and the path leads to a plain file with the report by
  these. At all other places nothing has changed but for directories made on the way to it. -/
  | written {texts : Report Path} {place : Location} (spelled : report = rawReport texts)
      (holds : after.Holds p place (Text.encode texts.render))
      (changed : Changed (way p) [place] before after) : ReportLeaves report p before after (.ok ())
  /-- Nothing has changed but for directories made on the way, and the path could not simply be
  written to. -/
  | refused {failure : Failure} (grown : Grown (way p) before after) (hard : ¬Writable before p) :
      ReportLeaves report p before after (.error (.notSaved failure))
  /-- Some path of the report is no text, and the path leads to a plain file with what was printed
  before the first such one. All else is as after a report that was written. -/
  | begun {fault : RawPath.Fault} {place : Location} (damaged : ∀ texts, report ≠ rawReport texts)
      (holds : after.Holds p place (Text.encode (report.begun RawPath.spell)))
      (changed : Changed (way p) [place] before after) :
      ReportLeaves report p before after (.error (.notPrinted fault))

/-- A path that can be written to is written to, if no device stands there. -/
theorem saved_writable (h : Writable files p) (hplain : files.Plain) (content : List UInt8) :
    (saved files p content).2 = .ok () := by
  obtain ⟨⟨directory, name, hname, rfl, hlength, hdirectory⟩, hcheck, hfree⟩ := h
  obtain ⟨out, hl, hn⟩ := FileSystem.isDirectory_iff.mp hdirectory
  have hberth := Path.berth_join hname hl hn
  have hobstacle : files.obstacle? (name.flatMap String.utf8EncodeChar :: out) = none := by
    cases hfound : files.obstacle? (name.flatMap String.utf8EncodeChar :: out) with
    | none => rfl
    | some node =>
      obtain ⟨hnode, hother⟩ := FileSystem.obstacle?_eq_some_iff.mp hfound
      cases node with
      | file old executable => exact absurd rfl (hother old executable)
      | directory =>
        rw [hberth.isDirectory_iff.mpr ⟨hcheck, hlength, hnode⟩] at hfree
        cases hfree
      | device device => exact absurd hnode (hplain _ device)
  rw [saved_berth hberth hobstacle, filing, hcheck]
  simp only [if_neg (Nat.not_lt.mpr hlength)]

/-- Saving a file among plain files and directories leaves what a writer leaves. -/
theorem saved_leaves (hplain : files.Plain) (p : Path) (content : List UInt8) :
    Leaves p content files (saved files p content).1 (saved files p content).2 := by
  cases hsaved : saved files p content with
  | mk after result =>
    cases result with
    | error failure =>
      refine .refused (saved_error hsaved) fun hwritable => ?_
      have hok := saved_writable hwritable hplain content
      rw [hsaved] at hok
      cases hok
    | ok value =>
      obtain ⟨place, hholds, hchanged⟩ | ⟨hchanged, place, device, -, hdevice⟩ :=
        saved_changed hsaved
      · exact .written hholds hchanged
      · exact absurd (hchanged.devices place device hdevice) (hplain place device)

/-- What is told of a file that was saved makes no difference to the files. -/
theorem Leaves.map {result : Except Failure α} (h : Leaves p content before after result)
    (tell : α → β) : Leaves p content before after (result.map tell) := by
  cases h with
  | written holds changed => exact .written holds changed
  | refused grown hard => exact .refused grown hard

/-- What is left of the files by saving a report as far as it can be printed is what the writer of
reports leaves. -/
theorem Leaves.report {report : Report RawPath} {saved : Except Failure Unit}
    (h : Leaves p (Text.encode (report.begun RawPath.spell)) before after saved) :
    ReportLeaves report p before after (reportTold saved (report.spelled RawPath.spell)) := by
  cases h with
  | refused grown hard => exact .refused grown hard
  | written holds changed =>
    cases hspelled : report.spelled RawPath.spell with
    | ok texts =>
      rw [Report.begun_of_spelled Report.rawPath_spell_iff hspelled] at holds
      exact .written ((Report.spelled_ok_iff Report.rawPath_spell_iff).mp hspelled) holds changed
    | error fault =>
      refine .begun (fun texts htexts => ?_) holds changed
      rw [(Report.spelled_ok_iff Report.rawPath_spell_iff).mpr htexts] at hspelled
      cases hspelled

/-- Each of the writers comes to an end and, among plain files and directories, leaves either a
plain file with the encoded content or no other file than before, with nothing taken away and
nothing else new but directories on the way. For collapsed stacks the number of written lines is
told. A report by paths that are no texts fails with the file begun. -/
theorem writers_leave {session : Session} (hplain : session.files.Plain) (p : Path) :
    (∀ table, ∃ result after, writeCollapsed table p session = .ok result after ∧
      Leaves p (collapsedBytes table) session.files after.files result ∧
      ∀ lines, result = .ok lines → lines = (writtenEntries table).length) ∧
    (∀ content, ∃ result after, writeGraphic content p session = .ok result after ∧
      Leaves p content session.files after.files result) ∧
    (∀ report, ∃ result after, writeReport report p session = .ok result after ∧
      Leaves p (Text.encode report.render) session.files after.files result) ∧
    ∀ report, ∃ result after, writeRawReport report p session = .ok result after ∧
      ReportLeaves report p session.files after.files result := by
  refine ⟨fun table => ?_, fun content => ?_, fun report => ?_, fun report => ?_⟩
  · obtain ⟨after, hrun, hfiles, -⟩ := writeCollapsed_gives table p session
    refine ⟨_, after, hrun, ?_, fun lines hlines => ?_⟩
    · rw [hfiles]
      exact (saved_leaves hplain p (collapsedBytes table)).map _
    · cases hresult : (saved session.files p (collapsedBytes table)).2 with
      | error failure =>
        rw [hresult] at hlines
        cases hlines
      | ok value =>
        rw [hresult] at hlines
        exact (Except.ok.inj hlines).symm
  · obtain ⟨after, hrun, hfiles, -⟩ := writeGraphic_gives content p session
    refine ⟨_, after, hrun, ?_⟩
    rw [hfiles]
    exact saved_leaves hplain p content
  · obtain ⟨after, hrun, hfiles, -⟩ := writeReport_gives report p session
    refine ⟨_, after, hrun, ?_⟩
    rw [hfiles]
    exact saved_leaves hplain p (Text.encode report.render)
  · obtain ⟨after, hrun, hfiles, -⟩ := writeReportOf_gives RawPath.spell report p session
    refine ⟨_, after, hrun, ?_⟩
    rw [hfiles]
    exact (saved_leaves hplain p (Text.encode (report.begun RawPath.spell))).report

/-- A directory with one flame graph in it. -/
def drawer : FileSystem where
  nodes := [([Text.encode "old.svg"], .file (Text.encode "<svg>old</svg>") false)]
  here := []

/-- The flame graph there is replaced by a shorter one, and stays as it is where another one is to
be written as if it were a directory. -/
theorem writers_leave_drawer : drawer.Plain ∧
    (∃ after, writeGraphic (Text.encode "<svg/>") ⟨"./old.svg"⟩ (Session.start drawer) =
        .ok (.ok ()) after ∧
      after.files.read ⟨"./old.svg"⟩ = .ok (Text.encode "<svg/>")) ∧
    ∃ failure after, writeGraphic (Text.encode "<svg/>") ⟨"./old.svg/new.svg"⟩
        (Session.start drawer) = .ok (.error failure) after ∧
      after.files.node? [Text.encode "old.svg"] =
        some (.file (Text.encode "<svg>old</svg>") false) := by
  have hplain : (Session.start drawer).files.Plain :=
    FileSystem.plain_of_nodes (by simp [Session.start, drawer])
  refine ⟨hplain, ?_, ?_⟩
  · obtain ⟨result, after, hrun, hleaves⟩ :=
      (writers_leave hplain ⟨"./old.svg"⟩).2.1 (Text.encode "<svg/>")
    cases hleaves with
    | written holds changed => exact ⟨after, hrun, holds.read⟩
    | refused grown hard =>
      have hname : Path.IsName "old.svg".toList := ⟨by decide, by decide, by decide⟩
      exact absurd ⟨⟨⟨"."⟩, _, hname, by decide +kernel, by decide +kernel, by decide +kernel⟩,
        by decide +kernel, by decide +kernel⟩ hard
  · obtain ⟨result, after, hrun, hleaves⟩ :=
      (writers_leave hplain ⟨"./old.svg/new.svg"⟩).2.1 (Text.encode "<svg/>")
    cases hleaves with
    | written holds changed =>
      have hends : ((writeGraphic (Text.encode "<svg/>") ⟨"./old.svg/new.svg"⟩).ends
          (Session.start drawer)).bind (fun ended => ended.1.toOption) = none := by
        decide +kernel
      rw [Step.ends, hrun] at hends
      cases hends
    | refused grown hard =>
      exact ⟨_, after, hrun, (grown.node [Text.encode "old.svg"]).node?_eq rfl⟩

/-- A report on a recording whose path has a byte that is in no text. -/
def damagedReport : Report RawPath where
  version := Report.currentVersion
  generatedAt := "now"
  recordings :=
    [⟨"a", ⟨[0x61, 0xFF, 0x2E, 0x6A, 0x66, 0x72]⟩, "skipped", none, none, none, none, none⟩]
  graphics := []

/-- What is printed of this report. -/
def damagedBeginning : String :=
  "\x7b\n  \"version\": \"1.0.0\",\n  \"generated_at\": \"now\",\n  \"recordings\": [\n" ++
    "    \x7b\n      \"label\": \"a\",\n      \"recording\": "

/-- A directory with the report of an earlier run in it. -/
def archive : FileSystem where
  nodes := [([Text.encode "run.json"], .file (Text.encode escapedReport.render) false)]
  here := []

/-- Writing a report with a damaged path fails after the report there was replaced by the beginning
of the new one. -/
theorem damaged_report_begun : archive.Plain ∧
    archive.node? [Text.encode "run.json"] =
      some (.file (Text.encode escapedReport.render) false) ∧
    ∃ after, writeRawReport damagedReport ⟨"run.json"⟩ (Session.start archive) =
        .ok (.error (.notPrinted .noText)) after ∧
      after.files.node? [Text.encode "run.json"] =
        some (.file (Text.encode damagedBeginning) false) := by
  refine ⟨FileSystem.plain_of_nodes (by simp [archive]), rfl, ?_⟩
  have hends : ((writeRawReport damagedReport ⟨"run.json"⟩).ends (Session.start archive)).map
      (fun (result, files) => (result, files.node? [Text.encode "run.json"])) =
        some (.error (.notPrinted .noText), some (.file (Text.encode damagedBeginning) false)) := by
    decide +kernel
  obtain ⟨⟨result, files⟩, hends, hresult⟩ := Option.map_eq_some_iff.mp hends
  obtain ⟨rfl, hnode⟩ := Prod.mk.inj hresult
  obtain ⟨after, hrun, rfl⟩ := Step.exists_of_ends hends
  exact ⟨after, hrun, hnode⟩

end FlameFold.Output
