import FlameFold.Output.ReportFile
import FlameFold.Proofs.Output.Saving
import FlameFold.Proofs.Report.Spelling

/-!
# Report files are read back

A report is saved as the bytes of its JSON text, and neither the bytes nor the text lose
anything of it. A path that is no text is met only after the file was saved, with what has been
printed until then.
-/

namespace FlameFold.Output

/-- What is told of a report, by whether the file was saved and whether its paths are texts. -/
def reportTold {ε : Type} (saved : Except Failure Unit) (spelled : Except ε (Report Path)) :
    Except (ReportFailure ε) Unit := do
  saved.mapError ReportFailure.notSaved
  let _ ← spelled.mapError ReportFailure.notPrinted
  return ()

variable {π ε : Type}

/-- A report is saved as far as it can be printed. -/
theorem writeReportOf_gives (spell : π → Except ε Path) (report : Report π) (p : Path)
    (before : Session) :
    (writeReportOf spell report p).Gives before
      (reportTold (saved before.files p (Text.encode (report.begun spell))).2
        (report.spelled spell))
      (saved before.files p (Text.encode (report.begun spell))).1 := by
  unfold writeReportOf
  refine (Step.note_gives _ _ _ before).bind fun noted hn => ?_
  rw [← hn]
  refine (save_gives p "json" (Text.encode (report.begun spell)) noted).bind fun ready hr => ?_
  cases (saved noted.files p (Text.encode (report.begun spell))).2 with
  | error failure => exact hr ▸ Step.pure_gives _ ready
  | ok _ =>
    cases report.spelled spell with
    | error fault => exact hr ▸ Step.pure_gives _ ready
    | ok texts => exact (Step.note_gives _ _ _ ready).bind fun told ht =>
        (ht.trans hr) ▸ Step.pure_gives _ told

/-- A report whose paths are texts is saved as the bytes of its text. -/
theorem writeReport_gives (report : Report Path) (p : Path) (before : Session) :
    (writeReport report p).Gives before
      (saved before.files p (Text.encode report.render)).2
      (saved before.files p (Text.encode report.render)).1 := by
  unfold writeReport
  have hgives := writeReportOf_gives Path.spell report p before
  rw [report.begun_texts, report.spelled_texts] at hgives
  refine hgives.bind fun after hafter => ?_
  cases (saved before.files p (Text.encode report.render)).2 with
  | error failure => exact hafter ▸ Step.pure_gives _ after
  | ok _ => exact hafter ▸ Step.pure_gives _ after

/-- Where a report is written, the text of the file gives the same report, unless a device stands
there. -/
theorem writeReport_parses {report : Report Path} {p : Path} {before after : Session}
    (h : writeReport report p before = .ok (.ok ()) after)
    (hkeeps : ∀ device, after.files.find? p ≠ some (.device device)) :
    ∃ text, after.files.readText p = .ok text ∧ Report.parse text = .ok report := by
  obtain ⟨hresult, hfiles⟩ := (writeReport_gives report p before).of_ok h
  have hsaved : saved before.files p (Text.encode report.render) = (after.files, .ok ()) :=
    Prod.ext hfiles.symm hresult.symm
  refine ⟨report.render, ?_, report.parse_render⟩
  simp only [FileSystem.readText, saved_kept hsaved hkeeps, bind, Except.bind,
    Text.decode?_encode]

/-- A report whose texts need escapes, with an entry that has every field and one that has
no more than it must. -/
def escapedReport : Report Path where
  version := Report.currentVersion
  generatedAt := "\"now\"\\\n"
  recordings :=
    [⟨"a\tb", ⟨"r/\x01.jfr"⟩, "rendered", some 1, some (UInt64.ofNat (2 ^ 64 - 1)),
      some ⟨"r/é.txt"⟩, some ⟨"r/é.svg"⟩, some ""⟩,
     ⟨"", ⟨""⟩, "skipped", none, none, none, none, none⟩]
  graphics := []

/-- This report is written to a new file and read back from it. -/
theorem writeReport_parses_escaped : ∃ after text,
    writeReport escapedReport ⟨"report.json"⟩ (Session.start ⟨[], []⟩) = .ok (.ok ()) after ∧
    after.files.readText ⟨"report.json"⟩ = .ok text ∧ Report.parse text = .ok escapedReport := by
  have hfound : (writeReport escapedReport ⟨"report.json"⟩).found? (Session.start ⟨[], []⟩)
      (fun _ after => after.files.isFile ⟨"report.json"⟩) = some true := by
    decide +kernel
  obtain ⟨⟨⟩, after, hrun, hfile⟩ := Step.exists_of_found hfound
  obtain ⟨text, hread, hparse⟩ := writeReport_parses hrun fun device hdevice => by
    simp [FileSystem.isFile, hdevice] at hfile
  exact ⟨after, text, hrun, hread, hparse⟩

/-- A device that keeps nothing takes this report and gives an empty text back, which is none. -/
theorem null_device_not_parsed :
    ¬∀ (report : Report Path) (p : Path) (before after : Session),
      writeReport report p before = .ok (.ok ()) after →
      ∃ text, after.files.readText p = .ok text ∧ Report.parse text = .ok report := by
  intro h
  have hfound : (writeReport escapedReport ⟨"/dev/null"⟩).found? (Session.start blackHole)
      (fun _ after => (after.files.readText ⟨"/dev/null"⟩).toOption) = some (some "") := by
    decide +kernel
  obtain ⟨⟨⟩, after, hrun, hempty⟩ := Step.exists_of_found hfound
  obtain ⟨text, hread, hparse⟩ := h _ _ _ _ hrun
  rw [hread] at hempty
  obtain rfl : text = "" := Option.some.inj hempty
  have hrefused : (Report.parse "").toOption = none := by decide +kernel
  rw [hparse] at hrefused
  cases hrefused

end FlameFold.Output
