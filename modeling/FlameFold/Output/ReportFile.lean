import FlameFold.Output.Placement
import FlameFold.Path.Raw
import FlameFold.Report.Printer

/-!
# Report files

A report is written as JSON over several lines. A path in it that is no text is met only when the
file is there and the report has been begun.
-/

namespace FlameFold.Output

/-- Why a report was not written, or not to its end. -/
inductive ReportFailure (ε : Type) where
  /-- The file was not saved. -/
  | notSaved (failure : Failure)
  /-- A path in the report cannot be spelled out. -/
  | notPrinted (fault : ε)
  deriving DecidableEq, Repr

/-- The wording of the failure, by that of the faults. -/
def ReportFailure.message {ε : Type} (wording : ε → String) : ReportFailure ε → String
  | .notSaved failure => failure.message
  | .notPrinted fault => "Failed to serialize JSON: " ++ wording fault

/-- Write a report to a file, as far as its paths can be spelled out. -/
def writeReportOf {π ε : Type} (spell : π → Except ε Path) (report : Report π) (p : Path) :
    Step (Except (ReportFailure ε) Unit) := do
  Session.note .info .reports ("Writing run report to: " ++ p.text)
  match ← save p "json" (Text.encode (report.begun spell)) with
  | .error failure => return .error (.notSaved failure)
  | .ok () =>
    match report.spelled spell with
    | .error fault => return .error (.notPrinted fault)
    | .ok _ =>
      Session.note .debug .reports
        ("Run report covers " ++ Nat.repr report.recordings.length ++ " recordings")
      return .ok ()

/-- The failure behind one that is not about a path. -/
def ReportFailure.settled : ReportFailure Empty → Failure
  | .notSaved failure => failure
  | .notPrinted fault => fault.elim

/-- Write a report whose paths are texts. -/
def writeReport (report : Report Path) (p : Path) : Step (Except Failure Unit) := do
  let written ← writeReportOf Path.spell report p
  return written.mapError ReportFailure.settled

/-- Write a report whose paths are bytes. -/
def writeRawReport (report : Report RawPath) (p : Path) :
    Step (Except (ReportFailure RawPath.Fault) Unit) :=
  writeReportOf RawPath.spell report p

end FlameFold.Output
