import FlameFold.Output.Placement
import FlameFold.Settings.Overrides
import FlameFold.Text.Lines

/-!
# Complaints

What a run that failed says last: what could not be done, and under it the causes, the
nearest one first.
-/

namespace FlameFold.CommandLine

/-- Why a run failed. -/
structure Complaint where
  /-- What could not be done. -/
  message : String
  /-- The causes, the nearest one first. -/
  causes : List String
  deriving DecidableEq, Repr

namespace Complaint

/-- A cause with its first line behind a lead and its other lines as far to the right. -/
def indented (lead : String) (cause : String) : String :=
  let margin := String.ofList (List.replicate lead.length ' ')
  lead ++ ("\n" ++ margin).intercalate (Text.pieces cause) ++ "\n"

/-- The causes; several of them are numbered from 0. -/
def causeLines (causes : List String) : String :=
  match causes with
  | [cause] => indented "    " cause
  | _ => String.join (causes.zipIdx.map fun (cause, n) =>
    indented ("    " ++ Nat.repr n ++ ": ") cause)

/-- The text of a complaint. -/
def text (complaint : Complaint) : String :=
  "Error: " ++ complaint.message ++ "\n" ++
    if complaint.causes.isEmpty then "" else "\nCaused by:\n" ++ causeLines complaint.causes

/-- A complaint about settings. -/
def ofSettings (failure : Settings.Failure) : Complaint :=
  match failure with
  | .malformed fault => ⟨failure.message, [fault.message]⟩
  | _ => ⟨failure.message, (failure.cause?.map SystemFault.message).toList⟩

/-- A complaint about a file that could not be written. -/
def ofOutput (message : String) (failure : Output.Failure) : Complaint :=
  ⟨message, failure.message :: (failure.cause?.map SystemFault.message).toList⟩

end Complaint

end FlameFold.CommandLine
