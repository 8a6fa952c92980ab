import FlameFold.Decimal.Shortest
import FlameFold.Json.Reader
import FlameFold.Mismatch
import FlameFold.Report.Basic

/-!
# Reading a report

The parts of a text are looked at in their order, and the first one that is not well
formed or does not fit is the reason to refuse it. Fields may also be given without
keys, as a list of all of them.
-/

namespace FlameFold

namespace Json

/-- Why a text does not give what is read from it. -/
inductive Fault where
  /-- The text is not well formed. -/
  | syntaxError
  /-- A value does not fit its place. -/
  | misfit (mismatch : Mismatch)
  deriving DecidableEq, Repr

namespace Value

/-- What a message says of a number. -/
def numberFound : Number → Found
  | .natural size => .integer size
  | .negative size => .integer (-size)
  | .floating x => .floating (Decimal.Style.bounded.text x)

/-- A value that does not fit; what is not well formed is refused as such. -/
def refuse (expected : String) : Value → Fault
  | .null => .misfit (.kind .null expected)
  | .boolean truth => .misfit (.kind (.boolean truth) expected)
  | .number n => .misfit (.kind (numberFound n) expected)
  | .text content => .misfit (.kind (.text content) expected)
  | .unsound => .syntaxError
  | .array _ _ => .misfit (.kind .sequence expected)
  | .object _ _ => .misfit (.kind .map expected)
  | .malformed => .syntaxError

/-- The text that a value is. -/
def asText (expected : String) : Value → Except Fault String
  | .text content => .ok content
  | value => .error (value.refuse expected)

/-- The path that a value is. -/
def asPath (value : Value) : Except Fault Path := (value.asText "path string").map Path.mk

/-- The whole number of 64 bits that a value is. -/
def asNumber (expected : String) : Value → Except Fault UInt64
  | .number (.natural size) => .ok (UInt64.ofNat size)
  | .number (.negative size) => .error (.misfit (.range (-size) expected))
  | value => .error (value.refuse expected)

/-- What a value is, unless it is null. -/
def asOption (read : Value → Except Fault α) : Value → Except Fault (Option α)
  | .null => .ok none
  | value => (read value).map some

/-- What the values of an array are. -/
def asList (read : Value → Except Fault α) : Value → Except Fault (List α)
  | .array elements closed => do
    let list ← elements.mapM read
    if closed then return list else .error .syntaxError
  | value => .error (value.refuse "a sequence")

end Value

/-- Read a field that must not have been read before. -/
def once (field : String) (before : Option α) (now : Except Fault α) :
    Except Fault (Option α) :=
  if before.isSome then .error (.misfit (.duplicate field)) else now.map some

/-- A field that must have been read. -/
def required (field : String) (given : Option α) : Except Fault α :=
  match given with
  | some value => .ok value
  | none => .error (.misfit (.missing field))

/-- Set the fields of a draft from the members of an object, or from the elements of an
array with one element for each field. -/
def readFields (fields : List String) (expected : String)
    (set : α → String → Value → Except Fault α) (draft : α) : Value → Except Fault α
  | .object members closed => do
    let draft ← members.foldlM (fun draft (key?, value) =>
      match key? with
      | some key => set draft key value
      | none => .error .syntaxError) draft
    if closed then return draft else .error .syntaxError
  | .array elements closed => do
    let draft ← (fields.zip elements).foldlM (fun draft (field, value) =>
      set draft field value) draft
    if elements.length < fields.length then
      .error (if closed then
        .misfit (.tooShort elements.length
          (expected ++ " with " ++ Nat.repr fields.length ++ " elements"))
      else .syntaxError)
    else if closed ∧ elements.length = fields.length then return draft
    else .error .syntaxError
  | value => .error (value.refuse expected)

end Json

namespace Report

open Json (Fault once required)

/-- What has been read of an entry. -/
structure EntryDraft where
  /-- The label. -/
  label : Option String
  /-- The path of the recording. -/
  recording : Option Path
  /-- The name of the outcome. -/
  outcome : Option String
  /-- The number of distinct stacks. -/
  uniqueStacks : Option (Option UInt64)
  /-- The number of samples. -/
  totalSamples : Option (Option UInt64)
  /-- The file of collapsed stacks. -/
  collapsed : Option (Option Path)
  /-- The flame graph. -/
  graphic : Option (Option Path)
  /-- What went wrong. -/
  error : Option (Option String)

namespace EntryDraft

/-- Nothing of an entry. -/
def empty : EntryDraft := ⟨none, none, none, none, none, none, none, none⟩

/-- Set the field that a key names; other keys say nothing. -/
def set (draft : EntryDraft) (key : String) (value : Json.Value) : Except Fault EntryDraft :=
  match key with
  | "label" => do
    let x ← once key draft.label (value.asText "a string")
    return { draft with label := x }
  | "recording" => do
    let x ← once key draft.recording value.asPath
    return { draft with recording := x }
  | "outcome" => do
    let x ← once key draft.outcome (value.asText "a string")
    return { draft with outcome := x }
  | "unique_stacks" => do
    let x ← once key draft.uniqueStacks (value.asOption (·.asNumber "usize"))
    return { draft with uniqueStacks := x }
  | "total_samples" => do
    let x ← once key draft.totalSamples (value.asOption (·.asNumber "u64"))
    return { draft with totalSamples := x }
  | "collapsed" => do
    let x ← once key draft.collapsed (value.asOption (·.asPath))
    return { draft with collapsed := x }
  | "svg" => do
    let x ← once key draft.graphic (value.asOption (·.asPath))
    return { draft with graphic := x }
  | "error" => do
    let x ← once key draft.error (value.asOption (·.asText "a string"))
    return { draft with error := x }
  | _ => .ok draft

/-- The entry, if all of its fields that must be given are. -/
def finish (draft : EntryDraft) : Except Fault (Entry Path) := do
  let label ← required "label" draft.label
  let recording ← required "recording" draft.recording
  let outcome ← required "outcome" draft.outcome
  return ⟨label, recording, outcome, draft.uniqueStacks.join, draft.totalSamples.join,
    draft.collapsed.join, draft.graphic.join, draft.error.join⟩

/-- The fields of an entry in order. -/
def fields : List String :=
  ["label", "recording", "outcome", "unique_stacks", "total_samples", "collapsed", "svg", "error"]

end EntryDraft

/-- The entry that a value is. -/
def Entry.ofValue (value : Json.Value) : Except Fault (Entry Path) := do
  let draft ← Json.readFields EntryDraft.fields "struct RecordingReport" EntryDraft.set .empty value
  draft.finish

/-- What has been read of a report. -/
structure Draft where
  /-- The version. -/
  version : Option String
  /-- When the report was made. -/
  generatedAt : Option String
  /-- The entries. -/
  recordings : Option (List (Entry Path))
  /-- The flame graphs. -/
  graphics : Option (List Path)

namespace Draft

/-- Nothing of a report. -/
def empty : Draft := ⟨none, none, none, none⟩

/-- Set the field that a key names; other keys say nothing. -/
def set (draft : Draft) (key : String) (value : Json.Value) : Except Fault Draft :=
  match key with
  | "version" => do
    let x ← once key draft.version (value.asText "a string")
    return { draft with version := x }
  | "generated_at" => do
    let x ← once key draft.generatedAt (value.asText "a string")
    return { draft with generatedAt := x }
  | "recordings" => do
    let x ← once key draft.recordings (value.asList Entry.ofValue)
    return { draft with recordings := x }
  | "flamegraphs" => do
    let x ← once key draft.graphics (value.asList (·.asPath))
    return { draft with graphics := x }
  | _ => .ok draft

/-- The report, if all of its fields are given. -/
def finish (draft : Draft) : Except Fault (Report Path) := do
  let version ← required "version" draft.version
  let generatedAt ← required "generated_at" draft.generatedAt
  let recordings ← required "recordings" draft.recordings
  let graphics ← required "flamegraphs" draft.graphics
  return ⟨version, generatedAt, recordings, graphics⟩

/-- The fields of a report in order. -/
def fields : List String := ["version", "generated_at", "recordings", "flamegraphs"]

end Draft

/-- The report that a value is. -/
def ofValue (value : Json.Value) : Except Fault (Report Path) := do
  let draft ← Json.readFields Draft.fields "struct RunReport" Draft.set .empty value
  draft.finish

/-- Read a report from a text, after which nothing may follow. -/
def parse (text : String) : Except Fault (Report Path) := do
  let (value, ended) := Json.parse text
  let report ← ofValue value
  if ended then return report else .error .syntaxError

end Report

end FlameFold
