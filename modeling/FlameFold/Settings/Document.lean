import FlameFold.Mismatch
import FlameFold.Decimal.Shortest
import FlameFold.Settings.Basic
import FlameFold.Toml.Document
import FlameFold.Toml.Writer

/-!
# Settings as a document

Settings are read from a document and written as one. Each key of a document sets one
field; a field without a key keeps its standard value. The first key in the document
that is unknown, or whose value does not fit, is the reason to refuse it.
-/

namespace FlameFold

namespace Toml

/-- What a message says of a value. -/
def Value.found : Value → Found
  | .text content => .text content
  | .integer number => .integer number
  | .float number => .floating (match number with
    | .signed _ (.finite _ _) => Decimal.Style.withPoint.text number
    | _ => Decimal.Style.plain.text number)
  | .boolean truth => .boolean truth
  | .moment _ => .map
  | .array _ => .sequence
  | .tables _ => .sequence
  | .table _ _ => .map

/-- The text that a value is. -/
def Value.asText (expected : String) : Value → Except Mismatch String
  | .text content => .ok content
  | value => .error (.kind value.found expected)

/-- The path that a value is. -/
def Value.asPath (value : Value) : Except Mismatch Path :=
  (value.asText "path string").map Path.mk

/-- The whole number below `bound` that a value is. -/
def Value.asNumber (bound : Nat) (expected : String) : Value → Except Mismatch Nat
  | .integer number =>
    if 0 ≤ number ∧ number < bound then .ok number.toNat else .error (.range number expected)
  | value => .error (.kind value.found expected)

end Toml

namespace Recording

/-- The recording that the keys of a table give; other keys say nothing. -/
def ofEntries (entries : Toml.Entries) : Except Mismatch Recording := do
  let given ← entries.foldlM (fun (file?, label?) (key, value) =>
    if key = "file" then do
      let file ← Toml.Value.asPath value
      return (some file, label?)
    else if key = "label" then do
      let label ← Toml.Value.asText "a string" value
      return (file?, some label)
    else .ok (file?, label?)) (none, none)
  match given with
  | (none, _) => .error (.missing "file")
  | (_, none) => .error (.missing "label")
  | (some file, some label) => .ok ⟨file, label⟩

/-- The recording that the first two values of a list give. -/
def ofValues : List Toml.Value → Except Mismatch Recording
  | [] => .error (.tooShort 0 "struct RecordingSpec with 2 elements")
  | [file] => do
    let _ ← file.asPath
    .error (.tooShort 1 "struct RecordingSpec with 2 elements")
  | file :: label :: _ => do
    let file ← file.asPath
    let label ← label.asText "a string"
    return ⟨file, label⟩

/-- The recording that a value gives. -/
def ofValue : Toml.Value → Except Mismatch Recording
  | .table _ entries => ofEntries entries
  | .moment _ => ofEntries []
  | .array elements => ofValues elements
  | .tables elements => ofValues (elements.map (.table .header))
  | value => .error (.kind value.found "struct RecordingSpec")

/-- The recordings that a value lists. -/
def listOfValue : Toml.Value → Except Mismatch (List Recording)
  | .array elements => elements.mapM ofValue
  | .tables elements => elements.mapM ofEntries
  | value => .error (.kind value.found "a sequence")

end Recording

namespace Settings

/-- The keys of a document, in the order of the fields. -/
def keys : List String :=
  ["root_dir", "output_dir", "renderer_script", "dump_tool", "event_type", "stack_depth",
    "title", "timeout_secs", "recordings"]

/-- Set the field that a key names. -/
def setKey (settings : Settings) (key : String) (value : Toml.Value) : Except Mismatch Settings :=
  match key with
  | "root_dir" => value.asPath.map fun x => { settings with root := x }
  | "output_dir" => value.asPath.map fun x => { settings with outputDirectory := some x }
  | "renderer_script" => value.asPath.map fun x => { settings with rendererScript := x }
  | "dump_tool" => (value.asText "a string").map fun x => { settings with dumpTool := x }
  | "event_type" => (value.asText "a string").map fun x => { settings with event := x }
  | "stack_depth" => (value.asNumber (Nat.pow 2 32) "u32").map fun x =>
    { settings with stackDepth := UInt32.ofNat x }
  | "title" => (value.asText "a string").map fun x => { settings with title := x }
  | "timeout_secs" => (value.asNumber (Nat.pow 2 64) "u64").map fun x =>
    { settings with timeoutSeconds := some (UInt64.ofNat x) }
  | "recordings" => (Recording.listOfValue value).map fun x => { settings with recordings := x }
  | _ => .error (.unknown key keys)

/-- The settings that keys and values give, in their order. -/
def ofEntries (entries : Toml.Entries) : Except Mismatch Settings :=
  entries.foldlM (fun settings (key, value) => settings.setKey key value) standard

/-- Why a text gives no settings. -/
inductive DocumentFault where
  /-- The text is no document. -/
  | syntaxError
  /-- A key or a value of the document does not fit. -/
  | misfit (mismatch : Mismatch)
  deriving DecidableEq, Repr

/-- The wording of the fault. -/
def DocumentFault.message : DocumentFault → String
  | .syntaxError => "TOML parse error"
  | .misfit mismatch => "TOML parse error: " ++ mismatch.message

/-- Read settings from a text. -/
def parse (text : String) : Except DocumentFault Settings :=
  match Toml.Document.parse? text with
  | none => .error .syntaxError
  | some entries => (ofEntries entries).mapError .misfit

/-- A line that gives a key a value. -/
def keyLine (key written : String) : String := key ++ " = " ++ written ++ "\n"

/-- The lines of one recording, under a header of its own. -/
def recordingLines (recording : Recording) : String :=
  "\n[[recordings]]\n" ++ keyLine "file" (Toml.writeText recording.file.text) ++
    keyLine "label" (Toml.writeText recording.label)

/-- The settings as a document. -/
def document (settings : Settings) : String :=
  keyLine "root_dir" (Toml.writeText settings.root.text) ++
  (match settings.outputDirectory with
    | some directory => keyLine "output_dir" (Toml.writeText directory.text)
    | none => "") ++
  keyLine "renderer_script" (Toml.writeText settings.rendererScript.text) ++
  keyLine "dump_tool" (Toml.writeText settings.dumpTool) ++
  keyLine "event_type" (Toml.writeText settings.event) ++
  keyLine "stack_depth" (Nat.repr settings.stackDepth.toNat) ++
  keyLine "title" (Toml.writeText settings.title) ++
  (match settings.timeoutSeconds with
    | some seconds => keyLine "timeout_secs" (Nat.repr seconds.toNat)
    | none => "") ++
  (if settings.recordings.isEmpty then keyLine "recordings" "[]"
    else String.join (settings.recordings.map recordingLines))

/-- Why settings have no document. -/
inductive WriteFault where
  /-- A document has no number for so long a time limit. -/
  | timeoutTooLarge
  deriving DecidableEq, Repr

/-- The wording of the fault. -/
def WriteFault.message : WriteFault → String
  | .timeoutTooLarge => "out-of-range value for u64 type"

/-- Write settings as a document, unless the time limit is no whole number of 64 bits
with a sign. -/
def write (settings : Settings) : Except WriteFault String :=
  match settings.timeoutSeconds with
  | some seconds => if Nat.pow 2 63 ≤ seconds.toNat then .error .timeoutTooLarge
    else .ok settings.document
  | none => .ok settings.document

end Settings

end FlameFold
