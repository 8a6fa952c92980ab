import FlameFold.Proofs.Session.Step
import FlameFold.Proofs.Settings.Fitting
import FlameFold.Settings.Overrides

/-!
# The layers under the settings of a run

A settings file that can be read and gives settings lies over the standard ones: a field has the
value of its key in the document, if the key is there, and otherwise the standard value. What is
given for the run lies over either, unless the settings file gives nothing.
-/

namespace FlameFold.Settings

open Toml (Entries Value)

/-- A field has the value that its source says, if it has one, and otherwise the one below. -/
def Layered {ε α β : Type} (source? : Option β) (read : β → Except ε α) (below value : α) : Prop :=
  match source? with
  | some source => read source = .ok value
  | none => value = below

/-- The value of a key of a document, if it is read, and otherwise the one below. -/
def readOr {α : Type} (entries : Entries) (key : String) (read : Value → Except Mismatch α)
    (below : α) : α :=
  entries.givenOr key (fun value => (read value).toOption) below

/-- The settings that a document tells, where those without a key are as before. -/
def told (before : Settings) (entries : Entries) : Settings where
  root := readOr entries "root_dir" Value.asPath before.root
  outputDirectory := readOr entries "output_dir" (fun value => value.asPath.map some)
    before.outputDirectory
  rendererScript := readOr entries "renderer_script" Value.asPath before.rendererScript
  dumpTool := readOr entries "dump_tool" (Value.asText "a string") before.dumpTool
  event := readOr entries "event_type" (Value.asText "a string") before.event
  stackDepth := readOr entries "stack_depth"
    (fun value => (value.asNumber (Nat.pow 2 32) "u32").map UInt32.ofNat) before.stackDepth
  title := readOr entries "title" (Value.asText "a string") before.title
  timeoutSeconds := readOr entries "timeout_secs"
    (fun value => (value.asNumber (Nat.pow 2 64) "u64").map fun n => some (UInt64.ofNat n))
    before.timeoutSeconds
  recordings := readOr entries "recordings" Recording.listOfValue before.recordings

section

variable {α : Type} {key other : String}

/-- One key has the value that is read from its own. -/
theorem readOr_self (key : String) (value : Value) (read : Value → Except Mismatch α) (below : α) :
    readOr [(key, value)] key read below = (read value).toOption.getD below := by
  unfold readOr Entries.givenOr
  rw [Entries.get?_cons, if_pos rfl]
  rfl

/-- One key says nothing of the others. -/
theorem readOr_ne (hne : other ≠ key) (value : Value) (read : Value → Except Mismatch α)
    (below : α) : readOr [(key, value)] other read below = below := by
  unfold readOr Entries.givenOr
  rw [Entries.get?_cons, if_neg hne]
  rfl

end

/-- A value that is set is what its key tells. -/
theorem setKey_told {key : String} {value : Value} {before after : Settings}
    (h : before.setKey key value = .ok after) : after = before.told [(key, value)] := by
  unfold setKey at h
  split at h
  case h_10 => cases h
  all_goals
    obtain ⟨read, hread, rfl⟩ := ok_of_map h
    simp (disch := decide) only [told, readOr_self, readOr_ne, hread, Except.map,
      Except.toOption, Option.getD_some]

/-- What a first key tells stands until the others are set. -/
theorem told_cons {key : String} {value : Value} {rest : Entries} (hnew : key ∉ rest.keys)
    (before : Settings) :
    before.told ((key, value) :: rest) = (before.told [(key, value)]).told rest := by
  unfold told readOr
  simp only [Entries.givenOr_cons hnew]

/-- The first of several entries that are set is set before the others. -/
theorem exists_setKey {key : String} {value : Value} {rest : Entries} {before after : Settings}
    (h : before.setEntries ((key, value) :: rest) = .ok after) : ∃ next : Settings,
      before.setKey key value = .ok next ∧ next.setEntries rest = .ok after := by
  unfold setEntries at h
  rw [List.foldlM_cons] at h
  exact ok_of_bind h

/-- Entries that are set are what their keys tell. -/
theorem setEntries_told {entries : Entries} {before after : Settings} (hkeys : entries.keys.Nodup)
    (h : before.setEntries entries = .ok after) : after = before.told entries := by
  induction entries generalizing before with
  | nil =>
    cases h
    rfl
  | cons entry rest ih =>
    obtain ⟨key, value⟩ := entry
    obtain ⟨hnew, hrest⟩ := List.nodup_cons.mp hkeys
    obtain ⟨next, hset, hafter⟩ := exists_setKey h
    rw [told_cons hnew, ← setKey_told hset]
    exact ih hrest hafter

/-- The value of every key of a document that is set can be set. -/
theorem setKey_of_setEntries {entries : Entries} {before after : Settings}
    (h : before.setEntries entries = .ok after) {key : String} {value : Value}
    (hmem : (key, value) ∈ entries) :
    ∃ first next : Settings, first.setKey key value = .ok next := by
  induction entries generalizing before with
  | nil => cases hmem
  | cons entry rest ih =>
    obtain ⟨name, found⟩ := entry
    obtain ⟨next, hset, hafter⟩ := exists_setKey h
    rcases List.mem_cons.mp hmem with heq | hrest
    · cases heq
      exact ⟨before, next, hset⟩
    · exact ih hafter hrest

/-- The settings are those below with the values of a document laid over them. -/
structure Filed (entries : Entries) (below settings : Settings) : Prop where
  root : Layered (entries.get? "root_dir") Value.asPath below.root settings.root
  outputDirectory : Layered (entries.get? "output_dir") (fun value => value.asPath.map some)
    below.outputDirectory settings.outputDirectory
  rendererScript : Layered (entries.get? "renderer_script") Value.asPath
    below.rendererScript settings.rendererScript
  dumpTool : Layered (entries.get? "dump_tool") (Value.asText "a string")
    below.dumpTool settings.dumpTool
  event : Layered (entries.get? "event_type") (Value.asText "a string") below.event settings.event
  stackDepth : Layered (entries.get? "stack_depth")
    (fun value => (value.asNumber (Nat.pow 2 32) "u32").map UInt32.ofNat)
    below.stackDepth settings.stackDepth
  title : Layered (entries.get? "title") (Value.asText "a string") below.title settings.title
  timeoutSeconds : Layered (entries.get? "timeout_secs")
    (fun value => (value.asNumber (Nat.pow 2 64) "u64").map fun n => some (UInt64.ofNat n))
    below.timeoutSeconds settings.timeoutSeconds
  recordings : Layered (entries.get? "recordings") Recording.listOfValue
    below.recordings settings.recordings

/-- A key that can be read is layered over what is below. -/
theorem layered_readOr {α : Type} {entries : Entries} {key : String}
    {read : Value → Except Mismatch α}
    (h : ∀ value, entries.get? key = some value → ∃ result, read value = .ok result) (below : α) :
    Layered (entries.get? key) read below (readOr entries key read below) := by
  unfold readOr Entries.givenOr
  cases hvalue : entries.get? key with
  | none => rfl
  | some value =>
    obtain ⟨result, hresult⟩ := h value hvalue
    simp only [Layered, Option.bind_some, hresult]
    rfl

/-- Entries that are set are laid over what was before. -/
theorem filed_of_setEntries {entries : Entries} {before after : Settings}
    (hkeys : entries.keys.Nodup) (h : before.setEntries entries = .ok after) :
    Filed entries before after := by
  obtain rfl := setEntries_told hkeys h
  have hset {key : String} {value : Value} (hvalue : entries.get? key = some value) :
      ∃ first next : Settings, first.setKey key value = .ok next :=
    setKey_of_setEntries h (Entries.mem_of_get? hvalue)
  constructor
  all_goals
    refine layered_readOr (fun value hvalue => ?_) _
    obtain ⟨first, next, hnext⟩ := hset hvalue
    obtain ⟨read, hread, -⟩ := ok_of_map hnext
    exact ⟨_, by first | exact hread | (simp only [hread]; rfl)⟩

/-- A text that gives settings is a document, and its values are laid over the standard
settings. -/
theorem parse_filed {text : String} {settings : Settings} (h : parse text = .ok settings) :
    ∃ entries, Toml.Document.parse? text = some entries ∧ Filed entries standard settings := by
  cases hdocument : Toml.Document.parse? text with
  | none =>
    unfold parse at h
    rw [hdocument] at h
    cases h
  | some entries =>
    rw [parse_eq hdocument] at h
    cases hset : standard.setEntries entries with
    | error mismatch =>
      rw [hset] at h
      cases h
    | ok told =>
      rw [hset] at h
      cases h
      exact ⟨entries, rfl, filed_of_setEntries (Toml.Document.parse?_sound hdocument).keys hset⟩

/-- What is read from a settings file. -/
def loaded (files : FileSystem) (p : Path) : Except Failure Settings :=
  match files.readText p with
  | .error cause => .error (.unreadable p cause)
  | .ok text => (parse text).mapError .malformed

/-- Reading settings from a file changes no file. -/
theorem load_gives (p : Path) (before : Session) :
    (load p).Gives before (loaded before.files p) before.files := by
  unfold load loaded
  refine (Step.note_gives _ _ _ before).bind fun noted hn => ?_
  refine (Step.view_gives (·.readText p) noted).bind fun looked hl => ?_
  rw [hn] at hl ⊢
  cases before.files.readText p with
  | error cause => exact hl ▸ Step.pure_gives _ looked
  | ok text => exact hl ▸ Step.pure_gives _ looked

/-- The settings under those that are given for the run. -/
def below (files : FileSystem) : Option Path → Except Failure Settings
  | none => .ok standard
  | some p => loaded files p

/-- Finding the settings of a run lays what is given for it over the settings below, and changes
no file. -/
theorem effective_gives (overrides : Overrides) (before : Session) :
    overrides.effective.Gives before
      ((below before.files overrides.file).map fun settings => settings.overlay overrides)
      before.files := by
  unfold Overrides.effective
  cases overrides.file with
  | none => exact Step.pure_gives _ before
  | some p =>
    have hload := load_gives p before
    rw [below]
    generalize loaded before.files p = answer at hload ⊢
    refine hload.bind fun middle hm => ?_
    cases answer with
    | error failure => exact hm ▸ Step.pure_gives _ middle
    | ok settings => exact hm ▸ Step.pure_gives _ middle

end FlameFold.Settings
