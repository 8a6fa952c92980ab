import FlameFold.Proofs.Recording.Fitting
import FlameFold.Proofs.Settings.Document
import FlameFold.Proofs.Toml.Order

/-!
# Which documents give settings

A document gives settings exactly if all its keys are fields and all values fit theirs. The
settings have the values of the document, and the standard ones where it has none. Any other
document is refused for the first key that offends.
-/

namespace FlameFold

open Toml (Entries Value)

/-- The whole number that a value is, if it is one. -/
def Toml.Value.integer? : Value → Option Int
  | .integer number => some number
  | _ => none

namespace Settings

/-- What is expected of a field that takes a text. -/
def textField? : String → Option String
  | "root_dir" => some "path string"
  | "output_dir" => some "path string"
  | "renderer_script" => some "path string"
  | "dump_tool" => some "a string"
  | "event_type" => some "a string"
  | "title" => some "a string"
  | _ => none

/-- The numbers of a field that takes one: those below a bound, by the name of their kind. -/
def numberField? : String → Option (Nat × String)
  | "stack_depth" => some (Nat.pow 2 32, "u32")
  | "timeout_secs" => some (Nat.pow 2 64, "u64")
  | _ => none

/-- A key is a field, and the value fits it. -/
inductive Fits : String → Value → Prop
  /-- A text or a path. -/
  | text {key expected content : String} (hkey : textField? key = some expected) :
      Fits key (.text content)
  /-- A depth has 32 bits. -/
  | depth {number : Int} (hleast : 0 ≤ number) (hmost : number < Nat.pow 2 32) :
      Fits "stack_depth" (.integer number)
  /-- A time is not negative. -/
  | timeout {number : Int} (hleast : 0 ≤ number) : Fits "timeout_secs" (.integer number)
  /-- Every recording has a file and a label. -/
  | recordings {value : Value} {tables : List Entries} (hlisted : value.listed? = some tables)
      (hcomplete : ∀ table ∈ tables, Recording.Complete table) : Fits "recordings" value

/-- Why a key with its value gives no settings. -/
inductive Offends : String → Value → Mismatch → Prop
  /-- The key is no field. -/
  | unknown {key : String} {value : Value} (hkey : key ∉ keys) :
      Offends key value (.unknown key keys)
  /-- The field takes a text, and the value is none. -/
  | notText {key expected : String} {value : Value} (hkey : textField? key = some expected)
      (hvalue : value.text? = none) : Offends key value (.kind value.found expected)
  /-- The field takes a number, and the value is none. -/
  | notNumber {key expected : String} {bound : Nat} {value : Value}
      (hkey : numberField? key = some (bound, expected)) (hvalue : value.integer? = none) :
      Offends key value (.kind value.found expected)
  /-- The number is out of range. -/
  | outOfRange {key expected : String} {bound : Nat} {number : Int}
      (hkey : numberField? key = some (bound, expected))
      (hrange : ¬(0 ≤ number ∧ number < bound)) :
      Offends key (.integer number) (.range number expected)
  /-- The recordings are no list. -/
  | notList {value : Value} (harray : ∀ elements, value ≠ .array elements)
      (htables : ∀ elements, value ≠ .tables elements) :
      Offends "recordings" value (.kind value.found "a sequence")
  /-- The first recording that offends. -/
  | recording {value : Value} {before after : List Entries} {table : Entries}
      {mismatch : Mismatch} (hlisted : value.listed? = some (before ++ table :: after))
      (hbefore : ∀ earlier ∈ before, Recording.Complete earlier)
      (htable : Recording.Offends table mismatch) : Offends "recordings" value mismatch

/-- The settings that the values of a document give, where those without one are as before. -/
def given (before : Settings) (entries : Entries) : Settings where
  root := entries.givenOr "root_dir" (fun value => value.text?.map Path.mk) before.root
  outputDirectory := entries.givenOr "output_dir"
    (fun value => value.text?.map fun directory => some ⟨directory⟩) before.outputDirectory
  rendererScript := entries.givenOr "renderer_script" (fun value => value.text?.map Path.mk)
    before.rendererScript
  dumpTool := entries.givenOr "dump_tool" Value.text? before.dumpTool
  event := entries.givenOr "event_type" Value.text? before.event
  stackDepth := entries.givenOr "stack_depth"
    (fun value => value.integer?.map fun number => UInt32.ofNat number.toNat) before.stackDepth
  title := entries.givenOr "title" Value.text? before.title
  timeoutSeconds := entries.givenOr "timeout_secs"
    (fun value => value.integer?.map fun number => some (UInt64.ofNat number.toNat))
    before.timeoutSeconds
  recordings := entries.givenOr "recordings"
    (fun value => value.listed?.map (List.map Recording.given)) before.recordings

/-- The recordings of a document, if it has a list of them, are tables. -/
def ListsTables (entries : Entries) : Prop :=
  ∀ elements, entries.get? "recordings" = some (.array elements) →
    ∀ value ∈ elements, ∃ origin table, value = .table origin table

/-! ## One key -/

/-- A key that fits is a field. -/
theorem Fits.mem_keys {key : String} {value : Value} (h : Fits key value) : key ∈ keys := by
  cases h with
  | text hkey =>
    unfold textField? at hkey
    split at hkey <;> first | decide | cases hkey
  | depth => decide
  | timeout => decide
  | recordings => decide

/-- A value that fits is set. -/
theorem setKey_fits {key : String} {value : Value} (h : Fits key value) (hsound : value.Sound)
    (settings : Settings) :
    settings.setKey key value = .ok (settings.given [(key, value)]) := by
  cases h with
  | text hkey =>
    unfold textField? at hkey
    split at hkey <;> first | rfl | cases hkey
  | @depth number hleast hmost =>
    have hset : settings.setKey "stack_depth" (.integer number) =
        ((Value.integer number).asNumber (Nat.pow 2 32) "u32").map fun x =>
          { settings with stackDepth := UInt32.ofNat x } := rfl
    rw [hset, Value.asNumber, if_pos ⟨hleast, hmost⟩]
    rfl
  | @timeout number hleast =>
    have hmost : number < (Nat.pow 2 64 : Nat) := by
      have hbound : Toml.Number.bound < Nat.pow 2 64 := by decide
      cases hsound with
      | integer hrange =>
        unfold Toml.Number.inRange at hrange
        rw [Bool.and_eq_true, decide_eq_true_iff, decide_eq_true_iff] at hrange
        omega
    have hset : settings.setKey "timeout_secs" (.integer number) =
        ((Value.integer number).asNumber (Nat.pow 2 64) "u64").map fun x =>
          { settings with timeoutSeconds := some (UInt64.ofNat x) } := rfl
    rw [hset, Value.asNumber, if_pos ⟨hleast, hmost⟩]
    rfl
  | @recordings _ tables hlisted hcomplete =>
    have hset : settings.setKey "recordings" value =
        (Recording.listOfValue value).map fun x => { settings with recordings := x } := rfl
    have hkeys : ∀ table ∈ tables, table.keys.Nodup := fun table htable =>
      (hsound.listed hlisted table htable).keys
    have hlist : value.listed?.map (List.map Recording.given) =
        some (tables.map Recording.given) := by
      rw [hlisted]
      rfl
    have hgiven : settings.given [("recordings", value)] =
        { settings with recordings := tables.map Recording.given } :=
      congrArg (fun list : Option (List Recording) =>
        { settings with recordings := list.getD settings.recordings }) hlist
    rw [hset, Recording.listOfValue_listed hlisted, Recording.mapM_complete hkeys hcomplete,
      hgiven]
    rfl

/-- A value that offends is refused for what it offends by. -/
theorem setKey_offends {key : String} {value : Value} {mismatch : Mismatch}
    (h : Offends key value mismatch) (hsound : value.Sound) (settings : Settings) :
    settings.setKey key value = .error mismatch := by
  cases h with
  | unknown hkey =>
    unfold setKey
    split <;> first | rfl | exact absurd (by decide) hkey
  | notText hkey hvalue =>
    unfold textField? at hkey
    split at hkey <;> cases hkey <;>
      simp only [setKey, Value.asPath, Value.asText_none hvalue, Except.map]
  | notNumber hkey hvalue =>
    unfold numberField? at hkey
    split at hkey <;> cases hkey <;> cases value <;> first | rfl | cases hvalue
  | outOfRange hkey hrange =>
    unfold numberField? at hkey
    split at hkey <;> cases hkey <;> simp only [setKey, Value.asNumber, if_neg hrange, Except.map]
  | notList harray htables =>
    cases value with
    | array elements => exact absurd rfl (harray elements)
    | tables elements => exact absurd rfl (htables elements)
    | _ => rfl
  | @recording _ before after table _ hlisted hbefore htable =>
    have hset : settings.setKey "recordings" value =
        (Recording.listOfValue value).map fun x => { settings with recordings := x } := rfl
    have hkeys : ∀ each ∈ before ++ table :: after, Entries.keys each |>.Nodup :=
      fun each heach => (hsound.listed hlisted each heach).keys
    have herror : (before ++ table :: after).mapM Recording.ofEntries = .error mismatch :=
      Recording.mapM_offends (fun earlier hearlier => hkeys earlier (by simp [hearlier])) hbefore
        (hkeys table (by simp)) htable
    rw [hset, Recording.listOfValue_listed hlisted, herror]
    rfl

/-- A value for a field with a text fits or offends. -/
theorem fits_or_offends_text {key expected : String} (hkey : textField? key = some expected)
    (value : Value) : Fits key value ∨ ∃ mismatch, Offends key value mismatch := by
  cases value with
  | text content => exact .inl (.text hkey)
  | _ => exact .inr ⟨_, .notText hkey rfl⟩

/-- A value for a field with a number fits or offends, if every number below the bound fits. -/
theorem fits_or_offends_number {key expected : String} {bound : Nat}
    (hkey : numberField? key = some (bound, expected))
    (hfits : ∀ number : Int, 0 ≤ number → number < bound → Fits key (.integer number))
    (value : Value) : Fits key value ∨ ∃ mismatch, Offends key value mismatch := by
  cases value with
  | integer number =>
    by_cases hrange : 0 ≤ number ∧ number < bound
    · exact .inl (hfits number hrange.1 hrange.2)
    · exact .inr ⟨_, .outOfRange hkey hrange⟩
  | _ => exact .inr ⟨_, .notNumber hkey rfl⟩

/-- A list of tables fits or offends. -/
theorem fits_or_offends_listed {value : Value} {tables : List Entries}
    (hlisted : value.listed? = some tables) :
    Fits "recordings" value ∨ ∃ mismatch, Offends "recordings" value mismatch := by
  rcases all_or_first Recording.Complete tables with
    hcomplete | ⟨before, table, after, rfl, hbefore, hnot⟩
  · exact .inl (.recordings hlisted hcomplete)
  · obtain ⟨mismatch, hmismatch⟩ := (Recording.complete_or_offends table).resolve_left hnot
    exact .inr ⟨mismatch, .recording hlisted hbefore hmismatch⟩

/-- A value fits or offends; in a list, the recordings have to be tables. -/
theorem fits_or_offends {key : String} {value : Value}
    (htables : key = "recordings" → ∀ elements, value = .array elements →
      ∀ element ∈ elements, ∃ origin table, element = .table origin table) :
    Fits key value ∨ ∃ mismatch, Offends key value mismatch := by
  have hkinds : ∀ key ∈ keys, (textField? key).isSome = true ∨ key = "stack_depth" ∨
      key = "timeout_secs" ∨ key = "recordings" := by decide
  by_cases hkey : key ∈ keys
  · rcases hkinds key hkey with htext | rfl | rfl | rfl
    · obtain ⟨expected, hexpected⟩ := Option.isSome_iff_exists.mp htext
      exact fits_or_offends_text hexpected value
    · exact fits_or_offends_number rfl (fun _ => .depth) value
    · exact fits_or_offends_number rfl (fun _ hleast _ => .timeout hleast) value
    · cases value with
      | tables elements => exact fits_or_offends_listed rfl
      | array elements =>
        obtain ⟨tables, htables⟩ := Value.exists_tables (htables rfl elements rfl)
        have hlisted : (Value.array elements).listed? = some tables := htables
        exact fits_or_offends_listed hlisted
      | _ => exact .inr ⟨_, .notList (by simp) (by simp)⟩
  · exact .inr ⟨_, .unknown hkey⟩

/-! ## All keys -/

/-- What a first key gives stands until the others are set. -/
theorem given_cons {key : String} {value : Value} {rest : Entries} (hnew : key ∉ rest.keys)
    (before : Settings) :
    before.given ((key, value) :: rest) = (before.given [(key, value)]).given rest := by
  unfold given
  simp only [Entries.givenOr_cons hnew]

/-- Values that fit are set one after the other. -/
theorem setEntries_fits {entries : Entries} (hsound : entries.Sound)
    (hfits : ∀ entry ∈ entries, Fits entry.1 entry.2) (before : Settings) :
    before.setEntries entries = .ok (before.given entries) := by
  obtain ⟨hkeys, hvalues⟩ := hsound
  induction entries generalizing before with
  | nil => rfl
  | cons entry rest ih =>
    obtain ⟨key, value⟩ := entry
    obtain ⟨hnew, hrest⟩ := List.nodup_cons.mp hkeys
    obtain ⟨hfirst, hothers⟩ := List.forall_mem_cons.mp hfits
    obtain ⟨hvalue, hrestValues⟩ := List.forall_mem_cons.mp hvalues
    rw [setEntries_cons (setKey_fits hfirst hvalue before), given_cons hnew]
    exact ih hothers _ hrest hrestValues

/-- The first value that offends is the reason to refuse the entries. -/
theorem setEntries_offends {before after : Entries} {key : String} {value : Value}
    {mismatch : Mismatch} (hsound : Entries.Sound (before ++ (key, value) :: after))
    (hbefore : ∀ entry ∈ before, Fits entry.1 entry.2) (hoffends : Offends key value mismatch)
    (settings : Settings) :
    settings.setEntries (before ++ (key, value) :: after) = .error mismatch := by
  have hsofar : before.Sound := by
    constructor
    · refine hsound.keys.sublist ?_
      unfold Entries.keys
      rw [List.map_append]
      exact List.sublist_append_left _ _
    · exact fun entry hentry => hsound.values entry (List.mem_append_left _ hentry)
  have hset : (settings.given before).setKey key value = .error mismatch :=
    setKey_offends hoffends (hsound.values (key, value) (by simp)) _
  have hfirst := setEntries_fits hsofar hbefore settings
  unfold setEntries at hfirst ⊢
  rw [List.foldlM_append, hfirst]
  simp only [List.foldlM_cons, Except.bind, bind, hset]

/-- What comes of a document that is read, by whether its entries are set. -/
theorem parse_eq {text : String} {entries : Entries}
    (h : Toml.Document.parse? text = some entries) :
    parse text = (standard.setEntries entries).mapError .misfit := by
  unfold parse
  rw [h]
  rfl

/-- A value that offends does not fit. -/
theorem Offends.not_fits {key : String} {value : Value} {mismatch : Mismatch}
    (h : Offends key value mismatch) (hsound : value.Sound) : ¬Fits key value := by
  intro hfits
  have hset := setKey_offends h hsound standard
  rw [setKey_fits hfits hsound standard] at hset
  cases hset

/-- The values of a document fit, or there is a first one that offends. -/
theorem fits_or_first {entries : Entries} (hsound : entries.Sound) (htables : ListsTables entries) :
    (∀ entry ∈ entries, Fits entry.1 entry.2) ∨
      ∃ before key value after mismatch, entries = before ++ (key, value) :: after ∧
        (∀ entry ∈ before, Fits entry.1 entry.2) ∧ Offends key value mismatch := by
  rcases all_or_first (fun entry : String × Value => Fits entry.1 entry.2) entries with
    hfits | ⟨before, ⟨key, value⟩, after, rfl, hbefore, hnot⟩
  · exact .inl hfits
  · have hvalue : Entries.get? (before ++ (key, value) :: after) key = some value :=
      Entries.get?_of_mem hsound.keys (by simp)
    have hlists : key = "recordings" → ∀ elements, value = .array elements →
        ∀ element ∈ elements, ∃ origin table, element = .table origin table := by
      rintro rfl elements rfl
      exact htables elements hvalue
    obtain ⟨mismatch, hmismatch⟩ := (fits_or_offends hlists).resolve_left hnot
    exact .inr ⟨before, key, value, after, mismatch, rfl, hbefore, hmismatch⟩

/-- A key that does not fit counts from a later place than the first one that does not. -/
theorem place_first {mentions : List Toml.Mention} {before after : Entries} {key other : String}
    {value found : Value}
    (hordered : Entries.Ordered mentions (before ++ (key, value) :: after))
    (hbefore : ∀ entry ∈ before, Fits entry.1 entry.2)
    (hfound : Entries.get? (before ++ (key, value) :: after) other = some found)
    (hnot : ¬Fits other found) (hne : other ≠ key) :
    Toml.Mention.place mentions key < Toml.Mention.place mentions other := by
  have hascending := hordered.ascending
  unfold Entries.keys at hascending
  rw [List.map_append, List.map_cons] at hascending
  have hafter := (List.pairwise_cons.mp (List.pairwise_append.mp hascending).2.1).1
  rcases List.mem_append.mp (Entries.mem_of_get? hfound) with hmem | hmem
  · exact absurd (hbefore _ hmem) hnot
  · rcases List.mem_cons.mp hmem with heq | hmem
    · exact absurd (congrArg Prod.fst heq) hne
    · exact hafter other (List.mem_map_of_mem hmem)

/-- A document whose recordings, if it lists any, are tables gives settings exactly if each of
its keys is a field with a value that fits. The settings have these values and otherwise the
standard ones. Any other document is refused for the key that does not fit and, of all such
keys, counts from the earliest line: the one that names the key first or, for a table that a
header of its own opens after it was named, that header. -/
theorem parse_decides {text : String} {entries : Entries}
    (hdocument : Toml.Document.parse? text = some entries) (htables : ListsTables entries) :
    ((∃ settings, parse text = .ok settings) ↔
      ∀ key value, entries.get? key = some value → key ∈ keys ∧ Fits key value) ∧
    (∀ settings, parse text = .ok settings → settings = standard.given entries) ∧
    ∀ fault, parse text = .error fault → ∃ key value mismatch,
      fault = .misfit mismatch ∧ entries.get? key = some value ∧ ¬Fits key value ∧
      Offends key value mismatch ∧
      ∀ other found, entries.get? other = some found → ¬Fits other found → other ≠ key →
        Toml.Mention.place (Toml.Document.mentions text) key <
          Toml.Mention.place (Toml.Document.mentions text) other := by
  have hsound := Toml.Document.parse?_sound hdocument
  have hordered := Toml.Document.parse?_ordered hdocument
  rcases fits_or_first hsound htables with
    hfits | ⟨before, key, value, after, mismatch, rfl, hbefore, hoffends⟩
  · have hparse : parse text = .ok (standard.given entries) := by
      rw [parse_eq hdocument, setEntries_fits hsound hfits]
      rfl
    refine ⟨⟨fun _ key value hvalue => ?_, fun _ => ⟨_, hparse⟩⟩, ?_, ?_⟩
    · have hfit : Fits key value := hfits _ (Entries.mem_of_get? hvalue)
      exact ⟨hfit.mem_keys, hfit⟩
    · intro settings hsettings
      rw [hparse] at hsettings
      cases hsettings
      rfl
    · intro fault hfault
      rw [hparse] at hfault
      cases hfault
  · have hparse : parse text = .error (.misfit mismatch) := by
      rw [parse_eq hdocument, setEntries_offends hsound hbefore hoffends]
      rfl
    have hvalue : Entries.get? (before ++ (key, value) :: after) key = some value :=
      Entries.get?_of_mem hsound.keys (by simp)
    have hnot : ¬Fits key value := hoffends.not_fits (hsound.get? hvalue)
    refine ⟨⟨?_, fun hfits => absurd (hfits key value hvalue).2 hnot⟩, ?_, ?_⟩
    · rintro ⟨settings, hsettings⟩
      rw [hparse] at hsettings
      cases hsettings
    · intro settings hsettings
      rw [hparse] at hsettings
      cases hsettings
    · intro fault hfault
      rw [hparse] at hfault
      cases hfault
      exact ⟨key, value, mismatch, rfl, hvalue, hnot, hoffends,
        fun other found hfound hother hne => place_first hordered hbefore hfound hother hne⟩

/-- A document with a recording that has no file, after a table that moves behind it. -/
def unfiled : String := "[extra.more]\n[[recordings]]\nlabel = 'Jdbc'\n[extra]\n"

/-- The entries of that document. -/
def unfiledEntries : Entries :=
  [("recordings", .tables [[("label", .text "Jdbc")]]),
    ("extra", .table .header [("more", .table .header [])])]

/-- The recording is the reason to refuse the document, although the other table is named
before it. -/
theorem parse_decides_unfiled :
    Toml.Document.parse? unfiled = some unfiledEntries ∧ ListsTables unfiledEntries ∧
    parse unfiled = .error (.misfit (.missing "file")) ∧
    ∃ key value, unfiledEntries.get? key = some value ∧ ¬Fits key value ∧
      Offends key value (.missing "file") ∧
      ∀ other found, unfiledEntries.get? other = some found → ¬Fits other found → other ≠ key →
        Toml.Mention.place (Toml.Document.mentions unfiled) key <
          Toml.Mention.place (Toml.Document.mentions unfiled) other := by
  have hdocument : Toml.Document.parse? unfiled = some unfiledEntries := rfl
  have htables : ListsTables unfiledEntries := by
    intro elements helements
    cases helements
  have hparse : parse unfiled = .error (.misfit (.missing "file")) := by decide +kernel
  obtain ⟨-, -, hrefused⟩ := parse_decides hdocument htables
  obtain ⟨key, value, mismatch, hmisfit, hvalue, hnot, hoffends, hfirst⟩ := hrefused _ hparse
  cases hmisfit
  exact ⟨hdocument, htables, hparse, key, value, hvalue, hnot, hoffends, hfirst⟩

/-- A document with two unknown keys, the first of which a header of its own opens only after
the second. -/
def openedLate : String := "[a.b]\n[c]\n[a]\n"

/-- The reason to refuse a document is not always the key that is named first. -/
theorem first_named_not_reported :
    ¬∀ text entries fault, Toml.Document.parse? text = some entries → ListsTables entries →
      parse text = .error fault → ∃ key value mismatch,
        fault = .misfit mismatch ∧ entries.get? key = some value ∧ Offends key value mismatch ∧
        ∀ other found, entries.get? other = some found → ¬Fits other found → other ≠ key →
          Toml.Mention.first (Toml.Document.mentions text) key <
            Toml.Mention.first (Toml.Document.mentions text) other := by
  intro h
  have hdocument : Toml.Document.parse? openedLate =
      some [("c", .table .header []), ("a", .table .header [("b", .table .header [])])] := rfl
  have htables : ListsTables [("c", .table .header []),
      ("a", .table .header [("b", .table .header [])])] := by
    intro elements helements
    cases helements
  have hparse : parse openedLate = .error (.misfit (.unknown "c" keys)) := by decide +kernel
  obtain ⟨key, value, mismatch, hmisfit, -, hoffends, hfirst⟩ :=
    h openedLate _ _ hdocument htables hparse
  have hkey : key = "c" := by
    cases hmisfit
    cases hoffends with
    | unknown => rfl
    | recording _ _ htable => cases htable
  subst hkey
  have hlt := hfirst "a" _ rfl (fun hfits => absurd hfits.mem_keys (by decide)) (by decide)
  revert hlt
  decide +kernel

end Settings

end FlameFold
