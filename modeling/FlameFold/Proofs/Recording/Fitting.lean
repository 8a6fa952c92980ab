import FlameFold.Proofs.Toml.Soundness
import FlameFold.Settings.Document

/-!
# The recordings that a document lists

The table of a recording needs a text under each of two keys, and other keys say nothing. A
table that has not both is refused: for the first of the two keys that has no text or, if
there is no such key, for one that is missing.
-/

namespace FlameFold

open Toml (Entries Value)

namespace Toml

/-- The text that a value is, if it is one. -/
def Value.text? : Value → Option String
  | .text content => some content
  | _ => none

/-- The table that a value is, if it is one. -/
def Value.table? : Value → Option Entries
  | .table _ entries => some entries
  | _ => none

/-- The tables that a value lists, if it is a list of tables. -/
def Value.listed? : Value → Option (List Entries)
  | .tables elements => some elements
  | .array elements => elements.mapM table?
  | _ => none

theorem Value.asText_text? {value : Value} {content : String} (h : value.text? = some content)
    (expected : String) : value.asText expected = .ok content := by
  cases value with
  | text written =>
    cases h
    rfl
  | _ => cases h

theorem Value.asText_none {value : Value} (h : value.text? = none) (expected : String) :
    value.asText expected = .error (.kind value.found expected) := by
  cases value with
  | text written => cases h
  | _ => rfl

/-- What a value under a key gives, and `absent` without one that gives something. -/
def Entries.givenOr (entries : Entries) (key : String) (read : Value → Option α) (absent : α) :
    α :=
  ((entries.get? key).bind read).getD absent

/-- Of two values in turn the later one counts, and no key has two. -/
theorem Entries.givenOr_cons {key name : String} {value : Value} {rest : Entries}
    (hnew : key ∉ rest.keys) (read : Value → Option α) (absent : α) :
    Entries.givenOr ((key, value) :: rest) name read absent =
      rest.givenOr name read (Entries.givenOr [(key, value)] name read absent) := by
  unfold givenOr
  rw [get?_cons, get?_cons]
  by_cases hname : name = key
  · rw [if_pos hname, if_pos hname, hname, get?_eq_none.mpr hnew]
    rfl
  · rw [if_neg hname, if_neg hname]
    rfl

/-- Values that are tables give them. -/
theorem Value.exists_tables {elements : List Value}
    (h : ∀ element ∈ elements, ∃ origin table, element = .table origin table) :
    ∃ tables, elements.mapM table? = some tables := by
  induction elements with
  | nil => exact ⟨[], rfl⟩
  | cons element rest ih =>
    obtain ⟨⟨origin, table, rfl⟩, hrest⟩ := List.forall_mem_cons.mp h
    obtain ⟨tables, htables⟩ := ih hrest
    refine ⟨table :: tables, ?_⟩
    rw [List.mapM_cons, htables]
    rfl

/-- The tables that a sound value lists are sound. -/
theorem Value.Sound.listed {value : Value} (h : value.Sound) {tables : List Entries}
    (hlisted : value.listed? = some tables) : ∀ table ∈ tables, table.Sound := by
  cases value with
  | tables elements =>
    cases hlisted
    exact sound_tables.mp h
  | array elements =>
    obtain _ | _ | _ | _ | _ | helements := h
    have hmapM : elements.mapM table? = some tables := hlisted
    clear hlisted
    induction elements generalizing tables with
    | nil =>
      cases hmapM
      simp
    | cons element rest ih =>
      obtain ⟨hfirst, hrest⟩ := List.forall_mem_cons.mp helements
      rw [List.mapM_cons] at hmapM
      obtain ⟨table, htable, hmore⟩ := Option.bind_eq_some_iff.mp hmapM
      obtain ⟨others, hothers, hall⟩ := Option.bind_eq_some_iff.mp hmore
      cases hall
      cases element with
      | table origin entries =>
        cases htable
        exact List.forall_mem_cons.mpr ⟨sound_table.mp hfirst, ih hrest hothers⟩
      | _ => cases htable
  | _ => cases hlisted

end Toml

/-- Either all elements of a list satisfy a property, or there is a first one that does not. -/
theorem all_or_first (p : α → Prop) (list : List α) :
    (∀ x ∈ list, p x) ∨
      ∃ before x after, list = before ++ x :: after ∧ (∀ y ∈ before, p y) ∧ ¬p x := by
  induction list with
  | nil => exact .inl (by simp)
  | cons x rest ih =>
    by_cases hx : p x
    · rcases ih with hall | ⟨before, y, after, rfl, hbefore, hy⟩
      · exact .inl (List.forall_mem_cons.mpr ⟨hx, hall⟩)
      · exact .inr ⟨x :: before, y, after, rfl, List.forall_mem_cons.mpr ⟨hx, hbefore⟩, hy⟩
    · exact .inr ⟨[], x, rest, rfl, by simp, hx⟩

namespace Recording

/-- What is expected under a key of a recording. -/
def expected? : String → Option String
  | "file" => some "path string"
  | "label" => some "a string"
  | _ => none

/-- An entry that says nothing, or that has the text it should have. -/
def Reads (entry : String × Value) : Prop :=
  (expected? entry.1).isSome = true → entry.2.text?.isSome = true

/-- A table that has both texts. -/
def Complete (table : Entries) : Prop :=
  (∃ file, table.get? "file" = some (.text file)) ∧
    ∃ label, table.get? "label" = some (.text label)

/-- The recording that a complete table gives. -/
def given (table : Entries) : Recording where
  file := table.givenOr "file" (fun value => value.text?.map Path.mk) ⟨""⟩
  label := table.givenOr "label" Value.text? ""

/-- Why a table gives no recording. -/
inductive Offends (table : Entries) : Mismatch → Prop
  /-- The first key of a recording that has no text. -/
  | misfit {before after : Entries} {key expected : String} {value : Value}
      (htable : table = before ++ (key, value) :: after) (hbefore : ∀ entry ∈ before, Reads entry)
      (hkey : expected? key = some expected) (hvalue : value.text? = none) :
      Offends table (.kind value.found expected)
  /-- There is no file. -/
  | fileMissing (hreads : ∀ entry ∈ table, Reads entry) (hfile : table.get? "file" = none) :
      Offends table (.missing "file")
  /-- There is a file and no label. -/
  | labelMissing {file : String} (hreads : ∀ entry ∈ table, Reads entry)
      (hfile : table.get? "file" = some (.text file)) (hlabel : table.get? "label" = none) :
      Offends table (.missing "label")

/-! ## One table -/

/-- Take one entry of a table, with the file and the label so far. -/
def take (sofar : Option Path × Option String) (entry : String × Value) :
    Except Mismatch (Option Path × Option String) :=
  if entry.1 = "file" then do
    let file ← entry.2.asPath
    return (some file, sofar.2)
  else if entry.1 = "label" then do
    let label ← entry.2.asText "a string"
    return (sofar.1, some label)
  else .ok sofar

/-- A recording needs the file and the label that are taken from the table. -/
theorem ofEntries_eq (table : Entries) :
    ofEntries table = (table.foldlM take (none, none)).bind fun
      | (none, _) => .error (.missing "file")
      | (_, none) => .error (.missing "label")
      | (some file, some label) => .ok ⟨file, label⟩ := rfl

/-- An entry that says nothing changes nothing, and the text of another is taken. -/
theorem take_reads {entry : String × Value} (h : Reads entry)
    (file? : Option Path) (label? : Option String) :
    take (file?, label?) entry =
      .ok (Entries.givenOr [entry] "file" (fun value => value.text?.map fun s => some ⟨s⟩) file?,
        Entries.givenOr [entry] "label" (fun value => value.text?.map some) label?) := by
  obtain ⟨key, value⟩ := entry
  by_cases hfile : key = "file"
  · subst hfile
    obtain ⟨content, hcontent⟩ := Option.isSome_iff_exists.mp (h rfl)
    have htaken : take (file?, label?) ("file", value) = .ok (some ⟨content⟩, label?) := by
      unfold take
      rw [if_pos rfl, Value.asPath, Value.asText_text? hcontent]
      rfl
    have hgiven : Entries.givenOr [("file", value)] "file"
        (fun value => value.text?.map fun s => some ⟨s⟩) file? = some ⟨content⟩ :=
      congrArg (fun text? : Option String => (text?.map fun s => some (Path.mk s)).getD file?)
        hcontent
    rw [htaken, hgiven]
    rfl
  · by_cases hlabel : key = "label"
    · subst hlabel
      obtain ⟨content, hcontent⟩ := Option.isSome_iff_exists.mp (h rfl)
      have htaken : take (file?, label?) ("label", value) = .ok (file?, some content) := by
        unfold take
        rw [if_neg hfile, if_pos rfl, Value.asText_text? hcontent]
        rfl
      have hgiven : Entries.givenOr [("label", value)] "label"
          (fun value => value.text?.map some) label? = some content :=
        congrArg (fun text? : Option String => (text?.map some).getD label?) hcontent
      rw [htaken, hgiven]
      rfl
    · unfold take Entries.givenOr
      rw [if_neg hfile, if_neg hlabel, Entries.get?_cons, Entries.get?_cons,
        if_neg (Ne.symm hfile), if_neg (Ne.symm hlabel)]
      rfl

/-- Where every entry is read, the two texts of the table are taken. -/
theorem foldlM_take {table : Entries} (hkeys : table.keys.Nodup)
    (hreads : ∀ entry ∈ table, Reads entry) (file? : Option Path) (label? : Option String) :
    table.foldlM take (file?, label?) =
      .ok (table.givenOr "file" (fun value => value.text?.map fun s => some ⟨s⟩) file?,
        table.givenOr "label" (fun value => value.text?.map some) label?) := by
  induction table generalizing file? label? with
  | nil => rfl
  | cons entry rest ih =>
    obtain ⟨hnew, hrest⟩ := List.nodup_cons.mp hkeys
    obtain ⟨hentry, hothers⟩ := List.forall_mem_cons.mp hreads
    rw [List.foldlM_cons, take_reads hentry]
    refine (ih hrest hothers _ _).trans ?_
    rw [← Entries.givenOr_cons hnew, ← Entries.givenOr_cons hnew]

/-- Every entry of a complete table is read. -/
theorem Complete.reads {table : Entries} (h : Complete table) (hkeys : table.keys.Nodup) :
    ∀ entry ∈ table, Reads entry := by
  rintro ⟨key, value⟩ hentry hexpected
  obtain ⟨⟨file, hfile⟩, label, hlabel⟩ := h
  have hvalue := Entries.get?_of_mem hkeys hentry
  unfold expected? at hexpected
  split at hexpected
  · next hkey =>
    obtain rfl : key = "file" := hkey
    rw [hfile] at hvalue
    cases hvalue
    rfl
  · next hkey =>
    obtain rfl : key = "label" := hkey
    rw [hlabel] at hvalue
    cases hvalue
    rfl
  · cases hexpected

/-- A complete table gives its recording. -/
theorem ofEntries_complete {table : Entries} (hkeys : table.keys.Nodup) (h : Complete table) :
    ofEntries table = .ok (given table) := by
  rw [ofEntries_eq, foldlM_take hkeys (h.reads hkeys)]
  obtain ⟨⟨file, hfile⟩, label, hlabel⟩ := h
  unfold given Entries.givenOr
  rw [hfile, hlabel]
  rfl

/-- A table that offends is refused for what it offends by. -/
theorem ofEntries_offends {table : Entries} (hkeys : table.keys.Nodup) {mismatch : Mismatch}
    (h : Offends table mismatch) : ofEntries table = .error mismatch := by
  cases h with
  | @misfit before after key expected value htable hbefore hkey hvalue =>
    subst htable
    have hsofar : (Entries.keys before).Nodup := by
      refine hkeys.sublist ?_
      unfold Entries.keys
      rw [List.map_append]
      exact List.sublist_append_left _ _
    have htake (sofar : Option Path × Option String) :
        take sofar (key, value) = .error (.kind value.found expected) := by
      unfold expected? at hkey
      split at hkey
      · cases hkey
        simp only [take, Value.asPath, Value.asText_none hvalue]
        rfl
      · cases hkey
        simp only [take, Value.asText_none hvalue]
        rfl
      · cases hkey
    rw [ofEntries_eq, List.foldlM_append, foldlM_take hsofar hbefore]
    simp only [List.foldlM_cons, Except.bind, bind, htake]
  | fileMissing hreads hfile =>
    rw [ofEntries_eq, foldlM_take hkeys hreads]
    unfold Entries.givenOr
    rw [hfile]
    rfl
  | @labelMissing file hreads hfile hlabel =>
    rw [ofEntries_eq, foldlM_take hkeys hreads]
    unfold Entries.givenOr
    rw [hfile, hlabel]
    rfl

/-- A table is complete or offends. -/
theorem complete_or_offends (table : Entries) :
    Complete table ∨ ∃ mismatch, Offends table mismatch := by
  rcases all_or_first Reads table with hreads | ⟨before, ⟨key, value⟩, after, rfl, hbefore, hnot⟩
  · have htext : ∀ {key : String} {value : Value}, (expected? key).isSome = true →
        table.get? key = some value → ∃ content, value = .text content := by
      intro key value hkey hvalue
      have hsome := hreads _ (Entries.mem_of_get? hvalue) hkey
      cases value with
      | text content => exact ⟨content, rfl⟩
      | _ => cases hsome
    cases hfile : table.get? "file" with
    | none => exact .inr ⟨_, .fileMissing hreads hfile⟩
    | some file =>
      obtain ⟨file, rfl⟩ := htext rfl hfile
      cases hlabel : table.get? "label" with
      | none => exact .inr ⟨_, .labelMissing hreads hfile hlabel⟩
      | some label =>
        obtain ⟨label, rfl⟩ := htext rfl hlabel
        exact .inl ⟨⟨file, hfile⟩, label, hlabel⟩
  · cases hexpected : expected? key with
    | none => exact absurd (fun h => by rw [hexpected] at h; cases h) hnot
    | some expected =>
      cases hvalue : value.text? with
      | some content => exact absurd (fun _ => by rw [hvalue]; rfl) hnot
      | none => exact .inr ⟨_, .misfit rfl hbefore hexpected hvalue⟩

/-! ## A list of tables -/

/-- Tables between brackets are read table by table. -/
theorem mapM_ofValue {elements : List Value} {tables : List Entries}
    (h : elements.mapM Value.table? = some tables) :
    elements.mapM ofValue = tables.mapM ofEntries := by
  induction elements generalizing tables with
  | nil =>
    cases h
    rfl
  | cons element rest ih =>
    rw [List.mapM_cons] at h
    obtain ⟨table, htable, hmore⟩ := Option.bind_eq_some_iff.mp h
    obtain ⟨others, hothers, hall⟩ := Option.bind_eq_some_iff.mp hmore
    cases hall
    cases element with
    | table origin entries =>
      cases htable
      rw [List.mapM_cons, List.mapM_cons, ih hothers]
      rfl
    | _ => cases htable

/-- A list of tables is read table by table. -/
theorem listOfValue_listed {value : Value} {tables : List Entries}
    (h : value.listed? = some tables) : listOfValue value = tables.mapM ofEntries := by
  cases value with
  | tables elements =>
    cases h
    rfl
  | array elements => exact mapM_ofValue h
  | _ => cases h

/-- Complete tables give their recordings. -/
theorem mapM_complete {tables : List Entries} (hkeys : ∀ table ∈ tables, table.keys.Nodup)
    (h : ∀ table ∈ tables, Complete table) : tables.mapM ofEntries = .ok (tables.map given) := by
  induction tables with
  | nil => rfl
  | cons table rest ih =>
    obtain ⟨hfirst, hrest⟩ := List.forall_mem_cons.mp h
    obtain ⟨hkeysFirst, hkeysRest⟩ := List.forall_mem_cons.mp hkeys
    rw [List.mapM_cons, ofEntries_complete hkeysFirst hfirst, ih hkeysRest hrest]
    rfl

/-- A list of tables is refused for the first one that offends. -/
theorem mapM_offends {before after : List Entries} {table : Entries} {mismatch : Mismatch}
    (hkeys : ∀ earlier ∈ before, earlier.keys.Nodup)
    (hbefore : ∀ earlier ∈ before, Complete earlier)
    (htable : table.keys.Nodup) (h : Offends table mismatch) :
    (before ++ table :: after).mapM ofEntries = .error mismatch := by
  rw [List.mapM_append, mapM_complete hkeys hbefore, List.mapM_cons, ofEntries_offends htable h]
  rfl

end Recording

end FlameFold
