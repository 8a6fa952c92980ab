import FlameFold.Proofs.Toml.Lines
import FlameFold.Proofs.Toml.Soundness
import FlameFold.Proofs.Toml.Table
import FlameFold.Settings.Document

/-!
# Written settings are read back

The document of some settings has one line for each field that has a value, then one table
for each recording. Each line sets its field, and a field without a line keeps the standard
value, which is the one that it has then.
-/

namespace FlameFold

open Toml (Denotes Entries Value writeText)
open Toml.Document (Lines)
open Toml.Key (IsBareKey)

/-- A line of a document with the value that it gives. -/
structure Settings.Line where
  /-- The key. -/
  key : String
  /-- The value as it is written. -/
  written : String
  /-- The value. -/
  value : Value

namespace Settings.Line

/-- The line that gives a key a text. -/
def text (key content : String) : Line := ⟨key, writeText content, .text content⟩

/-- The line that gives a key a number. -/
def number (key : String) (n : Nat) : Line := ⟨key, Nat.repr n, .integer n⟩

/-- The key and the value that lines give. -/
def entry (line : Line) : String × Value := (line.key, line.value)

/-- The text of lines. -/
def textOf (lines : List Line) : String :=
  String.join (lines.map fun line => keyLine line.key line.written)

/-- A line that is read as what it gives. -/
def Sound (line : Line) : Prop := IsBareKey line.key ∧ Denotes line.written.toList line.value

/-- A line that gives a key a text is sound. -/
theorem text_sound {key : String} (hkey : IsBareKey key) (content : String) :
    (text key content).Sound := ⟨hkey, Toml.denotes_text content⟩

/-- A line that gives a key a number of 63 bits is sound. -/
theorem number_sound {key : String} (hkey : IsBareKey key) {n : Nat} (hn : n < Nat.pow 2 63) :
    (number key n).Sound := ⟨hkey, Toml.denotes_number hn⟩

/-- The characters of a line. -/
theorem toList_keyLine (key written : String) :
    (keyLine key written).toList =
      key.toList ++ ' ' :: '=' :: ' ' :: (written.toList ++ ['\n']) := by
  simp [keyLine]

/-- The text of a line and of those after it. -/
theorem textOf_cons (line : Line) (rest : List Line) :
    textOf (line :: rest) = keyLine line.key line.written ++ textOf rest := by
  simp [textOf]

/-- Lines with keys of their own add their values to the table of the last header, where
`table` is what is there so far and `within` puts it into the document. -/
theorem lines_textOf (header : List String) (within : Entries → Entries)
    (hset : ∀ table key value, Entries.get? table key = none →
      (within table).setUnder header [] key value = some (within (table ++ [(key, value)])))
    (lines : List Line) (hsound : ∀ line ∈ lines, line.Sound) (table : Entries)
    (hkeys : (table.map Prod.fst ++ lines.map key).Nodup) :
    Lines ⟨within table, header⟩ (textOf lines).toList
      ⟨within (table ++ lines.map entry), header⟩ := by
  induction lines generalizing table with
  | nil =>
    have hnone := Lines.nil ⟨within table, header⟩
    simpa [textOf] using hnone
  | cons line rest ih =>
    obtain ⟨hkey, hvalue⟩ := hsound line List.mem_cons_self
    have hnew : line.key ∉ table.map Prod.fst := by
      intro hmem
      exact (List.nodup_append.mp hkeys).2.2 line.key hmem line.key List.mem_cons_self rfl
    have hline := Toml.Document.reads_key ⟨within table, header⟩ hkey hvalue
      (hset table line.key line.value (Entries.get?_eq_none.mpr hnew))
    have hrest := ih (fun other hother => hsound other (List.mem_cons_of_mem line hother))
      (table ++ [line.entry]) (by simpa [entry] using hkeys)
    rw [textOf_cons, String.toList_append, toList_keyLine]
    have hlines := Lines.cons hline hrest
    simpa [entry] using hlines

end Settings.Line

namespace Settings

/-- The lines of a document before those of the recordings; where there are no recordings,
one line says so. -/
def topLines (settings : Settings) : List Line :=
  [.text "root_dir" settings.root.text] ++
  (settings.outputDirectory.map fun p => Line.text "output_dir" p.text).toList ++
  [.text "renderer_script" settings.rendererScript.text, .text "dump_tool" settings.dumpTool,
    .text "event_type" settings.event, .number "stack_depth" settings.stackDepth.toNat,
    .text "title" settings.title] ++
  (settings.timeoutSeconds.map fun n => Line.number "timeout_secs" n.toNat).toList ++
  if settings.recordings.isEmpty then [⟨"recordings", "[]", .array []⟩] else []

/-- The lines of the table of one recording. -/
def recordingTable (recording : Recording) : List Line :=
  [.text "file" recording.file.text, .text "label" recording.label]

/-- A document is made of its lines. -/
theorem document_eq (settings : Settings) :
    settings.document = Line.textOf settings.topLines ++
      String.join (settings.recordings.map recordingLines) := by
  obtain ⟨root, output, script, tool, event, depth, title, timeout, recordings⟩ := settings
  cases output <;> cases timeout <;> cases recordings <;>
    simp [document, topLines, Line.textOf, Line.text, Line.number, String.append_assoc]

/-- Every key of the lines is a field, and no field has two lines. -/
theorem keys_topLines (settings : Settings) : (settings.topLines.map Line.key).Sublist keys := by
  obtain ⟨root, output, script, tool, event, depth, title, timeout, recordings⟩ := settings
  cases output <;> cases timeout <;> cases recordings <;>
    exact List.isSublist_iff_sublist.mp rfl

/-- The lines are sound if a document has a number for the time limit. -/
theorem topLines_sound {settings : Settings}
    (htimeout : ∀ seconds ∈ settings.timeoutSeconds, seconds.toNat < Nat.pow 2 63) :
    ∀ line ∈ settings.topLines, line.Sound := by
  have hdepth : settings.stackDepth.toNat < Nat.pow 2 63 :=
    Nat.lt_trans settings.stackDepth.toNat_lt (by decide)
  have hempty : (⟨"recordings", "[]", .array []⟩ : Line).Sound := ⟨by decide, Toml.denotes_empty⟩
  intro line hline
  simp only [topLines, List.mem_append, List.mem_cons, List.not_mem_nil, or_false,
    Option.mem_toList, Option.map_eq_some_iff] at hline
  obtain ((((rfl | ⟨p, -, rfl⟩) | rfl | rfl | rfl | rfl | rfl) | ⟨seconds, hseconds, rfl⟩) |
    hrecordings) := hline
  · exact Line.text_sound (by decide) _
  · exact Line.text_sound (by decide) _
  · exact Line.text_sound (by decide) _
  · exact Line.text_sound (by decide) _
  · exact Line.text_sound (by decide) _
  · exact Line.number_sound (by decide) hdepth
  · exact Line.text_sound (by decide) _
  · exact Line.number_sound (by decide) (htimeout seconds hseconds)
  · split at hrecordings
    · obtain rfl := List.mem_singleton.mp hrecordings
      exact hempty
    · cases hrecordings

/-- The lines of a recording are sound. -/
theorem recordingTable_sound (recording : Recording) :
    ∀ line ∈ recordingTable recording, line.Sound := by
  intro line hline
  simp only [recordingTable, List.mem_cons, List.not_mem_nil, or_false] at hline
  obtain rfl | rfl := hline
  · exact Line.text_sound (by decide) _
  · exact Line.text_sound (by decide) _

/-- The entries of the table of a recording. -/
def recordingEntries (recording : Recording) : Entries :=
  (recordingTable recording).map Line.entry

/-- The lines of a recording add a table with its entries to those before it. -/
theorem lines_recording (document : Toml.Document) (recording : Recording) {top : Entries}
    (htop : top.get? "recordings" = none) (tables : List Entries)
    (hopen : document.entries.openElement [] "recordings" =
      some (top.withTables "recordings" (tables ++ [[]]))) :
    Lines document (recordingLines recording).toList
      ⟨top.withTables "recordings" (tables ++ [recordingEntries recording]), ["recordings"]⟩ := by
  have hheader := Toml.Document.lines_element document (by decide : IsBareKey "recordings") hopen
  have hlines := Line.lines_textOf ["recordings"]
    (fun table => top.withTables "recordings" (tables ++ [table]))
    (fun table key value hnew => Entries.setUnder_last htop hnew value tables)
    (recordingTable recording) (recordingTable_sound recording) []
    (by simp [recordingTable, Line.text])
  have htext : (recordingLines recording).toList =
      ('\n' :: '[' :: '[' :: ("recordings".toList ++ [']', ']', '\n'])) ++
        (Line.textOf (recordingTable recording)).toList := by
    have htable : keyLine "file" (writeText recording.file.text) ++
        keyLine "label" (writeText recording.label) = Line.textOf (recordingTable recording) := by
      simp [Line.textOf, recordingTable, Line.text]
    have hopening : "\n[[recordings]]\n".toList =
        '\n' :: '[' :: '[' :: ("recordings".toList ++ [']', ']', '\n']) := rfl
    have hall : recordingLines recording =
        "\n[[recordings]]\n" ++ Line.textOf (recordingTable recording) :=
      String.append_assoc.trans (congrArg _ htable)
    exact (congrArg String.toList hall).trans
      (String.toList_append.trans (congrArg (· ++ _) hopening))
  rw [htext]
  exact hheader.append hlines

/-- The tables of recordings are added one after the other. -/
theorem lines_recordings {top : Entries} (htop : top.get? "recordings" = none)
    (recordings : List Recording) (tables : List Entries) (header : List String) :
    ∃ last, Lines ⟨top.withTables "recordings" tables, header⟩
      (String.join (recordings.map recordingLines)).toList
      ⟨top.withTables "recordings" (tables ++ recordings.map recordingEntries), last⟩ := by
  induction recordings generalizing tables header with
  | nil =>
    have hnone := Lines.nil ⟨top.withTables "recordings" tables, header⟩
    exact ⟨header, by simpa using hnone⟩
  | cons recording rest ih =>
    obtain ⟨last, hrest⟩ := ih (tables ++ [recordingEntries recording]) ["recordings"]
    have hfirst := lines_recording ⟨top.withTables "recordings" tables, header⟩ recording htop
      tables (Entries.openElement_more htop tables)
    have hlines := hfirst.append hrest
    exact ⟨last, by simpa using hlines⟩

/-- The entries that a document gives. -/
def allEntries (settings : Settings) : Entries :=
  if settings.recordings.isEmpty then settings.topLines.map Line.entry
  else Entries.withTables (settings.topLines.map Line.entry) "recordings"
    (settings.recordings.map recordingEntries)

/-- Without the line that says that there are no recordings, the tables of the recordings
have their key to themselves. -/
theorem get?_recordings {settings : Settings} (h : settings.recordings.isEmpty = false) :
    Entries.get? (settings.topLines.map Line.entry) "recordings" = none := by
  have hkeys : ((settings.topLines.map Line.entry).map Prod.fst).Sublist keys.dropLast := by
    obtain ⟨root, output, script, tool, event, depth, title, timeout, recordings⟩ := settings
    cases recordings with
    | nil => cases h
    | cons recording rest =>
      cases output <;> cases timeout <;> exact List.isSublist_iff_sublist.mp rfl
  apply Entries.get?_eq_none.mpr
  intro hmem
  exact absurd (hkeys.subset hmem) (by decide)

/-- A document is read as its entries. -/
theorem parse?_document {settings : Settings}
    (htimeout : ∀ seconds ∈ settings.timeoutSeconds, seconds.toNat < Nat.pow 2 63) :
    Toml.Document.parse? settings.document = some settings.allEntries := by
  have hkeys : (settings.topLines.map Line.key).Nodup :=
    settings.keys_topLines.nodup (by decide)
  have htop : Lines ⟨[], []⟩ (Line.textOf settings.topLines).toList
      ⟨settings.topLines.map Line.entry, []⟩ :=
    Line.lines_textOf [] (fun table => table)
      (fun table key value hnew => Entries.setUnder_top hnew value)
      settings.topLines (topLines_sound htimeout) [] hkeys
  have hmark : settings.document.toList.head? ≠ some '\uFEFF' := by
    obtain ⟨rest, hfirst⟩ : ∃ rest,
        settings.topLines = .text "root_dir" settings.root.text :: rest :=
      ⟨_, rfl⟩
    rw [document_eq, hfirst, Line.textOf_cons, String.toList_append, String.toList_append,
      Line.toList_keyLine]
    simp [Line.text]
  have hlines : ∃ last, Lines ⟨[], []⟩ settings.document.toList ⟨settings.allEntries, last⟩ := by
    rw [document_eq, String.toList_append, allEntries]
    cases hr : settings.recordings with
    | nil => exact ⟨[], by simpa using htop⟩
    | cons recording rest =>
      have hnone : Entries.get? (settings.topLines.map Line.entry) "recordings" = none :=
        get?_recordings (by rw [hr]; rfl)
      have hfirst := lines_recording ⟨settings.topLines.map Line.entry, []⟩ recording hnone []
        (Entries.openElement_first hnone)
      obtain ⟨last, hrest⟩ :=
        lines_recordings hnone rest [recordingEntries recording] ["recordings"]
      have hall := htop.append (hfirst.append hrest)
      exact ⟨last, by simpa using hall⟩
  obtain ⟨last, hlast⟩ := hlines
  exact hlast.parse? hmark

/-- The value that lists the recordings. -/
def recordingsValue (recordings : List Recording) : Value :=
  if recordings.isEmpty then .array [] else .tables (recordings.map recordingEntries)

/-- The recordings are read back. -/
theorem listOfValue_recordings (recordings : List Recording) :
    Recording.listOfValue (recordingsValue recordings) = .ok recordings := by
  have hone (recording : Recording) :
      Recording.ofEntries (recordingEntries recording) = .ok recording := rfl
  have hall : (recordings.map recordingEntries).mapM Recording.ofEntries = .ok recordings := by
    induction recordings with
    | nil => rfl
    | cons recording rest ih =>
      simp only [List.map_cons, List.mapM_cons, hone, ih]
      rfl
  cases recordings with
  | nil => rfl
  | cons recording rest => exact hall

/-- Set the fields that entries name, in their order. -/
def setEntries (settings : Settings) (entries : Entries) : Except Mismatch Settings :=
  entries.foldlM (fun settings (key, value) => settings.setKey key value) settings

/-- The first entry is set before the others. -/
theorem setEntries_cons {settings next : Settings} {key : String} {value : Value}
    (h : settings.setKey key value = .ok next) (rest : Entries) :
    settings.setEntries ((key, value) :: rest) = next.setEntries rest := by
  rw [setEntries, List.foldlM_cons]
  simp only [h]
  rfl

/-- An entry that is only there for a value sets a field that has none without it. -/
theorem setEntries_option {key : String} (value : α → Value) (field : Option α → Settings)
    (h : ∀ x, (field none).setKey key (value x) = .ok (field (some x)))
    (given : Option α) (rest : Entries) :
    (field none).setEntries ((given.map fun x => (key, value x)).toList ++ rest) =
      (field given).setEntries rest := by
  cases given with
  | none => rfl
  | some x => exact setEntries_cons (h x) rest

/-- A number below the bound is read back. -/
theorem asNumber_integer {n bound : Nat} (h : n < bound) (expected : String) :
    (Value.integer n).asNumber bound expected = .ok n := by
  have hrange : 0 ≤ (n : Int) ∧ (n : Int) < bound := by omega
  rw [Value.asNumber, if_pos hrange, Int.toNat_natCast]

/-- The entries of a document give the settings. -/
theorem ofEntries_allEntries (settings : Settings) :
    ofEntries settings.allEntries = .ok settings := by
  obtain ⟨root, output, script, tool, event, depth, title, timeout, recordings⟩ := settings
  have hall : allEntries ⟨root, output, script, tool, event, depth, title, timeout, recordings⟩ =
      ("root_dir", .text root.text) ::
        ((output.map fun p => ("output_dir", Value.text p.text)).toList ++
        (("renderer_script", .text script.text) :: ("dump_tool", .text tool) ::
          ("event_type", .text event) :: ("stack_depth", .integer depth.toNat) ::
          ("title", .text title) ::
        ((timeout.map fun n => ("timeout_secs", Value.integer n.toNat)).toList ++
          [("recordings", recordingsValue recordings)]))) := by
    cases output <;> cases timeout <;> cases recordings <;> rfl
  have hdepth (before : Settings) : before.setKey "stack_depth" (.integer depth.toNat) =
      .ok { before with stackDepth := depth } := by
    have hset (value : Value) : before.setKey "stack_depth" value =
      (value.asNumber (Nat.pow 2 32) "u32").map fun x =>
        { before with stackDepth := UInt32.ofNat x } := rfl
    rw [hset, asNumber_integer depth.toNat_lt "u32", Except.map, UInt32.ofNat_toNat]
  have htimeout (before : Settings) (n : UInt64) :
      before.setKey "timeout_secs" (.integer n.toNat) =
        .ok { before with timeoutSeconds := some n } := by
    have hset (value : Value) : before.setKey "timeout_secs" value =
      (value.asNumber (Nat.pow 2 64) "u64").map fun x =>
        { before with timeoutSeconds := some (UInt64.ofNat x) } := rfl
    rw [hset, asNumber_integer n.toNat_lt "u64", Except.map, UInt64.ofNat_toNat]
  have hrecordings (before : Settings) :
      before.setKey "recordings" (recordingsValue recordings) =
        .ok { before with recordings := recordings } := by
    have hset (value : Value) : before.setKey "recordings" value =
      (Recording.listOfValue value).map fun x => { before with recordings := x } := rfl
    rw [hset, listOfValue_recordings, Except.map]
  -- the standard settings count only where a field has no line
  have hset (r : Path) (s : Path) (t e : String) (d : UInt32) (c : String) (l : List Recording) :
      setEntries ⟨r, none, s, t, e, d, c, none, l⟩
        (allEntries ⟨root, output, script, tool, event, depth, title, timeout, recordings⟩) =
      .ok ⟨root, output, script, tool, event, depth, title, timeout, recordings⟩ := by
    rw [hall]
    refine Eq.trans (setEntries_cons rfl _) ?_
    refine Eq.trans (setEntries_option (fun p : Path => .text p.text)
      (fun p => ⟨root, p, s, t, e, d, c, none, l⟩) (fun p => rfl) output _) ?_
    refine Eq.trans (setEntries_cons rfl _) ?_
    refine Eq.trans (setEntries_cons rfl _) ?_
    refine Eq.trans (setEntries_cons rfl _) ?_
    refine Eq.trans (setEntries_cons (hdepth _) _) ?_
    refine Eq.trans (setEntries_cons rfl _) ?_
    refine Eq.trans (setEntries_option (fun n : UInt64 => .integer n.toNat)
      (fun n => ⟨root, output, script, tool, event, depth, title, n, l⟩)
      (htimeout ⟨root, output, script, tool, event, depth, title, none, l⟩) timeout _) ?_
    exact setEntries_cons (hrecordings _) []
  exact hset _ _ _ _ _ _ _

/-- A document is read back as the settings that it was written for. -/
theorem parse_document {settings : Settings}
    (htimeout : ∀ seconds ∈ settings.timeoutSeconds, seconds.toNat < Nat.pow 2 63) :
    parse settings.document = .ok settings := by
  rw [parse, parse?_document htimeout]
  simp only [ofEntries_allEntries, Except.mapError]

/-- Settings are written as a document that is read back as the same settings, and they are
not written only where the time limit is `2 ^ 63` seconds or more. -/
theorem write_parses (settings : Settings) :
    ((∃ seconds ∈ settings.timeoutSeconds, Nat.pow 2 63 - 1 < seconds.toNat) ∧
      settings.write = .error .timeoutTooLarge) ∨
    ((∀ seconds ∈ settings.timeoutSeconds, seconds.toNat ≤ Nat.pow 2 63 - 1) ∧
      ∃ text, settings.write = .ok text ∧ parse text = .ok settings) := by
  have hpos : 0 < Nat.pow 2 63 := by decide
  cases hseconds : settings.timeoutSeconds with
  | none =>
    refine .inr ⟨by simp, settings.document, by rw [write, hseconds], parse_document ?_⟩
    simp [hseconds]
  | some seconds =>
    by_cases hlarge : Nat.pow 2 63 ≤ seconds.toNat
    · refine .inl ⟨⟨seconds, rfl, by omega⟩, ?_⟩
      rw [write, hseconds]
      exact if_pos hlarge
    · have hsmall : ∀ n ∈ some seconds, n.toNat < Nat.pow 2 63 := by
        rintro n hn
        obtain rfl := Option.mem_some.mp hn
        exact Nat.lt_of_not_le hlarge
      refine .inr ⟨?_, settings.document, ?_, parse_document (hseconds ▸ hsmall)⟩
      · intro n hn
        have hn := hsmall n hn
        omega
      · rw [write, hseconds]
        exact if_neg hlarge

end Settings

end FlameFold
