import FlameFold.Proofs.Toml.Number
import FlameFold.Proofs.Toml.Text
import FlameFold.Toml.Document

/-!
# Lines of a settings document are read

A line that gives a key a value adds the value to the table of the last header. What a line
does is said for all characters that may follow it, so lines are read one after the other; a
line has a character at least, so the fuel of the reader is enough for all of them.
-/

namespace FlameFold.Toml

/-- Nothing is dropped in front of a character that is neither a space nor a tab. -/
theorem skipSpaces_cons {c : Char} (h : Text.isSpace c = false) (cs : List Char) :
    skipSpaces (c :: cs) = c :: cs := by
  simp [skipSpaces, h]

/-- A text that is read as a value up to the end of its line, and does not begin with white
space. -/
structure Denotes (written : List Char) (value : Value) : Prop where
  /-- The text is read up to the end of the line. -/
  read : ∀ rest, Value.read (written ++ '\n' :: rest) = some (value, '\n' :: rest)
  /-- Its first character is neither a space nor a tab. -/
  first : ∀ c ∈ written.head?, Text.isSpace c = false

/-- A written text begins with one of the delimiters. -/
theorem Form.write_first (form : Form) (cs : List Char) :
    ∃ c more, form.write cs = c :: more ∧ (c = '"' ∨ c = '\'') := by
  cases form with
  | basic => exact ⟨'"', _, rfl, .inl rfl⟩
  | literal => exact ⟨'\'', _, rfl, .inr rfl⟩
  | multiBasic => exact ⟨'"', _, rfl, .inl rfl⟩
  | multiLiteral => exact ⟨'\'', _, rfl, .inr rfl⟩

/-- A written text denotes the text. -/
theorem denotes_text (text : String) : Denotes (writeText text).toList (.text text) := by
  rw [writeText, String.toList_ofList]
  obtain ⟨c, more, hwrite, hc⟩ := Form.write_first (Form.choose text.toList) text.toList
  refine ⟨fun rest => ?_, fun d hd => ?_⟩
  · have hread := Text.read_write (Form.choose_holds text.toList) ('\n' :: rest)
      ⟨by simp, by simp⟩
    rw [hwrite, List.cons_append] at hread ⊢
    obtain rfl | rfl := hc
    · simp [Value.read, Value.readScalar, hread]
    · simp [Value.read, Value.readScalar, hread]
  · rw [hwrite] at hd
    obtain rfl : c = d := by simpa using hd
    obtain rfl | rfl := hc <;> rfl

/-- A written number denotes the number, if it has 63 bits. -/
theorem denotes_number {n : Nat} (hn : n < Number.bound) :
    Denotes (Nat.repr n).toList (.integer n) := by
  rw [Nat.toList_repr]
  obtain ⟨c, cs, hdigits, hc⟩ := Number.toDigits_cons n
  refine ⟨fun rest => ?_, fun d hd => ?_⟩
  · have hinteger := Number.integer_toDigits hn rest
    have hfloat := Number.float_toDigits n rest
    have hmoment := Moment.read_toDigits n rest
    rw [hdigits, List.cons_append] at hinteger hfloat hmoment ⊢
    -- a digit begins neither a text, a word, an array nor a table
    have hscalar : Value.readScalar (c :: (cs ++ '\n' :: rest)) =
        some (.integer n, '\n' :: rest) := by
      unfold Value.readScalar
      split
      · next heq => exact absurd heq (Digits.cons_ne_of_kind hc rfl)
      · next heq => exact absurd heq (Digits.cons_ne_of_kind hc rfl)
      · next heq => exact absurd heq (Digits.cons_ne_of_kind hc rfl)
      · next heq => exact absurd heq (Digits.cons_ne_of_kind hc rfl)
      · simp [hmoment, hfloat, hinteger]
    unfold Value.read
    split
    · next heq => exact absurd heq (Digits.cons_ne_of_kind hc rfl)
    · next heq => exact absurd heq (Digits.cons_ne_of_kind hc rfl)
    · exact hscalar
  · rw [hdigits] at hd
    obtain rfl : c = d := by simpa using hd
    have hspace : c ≠ ' ' := Digits.ne_of_kind hc rfl
    have htab : c ≠ '\t' := Digits.ne_of_kind hc rfl
    simp [Text.isSpace, hspace, htab]

/-- Two brackets denote the empty array. -/
theorem denotes_empty : Denotes ['[', ']'] (.array []) := by
  refine ⟨fun rest => ?_, fun d hd => ?_⟩
  · have hblank : ∀ fuel more, skipBlank fuel (']' :: more) = ']' :: more := by
      intro fuel more
      cases fuel <;> rfl
    have hread : ∀ readOne size, Value.readElements readOne (size + 1) (']' :: '\n' :: rest) =
        some ([], '\n' :: rest) := by
      intro readOne size
      rw [Value.readElements, hblank]
      rfl
    have hnested : ∀ size, Value.readNested (size + 1) (78 + 1) ('[' :: ']' :: '\n' :: rest) =
        some (.array [], '\n' :: rest) := by
      intro size
      rw [Value.readNested, hread]
      rfl
    exact hnested (rest.length + 2)
  · cases hd
    rfl

namespace Key

/-- A key that is written without quotes. -/
def IsBareKey (key : String) : Prop := key.toList ≠ [] ∧ ∀ c ∈ key.toList, isBare c = true

instance (key : String) : Decidable (IsBareKey key) :=
  decidable_of_iff (key.toList.isEmpty = false ∧ key.toList.all isBare = true)
    (by simp [IsBareKey])

/-- A key without quotes begins with a character that it may have. -/
theorem IsBareKey.first {key : String} (hkey : IsBareKey key) :
    ∃ c cs, key.toList = c :: cs ∧ isBare c = true := by
  obtain ⟨c, cs, hcons⟩ := List.exists_cons_of_ne_nil hkey.1
  exact ⟨c, cs, hcons, hkey.2 c (by rw [hcons]; exact List.mem_cons_self)⟩

/-- A key without quotes and dots is read up to what follows it. -/
theorem read_bare {key : String} (hkey : IsBareKey key) (rest : List Char)
    (hrest : ∀ c ∈ rest.head?, isBare c = false) (hdot : ∀ more, skipSpaces rest ≠ '.' :: more) :
    read (key.toList ++ rest) = some (([], key), skipSpaces rest) := by
  obtain ⟨c, cs, hcons, hc⟩ := hkey.first
  have htake : (key.toList ++ rest).takeWhile isBare = key.toList := by
    rw [List.takeWhile_append_of_pos hkey.2]
    cases rest with
    | nil => simp
    | cons d rest => simp [hrest d rfl]
  have hdrop : (key.toList ++ rest).dropWhile isBare = rest := by
    rw [List.dropWhile_append_of_pos hkey.2]
    cases rest with
    | nil => simp
    | cons d rest => simp [hrest d rfl]
  have hspaces : skipSpaces (key.toList ++ rest) = key.toList ++ rest := by
    have hspace : c ≠ ' ' := Digits.ne_of_kind hc rfl
    have htab : c ≠ '\t' := Digits.ne_of_kind hc rfl
    rw [hcons, List.cons_append, skipSpaces_cons (by simp [Text.isSpace, hspace, htab])]
  have hpart : part (key.toList ++ rest) = some (key, rest) := by
    unfold part
    split
    · next heq =>
      rw [hcons] at heq
      exact absurd heq (Digits.cons_ne_of_kind hc rfl)
    · next heq =>
      rw [hcons] at heq
      exact absurd heq (Digits.cons_ne_of_kind hc rfl)
    · simp [htake, hdrop, hkey.1]
  have hparts : parts (78 + 1) (key.toList ++ rest) = some ([key], skipSpaces rest) := by
    rw [parts, hspaces, hpart]
    simp only [Option.bind_eq_bind, Option.bind_some]
    rfl
  rw [read, limit, hparts]
  rfl

end Key

namespace Document

open Key (IsBareKey)

/-- A key with its value is read up to the end of its line. -/
theorem readLine_key {document : Document} {key : String} (hkey : IsBareKey key)
    {written : List Char} {value : Value} (hwritten : Denotes written value) {entries : Entries}
    (hset : document.entries.setUnder document.header [] key value = some entries)
    (rest : List Char) :
    document.readLine (key.toList ++ ' ' :: '=' :: ' ' :: (written ++ '\n' :: rest)) =
      some (⟨entries, document.header⟩, rest) := by
  obtain ⟨c, cs, hcons, hc⟩ := hkey.first
  have hread := Key.read_bare hkey (' ' :: '=' :: ' ' :: (written ++ '\n' :: rest))
    (by simp [Key.isBare]) (by simp [skipSpaces, Text.isSpace])
  have hspaces : skipSpaces (' ' :: (written ++ '\n' :: rest)) = written ++ '\n' :: rest := by
    have hfirst := hwritten.first
    cases written with
    | nil => rfl
    | cons d more => exact skipSpaces_cons (hfirst d rfl) (more ++ '\n' :: rest)
  have hvalue := hwritten.read rest
  rw [hcons, List.cons_append] at hread ⊢
  unfold readLine
  split
  · next heq => exact absurd heq (Digits.cons_ne_of_kind hc rfl)
  · next heq => exact absurd heq (Digits.cons_ne_of_kind hc rfl)
  · next heq => exact absurd heq (Digits.cons_ne_of_kind hc rfl)
  · have hend : lineEnd? (c :: (cs ++ ' ' :: '=' :: ' ' :: (written ++ '\n' :: rest))) = none := by
      unfold lineEnd?
      split
      · next heq => exact absurd heq (Digits.cons_ne_of_kind hc rfl)
      · next heq => exact absurd heq (Digits.cons_ne_of_kind hc rfl)
      · rfl
    have hmark : pass ['='] ('=' :: ' ' :: (written ++ '\n' :: rest)) =
        some (' ' :: (written ++ '\n' :: rest)) := rfl
    have hline : endLine ('\n' :: rest) = some rest := rfl
    have hequals : skipSpaces (' ' :: '=' :: ' ' :: (written ++ '\n' :: rest)) =
        '=' :: ' ' :: (written ++ '\n' :: rest) := rfl
    simp only [hend, hread, hequals, hmark, hspaces, hvalue, hline, hset, Option.bind_eq_bind,
      Option.bind_some]
    rfl

/-- A line that says nothing is passed. -/
theorem readLine_blank (document : Document) (rest : List Char) :
    document.readLine ('\n' :: rest) = some (document, rest) := rfl

/-- A header that tables share opens one more of them. -/
theorem readLine_element {document : Document} {key : String} (hkey : IsBareKey key)
    {entries : Entries} (hopen : document.entries.openElement [] key = some entries)
    (rest : List Char) :
    document.readLine ('[' :: '[' :: (key.toList ++ ']' :: ']' :: '\n' :: rest)) =
      some (⟨entries, [key]⟩, rest) := by
  have hread := Key.read_bare hkey (']' :: ']' :: '\n' :: rest) (by simp [Key.isBare])
    (by simp [skipSpaces, Text.isSpace])
  have hbrackets : skipSpaces (']' :: ']' :: '\n' :: rest) = ']' :: ']' :: '\n' :: rest := rfl
  have hmark : pass [']', ']'] (']' :: ']' :: '\n' :: rest) = some ('\n' :: rest) := rfl
  have hline : endLine ('\n' :: rest) = some rest := rfl
  rw [readLine]
  simp only [hread, hbrackets, hmark, hline, hopen, Option.bind_eq_bind, Option.bind_some]
  rfl

/-- A line that takes a document to another one, whatever follows it. -/
structure Reads (line : List Char) (before after : Document) : Prop where
  /-- The line does not begin with white space. -/
  first : ∃ c cs, line = c :: cs ∧ Text.isSpace c = false
  /-- The line is read, and what follows it is left. -/
  read : ∀ rest, before.readLine (line ++ rest) = some (after, rest)

/-- Lines that take a document to another one, one after the other. -/
inductive Lines : Document → List Char → Document → Prop
  | nil (document : Document) : Lines document [] document
  | cons {before middle after : Document} {line rest : List Char} :
    Reads line before middle → Lines middle rest after → Lines before (line ++ rest) after

/-- One line. -/
theorem Reads.lines {line : List Char} {before after : Document} (h : Reads line before after) :
    Lines before line after := by
  have hline := Lines.cons h (.nil after)
  rwa [List.append_nil] at hline

/-- Lines after others. -/
theorem Lines.append {before middle after : Document} {lines more : List Char}
    (h : Lines before lines middle) (hmore : Lines middle more after) :
    Lines before (lines ++ more) after := by
  induction h with
  | nil => exact hmore
  | cons hline _ ih =>
    rw [List.append_assoc]
    exact .cons hline (ih hmore)

/-- Lines are read with one unit of fuel for each of their characters, and one more. -/
theorem Lines.readLines {before after : Document} {lines : List Char}
    (h : Lines before lines after) {fuel : Nat} (hfuel : lines.length < fuel) :
    Document.readLines fuel before lines = some after := by
  induction h generalizing fuel with
  | nil document =>
    obtain ⟨fuel, rfl⟩ : ∃ less, fuel = less + 1 := ⟨fuel - 1, by omega⟩
    rfl
  | @cons before middle after line rest hline _ ih =>
    obtain ⟨less, rfl⟩ : ∃ less, fuel = less + 1 := ⟨fuel - 1, by omega⟩
    obtain ⟨⟨c, cs, rfl, hspace⟩, hread⟩ := hline
    simp only [List.length_append, List.length_cons] at hfuel
    have hrest : Document.readLines less middle rest = some after := ih (by omega)
    have hthis := hread rest
    rw [List.cons_append] at hthis ⊢
    rw [Document.readLines, skipSpaces_cons hspace]
    simp only [hthis, Option.bind_eq_bind, Option.bind_some, hrest]

/-- A line that gives a key a value sets it in the table of the last header. -/
theorem reads_key (document : Document) {key : String} (hkey : IsBareKey key)
    {written : List Char} {value : Value} (hwritten : Denotes written value) {entries : Entries}
    (hset : document.entries.setUnder document.header [] key value = some entries) :
    Reads (key.toList ++ ' ' :: '=' :: ' ' :: (written ++ ['\n'])) document
      ⟨entries, document.header⟩ := by
  obtain ⟨c, cs, hcons, hc⟩ := hkey.first
  have hspace : c ≠ ' ' := Digits.ne_of_kind hc rfl
  have htab : c ≠ '\t' := Digits.ne_of_kind hc rfl
  refine ⟨⟨c, _, by rw [hcons]; rfl, by simp [Text.isSpace, hspace, htab]⟩, fun rest => ?_⟩
  have hread := readLine_key hkey hwritten hset rest
  simpa using hread

/-- An empty line and a header that tables share open one more of them. -/
theorem lines_element (document : Document) {key : String} (hkey : IsBareKey key)
    {entries : Entries} (hopen : document.entries.openElement [] key = some entries) :
    Lines document ('\n' :: '[' :: '[' :: (key.toList ++ [']', ']', '\n'])) ⟨entries, [key]⟩ := by
  have hblank : Reads ['\n'] document document :=
    ⟨⟨'\n', [], rfl, rfl⟩, readLine_blank document⟩
  have hheader : Reads ('[' :: '[' :: (key.toList ++ [']', ']', '\n'])) document
      ⟨entries, [key]⟩ := by
    refine ⟨⟨'[', _, rfl, rfl⟩, fun rest => ?_⟩
    have hread := readLine_element hkey hopen rest
    simpa using hread
  exact .cons hblank hheader.lines

/-- A text whose lines end in some document is read as its keys and values. -/
theorem Lines.parse? {text : String} {after : Document} (h : Lines empty text.toList after)
    (hmark : text.toList.head? ≠ some '\uFEFF') : Document.parse? text = some after.entries := by
  have hwithout : withoutMark text.toList = text.toList := by
    unfold withoutMark
    split
    · next heq => exact absurd (by rw [heq]; rfl) hmark
    · rfl
  have hread := h.readLines (Nat.lt_succ_self text.toList.length)
  rw [Document.parse?, hwithout]
  simp only [hread, Option.map_some]

end Document

end FlameFold.Toml
