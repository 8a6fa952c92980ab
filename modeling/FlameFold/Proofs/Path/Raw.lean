import FlameFold.Path.Raw
import FlameFold.Proofs.Path.FileName
import FlameFold.Proofs.Text.Decoded

/-!
# Paths of bytes are cut as paths of text are

The bytes of a slash and of a dot are in no other character. So where a path of bytes is a text, it
is cut into the bytes of the pieces of the text, has the bytes of its stem, and is joined as the
text is.
-/

namespace FlameFold.Text

/-- A plain byte is only in the character with its number. -/
theorem eq_of_mem_encodeChar {c : Char} {b : UInt8} (hb : b.toNat < 0x80)
    (h : b ∈ String.utf8EncodeChar c) : c = Char.ofNat b.toNat := by
  have hc : Char.ofNat c.val.toNat = c := Char.ofNat_toNat c
  have hbyte : ∀ n, n < 128 → b ≠ UInt8.ofNat (n + 0x80) := by
    rintro n hn rfl
    rw [toNat_byte (by omega)] at hb
    exact absurd hb (by omega)
  unfold String.utf8EncodeChar at h
  generalize c.val.toNat = v at hc h
  dsimp only at h
  split_ifs at h with hone htwo hthree
  · rw [List.mem_singleton.mp h, toNat_byte (by omega), hc]
  -- all bytes of a longer character are beyond the plain ones
  all_goals
    simp only [List.mem_cons, List.not_mem_nil, or_false] at h
  · obtain h | h := h
    · exact absurd h (hbyte (v / 64 % 32 + 0x40) (by omega))
    · exact absurd h (hbyte _ (by omega))
  · obtain h | h | h := h
    · exact absurd h (hbyte (v / 4096 % 16 + 0x60) (by omega))
    · exact absurd h (hbyte _ (by omega))
    · exact absurd h (hbyte _ (by omega))
  · obtain h | h | h | h := h
    · exact absurd h (hbyte (v / 262144 % 8 + 0x70) (by omega))
    · exact absurd h (hbyte _ (by omega))
    · exact absurd h (hbyte _ (by omega))
    · exact absurd h (hbyte _ (by omega))

/-- Where a plain byte stands among the bytes of a text, the text has its character there, with the
bytes before it and after it on its two sides. -/
theorem exists_of_plain_byte {text : List Char} {before after : List UInt8} {b : UInt8}
    (hb : b.toNat < 0x80) (h : text.flatMap String.utf8EncodeChar = before ++ b :: after) :
    ∃ earlier later, text = earlier ++ Char.ofNat b.toNat :: later ∧
      before = earlier.flatMap String.utf8EncodeChar := by
  induction text generalizing before with
  | nil => simp at h
  | cons c rest ih =>
    rw [List.flatMap_cons] at h
    obtain ⟨more, rfl, hrest⟩ | ⟨cut, hc, hcut⟩ := List.append_eq_append_iff.mp h
    · obtain ⟨earlier, later, rfl, hearlier⟩ := ih hrest
      exact ⟨c :: earlier, later, rfl, by rw [List.flatMap_cons, hearlier]⟩
    · cases cut with
      | nil =>
        have hrest : rest.flatMap String.utf8EncodeChar = [] ++ b :: after := hcut.symm
        obtain ⟨earlier, later, rfl, hearlier⟩ := ih hrest
        refine ⟨c :: earlier, later, rfl, ?_⟩
        rw [List.flatMap_cons, ← hearlier, hc, List.append_nil, List.append_nil]
      | cons first more =>
        obtain ⟨rfl, -⟩ := List.cons.inj hcut
        -- the byte is a plain character by itself
        obtain rfl := eq_of_mem_encodeChar hb (by rw [hc]; simp)
        rw [encodeChar_one hb] at hc
        obtain ⟨rfl, -⟩ | ⟨-, hmore⟩ := List.append_eq_singleton_iff.mp hc.symm
        · exact ⟨[], rest, rfl, rfl⟩
        · cases hmore

/-- A spelling of characters keeps one that it leaves as it is and uses for no other. -/
structure Keeps (spelling : Char → List Char) (plain : Char) : Prop where
  /-- The character is spelled as itself. -/
  same : spelling plain = [plain]
  /-- It is in the spelling of no other one. -/
  free : ∀ c, c ≠ plain → plain ∉ spelling c

variable {spelling : Char → List Char} {plain : Char}

/-- What has no separator is added to the first of the pieces that follow. -/
theorem splitOn_append_of_notMem {before : List Char} (h : plain ∉ before) (text : List Char) :
    (before ++ text).splitOn plain = (text.splitOn plain).modifyHead (before ++ ·) := by
  induction before with
  | nil =>
    obtain ⟨first, more, hs⟩ := List.exists_cons_of_ne_nil (List.splitOn_ne_nil plain text)
    simp [hs]
  | cons c rest ih =>
    obtain ⟨hc, hrest⟩ := not_or.mp (List.mem_cons.not.mp h)
    rw [List.cons_append, List.splitOn_cons_eq_if_modifyHead, if_neg (by simpa using Ne.symm hc),
      ih hrest, List.modifyHead_modifyHead]
    rfl

/-- A text that is spelled out is cut at a character that the spelling keeps as the text is. -/
theorem Keeps.splitOn (h : Keeps spelling plain) (text : List Char) :
    (text.flatMap spelling).splitOn plain =
      (text.splitOn plain).map fun piece => piece.flatMap spelling := by
  induction text with
  | nil => simp
  | cons c rest ih =>
    rw [List.flatMap_cons, List.splitOn_cons_eq_if_modifyHead]
    split_ifs with hc
    · rw [beq_iff_eq.mp hc, h.same, List.singleton_append, List.splitOn_cons_eq_if_modifyHead,
        if_pos (beq_self_eq_true plain), ih]
      rfl
    · rw [splitOn_append_of_notMem (h.free c (by simpa using hc)), ih]
      obtain ⟨first, more, hs⟩ := List.exists_cons_of_ne_nil (List.splitOn_ne_nil plain rest)
      simp [hs]

/-- A character that the spelling keeps is in the text that is spelled out if it is in the text. -/
theorem Keeps.mem_flatMap (h : Keeps spelling plain) {text : List Char} :
    plain ∈ text.flatMap spelling ↔ plain ∈ text := by
  refine ⟨fun hmem => ?_, fun hmem => ?_⟩
  · obtain ⟨c, hc, hplain⟩ := List.mem_flatMap.mp hmem
    by_contra hnot
    exact h.free c (ne_of_mem_of_not_mem hc hnot) hplain
  · exact List.mem_flatMap.mpr ⟨plain, hmem, by simp [h.same]⟩

end FlameFold.Text

namespace FlameFold.Path

variable {spelling : Char → List Char}

/-- A name that is spelled out is cut as the name is, by a spelling that keeps the dot. -/
theorem cutName_flatMap (h : Text.Keeps spelling '.') (hne : ∀ c, spelling c ≠ [])
    (name : List Char) :
    (cutName (name.flatMap spelling)).1 = (cutName name).1.flatMap spelling := by
  obtain ⟨hdot, hwhole⟩ | ⟨stem, extension, hstem, hext, rfl, hcut⟩ := cutName_cases name
  · rw [hwhole, cutName_whole]
    cases name with
    | nil => exact List.not_mem_nil
    | cons c rest =>
      have hrest : '.' ∉ rest.flatMap spelling := h.mem_flatMap.not.mpr hdot
      by_cases hc : c = '.'
      · simpa [hc, h.same] using hrest
      · rw [List.flatMap_cons, List.tail_append_of_ne_nil (hne c), List.mem_append]
        exact fun hmem => hmem.elim (fun hc' => h.free c hc (List.mem_of_mem_tail hc')) hrest
  · have hstem' : stem.flatMap spelling ≠ [] := by
      obtain ⟨c, rest, rfl⟩ := List.exists_cons_of_ne_nil hstem
      simp [hne c]
    rw [hcut, List.flatMap_append, List.flatMap_cons, h.same, List.singleton_append,
      cutName_dotted hstem' (h.mem_flatMap.not.mpr hext)]

end FlameFold.Path

namespace FlameFold.RawPath

/-- A character of a text with a character for each of its bytes. -/
def spelling (c : Char) : List Char := (String.utf8EncodeChar c).map glyph

theorem toNat_glyph (b : UInt8) : (glyph b).toNat = b.toNat :=
  Text.toNat_ofNat (.inl (Nat.lt_trans b.toNat_lt (by decide)))

/-- A byte is had back from its character. -/
theorem byte_glyph (b : UInt8) : byte (glyph b) = b := by
  rw [byte, toNat_glyph, UInt8.ofNat_toNat]

theorem glyph_injective : Function.Injective glyph :=
  Function.LeftInverse.injective byte_glyph

theorem map_byte_glyph (bytes : List UInt8) : (bytes.map glyph).map byte = bytes := by
  simp [Function.comp_def, byte_glyph]

/-- A plain character is spelled as itself, and in no other one. -/
theorem spelling_keeps {n : Nat} (hn : n < 0x80) : Text.Keeps spelling (Char.ofNat n) where
  same := by
    rw [spelling, Text.encodeChar_one hn, List.map_singleton, glyph, Text.toNat_byte (by omega)]
  free c hc hmem := by
    obtain ⟨b, hb, hglyph⟩ := List.mem_map.mp hmem
    have hnumber : b.toNat = n := by
      have htoNat := congrArg Char.toNat hglyph
      rwa [toNat_glyph, show (Char.ofNat n).toNat = n from Text.toNat_ofNat (.inl (by omega))]
        at htoNat
    exact hc (hnumber ▸ Text.eq_of_mem_encodeChar (by omega) hb)

theorem slash_kept : Text.Keeps spelling '/' := spelling_keeps (n := 0x2F) (by decide)

theorem dot_kept : Text.Keeps spelling '.' := spelling_keeps (n := 0x2E) (by decide)

/-- A text that is spelled out has a character for each of its bytes. -/
theorem flatMap_spelling (text : List Char) :
    text.flatMap spelling = (text.flatMap String.utf8EncodeChar).map glyph := by
  rw [List.map_flatMap]
  rfl

/-- A text that is spelled out says which text it is. -/
theorem flatMap_spelling_inj {text other : List Char} :
    text.flatMap spelling = other.flatMap spelling ↔ text = other := by
  refine ⟨fun h => ?_, fun h => by rw [h]⟩
  rw [flatMap_spelling, flatMap_spelling] at h
  exact Text.encoded_injective (List.map_injective_iff.mpr glyph_injective h)

theorem spelling_ne_nil (c : Char) : spelling c ≠ [] := by
  intro h
  have hnil : [c].flatMap spelling = [].flatMap spelling := by simp [h]
  exact List.cons_ne_nil c [] (flatMap_spelling_inj.mp hnil)

/-- The bytes of a piece that is spelled out. -/
theorem map_byte_spelling (text : List Char) :
    (text.flatMap spelling).map byte = text.flatMap String.utf8EncodeChar := by
  rw [flatMap_spelling, map_byte_glyph]

section Text

variable (text : String)

/-- The path of a text has a character for each byte of the text. -/
theorem spelled_ofText :
    (ofText text).spelled = ⟨String.ofList (text.toList.flatMap spelling)⟩ := by
  rw [flatMap_spelling]
  rfl

/-- The path of a text is cut where the text is. -/
theorem pieces_ofText : (ofText text).spelled.pieces =
    (Path.mk text).pieces.map fun piece => piece.flatMap spelling := by
  rw [spelled_ofText, Path.pieces, String.toList_ofList, slash_kept.splitOn]
  rfl

/-- The path of a text lists the names that the text does. -/
theorem names_ofText : (ofText text).names = FileSystem.names ⟨text⟩ := by
  rw [names, pieces_ofText, List.map_map, FileSystem.names]
  congr 1
  funext piece
  exact map_byte_spelling piece

/-- A piece that is spelled out says something exactly if the piece does. -/
theorem isIdle_spelling (piece : List Char) :
    Path.isIdle (piece.flatMap spelling) = Path.isIdle piece := by
  have hnil : piece.flatMap spelling = [] ↔ piece = [] := @flatMap_spelling_inj piece []
  have hhere : piece.flatMap spelling = Path.here ↔ piece = Path.here :=
    @flatMap_spelling_inj piece Path.here
  rw [Path.isIdle, Path.isIdle, Bool.eq_iff_iff]
  simp [hnil, hhere]

/-- The file name of a text, byte for byte. -/
theorem spelled_fileName?_ofText : (ofText text).spelled.fileName? =
    (Path.mk text).fileName?.map fun name => name.flatMap spelling := by
  have hidle : Path.isIdle ∘ (fun piece : List Char => piece.flatMap spelling) = Path.isIdle :=
    funext isIdle_spelling
  have habove : ((· != Path.above) ∘ fun piece : List Char => piece.flatMap spelling) =
      (· != Path.above) := by
    funext piece
    have hsame : piece.flatMap spelling = Path.above ↔ piece = Path.above :=
      @flatMap_spelling_inj piece Path.above
    simp [bne, Bool.beq_eq_decide_eq, hsame]
  rw [Path.fileName?, Path.lastPiece?, pieces_ofText, ← List.map_reverse, List.dropWhile_map, hidle,
    List.head?_map, Option.filter_map, habove]
  rfl

/-- The stem of a text has the bytes of its stem. -/
theorem fileStem?_ofText :
    (ofText text).fileStem? = (Path.mk text).fileStem?.map Text.encode := by
  rw [fileStem?, Path.fileStem?, spelled_fileName?_ofText, Path.fileStem?, Option.map_map,
    Option.map_map, Option.map_map]
  congr 1
  funext name
  simp only [Function.comp_apply, String.toList_ofList,
    Path.cutName_flatMap dot_kept spelling_ne_nil, map_byte_spelling, Text.encode]

/-- The path of a text starts where the text does. -/
theorem isAbsolute_ofText : (ofText text).spelled.isAbsolute = (Path.mk text).isAbsolute := by
  rw [Path.isAbsolute, Path.isAbsolute, spelled_ofText, String.toList_ofList]
  cases text.toList with
  | nil => rfl
  | cons c rest =>
    by_cases hc : c = '/'
    · simp [hc, slash_kept.same]
    · obtain ⟨first, more, hs⟩ := List.exists_cons_of_ne_nil (spelling_ne_nil c)
      have hfirst : first ≠ '/' := fun he =>
        slash_kept.free c hc (by rw [hs, he]; exact List.mem_cons_self)
      simp [hs, hc, hfirst]

end Text

/-- A text ends in a slash exactly if it does so spelled out. -/
theorem getLast?_spelling (text : List Char) :
    (text.flatMap spelling).getLast? = some '/' ↔ text.getLast? = some '/' := by
  obtain rfl | ⟨most, c, rfl⟩ := text.eq_nil_or_concat'
  · simp
  · rw [List.flatMap_append, List.flatMap_singleton,
      List.getLast?_append_of_ne_nil _ (spelling_ne_nil c), List.getLast?_concat]
    by_cases hc : c = '/'
    · simp [hc, slash_kept.same]
    · refine iff_of_false (fun hlast => ?_) (by simpa using hc)
      exact slash_kept.free c hc (List.mem_of_getLast? hlast)

/-- Texts that are glued are spelled out one after the other. -/
theorem glue_spelling (left right : List Char) :
    Path.glue (left.flatMap spelling) (right.flatMap spelling) =
      (Path.glue left right).flatMap spelling := by
  have hnil : left.flatMap spelling = [] ↔ left = [] := @flatMap_spelling_inj left []
  simp only [Path.glue, hnil, getLast?_spelling]
  split
  · rw [List.flatMap_append]
  · rw [List.flatMap_append, List.flatMap_cons, slash_kept.same, List.singleton_append]

/-- A path whose text is spelled out has the bytes of the text. -/
theorem ofSpelled_spelling {p : Path} {text : String}
    (h : p.text.toList = text.toList.flatMap spelling) : ofSpelled p = ofText text := by
  rw [ofSpelled, h, map_byte_spelling]
  rfl

/-- Texts that are joined as paths of bytes are joined as texts. -/
theorem join_ofText (left right : String) :
    (ofText left).join (ofText right) = ofText ((Path.mk left).join ⟨right⟩).text := by
  apply ofSpelled_spelling
  by_cases habsolute : (Path.mk right).isAbsolute = true
  · rw [Path.join, if_pos (by rw [isAbsolute_ofText, habsolute]), Path.join, if_pos habsolute,
      spelled_ofText, String.toList_ofList]
  · have hrelative : (Path.mk right).isAbsolute = false := by simpa using habsolute
    rw [Path.join_text_relative (by rw [isAbsolute_ofText, hrelative]),
      Path.join_text_relative hrelative, spelled_ofText, spelled_ofText, String.toList_ofList,
      String.toList_ofList, glue_spelling]

/-- All characters of a path of bytes are bytes. -/
theorem toNat_lt_of_mem_spelled {p : RawPath} {c : Char} (h : c ∈ p.spelled.text.toList) :
    c.toNat < 256 := by
  rw [spelled, String.toList_ofList] at h
  obtain ⟨b, -, rfl⟩ := List.mem_map.mp h
  rw [toNat_glyph]
  exact b.toNat_lt

/-- A path whose characters are bytes is had back from these. -/
theorem spelled_ofSpelled {p : Path} (h : ∀ c ∈ p.text.toList, c.toNat < 256) :
    (ofSpelled p).spelled = p := by
  have hsame : ∀ c ∈ p.text.toList, (glyph ∘ byte) c = id c := by
    intro c hc
    rw [Function.comp_apply, glyph, byte, Text.toNat_byte (h c hc), Char.ofNat_toNat, id]
  rw [spelled, ofSpelled, List.map_map, List.map_congr_left hsame, List.map_id,
    String.ofList_toList]

/-- A joined path has a character for each byte. -/
theorem spelled_join (left right : RawPath) :
    (left.join right).spelled = left.spelled.join right.spelled := by
  refine spelled_ofSpelled fun c hc => ?_
  by_cases habsolute : right.spelled.isAbsolute = true
  · rw [Path.join, if_pos habsolute] at hc
    exact toNat_lt_of_mem_spelled hc
  · rw [Path.join_text_relative (by simpa using habsolute), Path.glue] at hc
    split at hc
    · exact (List.mem_append.mp hc).elim toNat_lt_of_mem_spelled toNat_lt_of_mem_spelled
    · obtain hleft | hslash | hright := (List.mem_append.trans (or_congr_right List.mem_cons)).mp hc
      · exact toNat_lt_of_mem_spelled hleft
      · rw [hslash]
        decide
      · exact toNat_lt_of_mem_spelled hright

/-- What a plain file can be called: bytes without a slash that say something. -/
structure IsName (name : Name) : Prop where
  /-- It is one piece of a path. -/
  whole : 0x2F ∉ name
  /-- It is not left out of a path. -/
  notIdle : ¬(name = [] ∨ name = FileSystem.dot)
  /-- It is not the directory above. -/
  notAbove : name ≠ FileSystem.dots

variable {name other : Name}

/-- A plain name is one with a character for each byte. -/
theorem IsName.spelled (h : IsName name) : Path.IsName (name.map glyph) where
  whole hmem := by
    obtain ⟨b, hb, hslash⟩ := List.mem_map.mp hmem
    have hbyte : b = 0x2F := glyph_injective hslash
    exact h.whole (hbyte ▸ hb)
  notIdle := by
    have hnil : name.map glyph ≠ [] := fun hn => h.notIdle (.inl (List.map_eq_nil_iff.mp hn))
    have hdot : name.map glyph ≠ Path.here := fun hd =>
      h.notIdle (.inr (List.map_injective_iff.mpr glyph_injective hd))
    rw [Path.isIdle, beq_false_of_ne hnil, beq_false_of_ne hdot]
    rfl
  notAbove hup := h.notAbove (List.map_injective_iff.mpr glyph_injective hup)

/-- The bytes of a plain name are a plain name. -/
theorem isName_encode {text : List Char} (h : Path.IsName text) :
    IsName (text.flatMap String.utf8EncodeChar) where
  whole hmem := by
    obtain ⟨c, hc, hslash⟩ := List.mem_flatMap.mp hmem
    rw [Text.eq_of_mem_encodeChar (by decide) hslash] at hc
    exact h.whole hc
  notIdle := h.own.1
  notAbove := h.own.2

/-- Joining keeps the file name. -/
theorem fileName?_join (h : IsName name) (directory : RawPath) :
    (directory.join ⟨name⟩).fileName? = some name := by
  have hname : (directory.join ⟨name⟩).spelled.fileName? = some (name.map glyph) := by
    rw [spelled_join]
    exact Path.fileName?_join h.spelled.fileName? directory.spelled
  rw [fileName?, hname, Option.map_some, map_byte_glyph]

/-- Names joined to the same directory make different paths. -/
theorem join_inj (h : IsName name) (hother : IsName other) (directory : RawPath) :
    directory.join ⟨name⟩ = directory.join ⟨other⟩ ↔ name = other := by
  refine ⟨fun hsame => ?_, fun hsame => by rw [hsame]⟩
  have hname := fileName?_join h directory
  rw [hsame, fileName?_join hother] at hname
  exact (Option.some.inj hname).symm

end FlameFold.RawPath
