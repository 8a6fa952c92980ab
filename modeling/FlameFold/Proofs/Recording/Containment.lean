import FlameFold.Proofs.Output.Listing
import FlameFold.Proofs.Path.Raw
import FlameFold.Proofs.Text.Damage
import FlameFold.Recording.Raw

/-!
# The files of a recording lie in the output directory

The path of a recording may have any number of directories, dots and slashes, need not have a file
name, and need not be a text. Its two files are names in the output directory all the same. What is
no text in a stem is replaced before a file is named by it, which adds no slash. But stems that
differ only in what is replaced name the same files; stems that are texts do so only if they are
the same.
-/

namespace FlameFold.RawPath

/-- The path is a plain name in the directory. Whatever it leads to stands by this name in the
place that the names of the directory lead to. -/
structure LiesIn (directory p : RawPath) (name : Name) : Prop where
  /-- The name has no slash, says something, and is not the directory above. -/
  plain : IsName name
  /-- The path is the name joined to the directory. -/
  joined : p = directory.join ⟨name⟩
  /-- The name is the file name of the path. -/
  named : p.fileName? = some name
  /-- What the path leads to stands by the name in the directory. -/
  leads : ∀ (fs : FileSystem) place, fs.walk (p.start fs) p.names = .ok place →
    ∃ above, place = name :: above ∧
      fs.walk (directory.start fs) directory.names = .ok above ∧
      fs.node? above = some .directory

/-- Where a name joined to a directory leads, the names of the directory lead to the one above. -/
theorem walk_of_join {name : Name} {directory : RawPath} {fs : FileSystem} {place : Location}
    (h : IsName name) (hw : fs.walk ((directory.join ⟨name⟩).start fs)
      (directory.join ⟨name⟩).names = .ok place) :
    ∃ above, place = name :: above ∧
      fs.walk (directory.start fs) directory.names = .ok above ∧
      fs.node? above = some .directory := by
  have hwhole := h.spelled.whole
  have hjoin : (directory.join ⟨name⟩).spelled =
      directory.spelled.join ⟨String.ofList (name.map glyph)⟩ := spelled_join directory ⟨name⟩
  have hstart : (directory.join ⟨name⟩).start fs = directory.start fs := by
    rw [start, hjoin]
    exact Path.start_join fs hwhole directory.spelled
  obtain ⟨base, hglue, hbase⟩ := Path.splitOn_glue hwhole directory.spelled.text.toList
  rw [hstart, names, hjoin, Path.pieces, Path.join_text_whole hwhole, hglue, List.map_append,
    List.map_singleton, map_byte_glyph] at hw
  obtain ⟨above, habove, hs⟩ := FileSystem.walk_concat hw
  obtain ⟨hn, ⟨hidle, -⟩ | ⟨hup, -⟩ | ⟨-, -, -, -, rfl⟩⟩ := FileSystem.step_cases hs
  · exact absurd hidle h.notIdle
  · exact absurd hup h.notAbove
  · refine ⟨above, rfl, ?_, hn⟩
    rw [names, Path.pieces]
    -- a slash at the end of the directory leaves one empty name after the others
    obtain hb | hb := hbase
    · rw [hb, habove]
    · rw [hb, List.map_append, FileSystem.walk_append _ habove]
      exact FileSystem.walk_empty hn (by simp)

/-- A name that is joined to a directory lies in it. -/
theorem IsName.liesIn {name : Name} (h : IsName name) (directory : RawPath) :
    LiesIn directory (directory.join ⟨name⟩) name where
  plain := h
  joined := rfl
  named := fileName?_join h directory
  leads _ _ hw := walk_of_join h hw

/-- The stem of a path; nothing where there is none. -/
def stem (p : RawPath) : Name := p.fileStem?.getD []

/-- The text that the files of a recording are named by. -/
def title (p : RawPath) : String := Text.decodeLossy p.stem

/-- A file name is its stem, or its stem with a dot and an extension. -/
theorem fileName?_stem {p : RawPath} {name : Name} (h : p.fileName? = some name) :
    name = p.stem ∨ ∃ extension, name = p.stem ++ 0x2E :: extension := by
  obtain ⟨chars, hchars, rfl⟩ := Option.map_eq_some_iff.mp h
  have hstem : p.stem = (Path.cutName chars).1.map byte := by
    rw [stem, fileStem?, Path.fileStem?, hchars]
    simp
  rw [hstem]
  obtain ⟨-, hwhole⟩ | ⟨before, extension, -, -, rfl, hcut⟩ := Path.cutName_cases chars
  · exact .inl (by rw [hwhole])
  · refine .inr ⟨extension.map byte, ?_⟩
    rw [hcut, List.map_append, List.map_cons]
    rfl

/-- The stem has no slash. -/
theorem stem_notMem (p : RawPath) : 0x2F ∉ p.stem := by
  have hstem : p.stem = p.spelled.stem.toList.map byte := by
    rw [stem, fileStem?, Path.stem]
    cases p.spelled.fileStem? <;> rfl
  rw [hstem]
  intro hmem
  obtain ⟨c, hc, hslash⟩ := List.mem_map.mp hmem
  have hnumber := congrArg UInt8.toNat hslash
  rw [byte, Text.toNat_byte (toNat_lt_of_mem_spelled (p.spelled.stem_subset hc))] at hnumber
  have hchar : c = '/' := by rw [← Char.ofNat_toNat c, hnumber]; rfl
  exact p.spelled.stem_notMem (hchar ▸ hc)

/-- A title with a long ending is a plain name. -/
theorem isName_title (p : RawPath) {ending : String} (hslash : '/' ∉ ending.toList)
    (hlong : 2 < ending.toList.length) : IsName (Text.encode (p.title ++ ending)) := by
  apply isName_encode
  rw [String.toList_append]
  refine Path.isName_of_long (fun h => ?_) ?_
  · have hstem : '/' ∉ p.title.toList :=
      Text.plain_notMem_decodeLossy (by decide) (by decide) p.stem_notMem
    exact (List.mem_append.mp h).elim hstem hslash
  · rw [List.length_append]
    exact Nat.lt_add_left _ hlong

/-- No file is called by its title with an ending that says something and begins with no dot. -/
theorem fileName?_ne_title (p : RawPath) {ending : String} (hnonempty : ending.toList ≠ [])
    (hdot : ending.toList.head? ≠ some '.') :
    p.fileName? ≠ some (Text.encode (p.title ++ ending)) := by
  intro hname
  obtain hwhole | ⟨extension, hextension⟩ := fileName?_stem hname
  · have htitle : p.title = p.title ++ ending := by
      have hread := Text.decodeLossy_encode (p.title ++ ending)
      rwa [hwhole] at hread
    have hchars := congrArg String.toList htitle
    rw [String.toList_append] at hchars
    exact hnonempty (List.self_eq_append_right.mp hchars)
  · rw [Text.encode, String.toList_append] at hextension
    obtain ⟨earlier, later, htext, hstem⟩ :=
      Text.exists_of_plain_byte (by decide) hextension
    have htitle : p.title.toList = earlier := by
      have hencode : p.stem = Text.encode (String.ofList earlier) := by
        rw [Text.encode, String.toList_ofList, hstem]
      rw [title, hencode, Text.decodeLossy_encode, String.toList_ofList]
    rw [htitle] at htext
    have hending := List.append_cancel_left htext
    exact hdot (by rw [hending]; rfl)

end FlameFold.RawPath

namespace FlameFold.Recording.RawArtifacts

variable (directory path other : RawPath)

theorem collapsed_isName (p : RawPath) :
    RawPath.IsName (Text.encode (p.title ++ collapsedEnding)) :=
  p.isName_title (by decide) (by decide)

theorem graphic_isName (p : RawPath) :
    RawPath.IsName (Text.encode (p.title ++ graphicEnding)) :=
  p.isName_title (by decide) (by decide)

/-- The text that the two files are named by is the one of the stem. -/
theorem title_eq (p : RawPath) : (p.fileStem?.map Text.decodeLossy).getD "" = p.title := by
  rw [RawPath.title, RawPath.stem]
  cases p.fileStem? <;> rfl

/-- The file of collapsed stacks is a name joined to the output directory. -/
theorem collapsed_eq : (RawArtifacts.of directory path).collapsed =
    directory.join ⟨Text.encode (path.title ++ collapsedEnding)⟩ := by
  rw [RawArtifacts.of, title_eq]
  rfl

/-- The flame graph is a name joined to the output directory. -/
theorem graphic_eq : (RawArtifacts.of directory path).graphic =
    directory.join ⟨Text.encode (path.title ++ graphicEnding)⟩ := by
  rw [RawArtifacts.of, title_eq]
  rfl

/-- The files of collapsed stacks of two recordings are the same exactly if their titles are. -/
theorem collapsed_eq_iff : (RawArtifacts.of directory path).collapsed =
    (RawArtifacts.of directory other).collapsed ↔ path.title = other.title := by
  rw [collapsed_eq, collapsed_eq,
    RawPath.join_inj (collapsed_isName path) (collapsed_isName other)]
  exact fileName_inj

/-- The flame graphs of two recordings are the same exactly if their titles are. -/
theorem graphic_eq_iff : (RawArtifacts.of directory path).graphic =
    (RawArtifacts.of directory other).graphic ↔ path.title = other.title := by
  rw [graphic_eq, graphic_eq,
    RawPath.join_inj (graphic_isName path) (graphic_isName other)]
  exact fileName_inj

/-- No file of collapsed stacks is also a flame graph. -/
theorem collapsed_ne : (RawArtifacts.of directory path).collapsed ≠
    (RawArtifacts.of directory other).graphic := by
  rw [collapsed_eq, graphic_eq]
  intro hsame
  exact fileName_ne path.title other.title
    ((RawPath.join_inj (collapsed_isName path) (graphic_isName other) directory).mp hsame)

/-- Two recordings have the same files exactly if their titles are the same. -/
theorem eq_iff : RawArtifacts.of directory path = RawArtifacts.of directory other ↔
    path.title = other.title := by
  refine ⟨fun hsame => ?_, fun htitle => ?_⟩
  · exact (collapsed_eq_iff directory path other).mp (congrArg RawArtifacts.collapsed hsame)
  · rw [RawArtifacts.of, RawArtifacts.of, title_eq, title_eq, htitle]

/-- Both files of a recording are plain names in the output directory, whatever bytes the paths
have, and wherever their paths lead, it is to these names in that directory. No file of collapsed
stacks is a flame graph, and neither name is the one of the recording itself. Two recordings have
the same files exactly if their stems are read as the same text, where having no stem counts as the
empty one; otherwise they have neither file in common. So stems that are texts name the same files
exactly if they are the same. -/
theorem contained :
    RawPath.LiesIn directory (RawArtifacts.of directory path).collapsed
        (Text.encode (path.title ++ collapsedEnding)) ∧
      RawPath.LiesIn directory (RawArtifacts.of directory path).graphic
        (Text.encode (path.title ++ graphicEnding)) ∧
      (RawArtifacts.of directory path).collapsed ≠ (RawArtifacts.of directory other).graphic ∧
      path.fileName? ≠ some (Text.encode (path.title ++ collapsedEnding)) ∧
      path.fileName? ≠ some (Text.encode (path.title ++ graphicEnding)) ∧
      (RawArtifacts.of directory path = RawArtifacts.of directory other ↔
        path.title = other.title) ∧
      (path.title ≠ other.title →
        (RawArtifacts.of directory path).collapsed ≠ (RawArtifacts.of directory other).collapsed ∧
          (RawArtifacts.of directory path).graphic ≠
            (RawArtifacts.of directory other).graphic) ∧
      (∀ text otherText, path.stem = Text.encode text → other.stem = Text.encode otherText →
        (RawArtifacts.of directory path = RawArtifacts.of directory other ↔
          path.stem = other.stem)) := by
  refine ⟨?_, ?_, collapsed_ne directory path other,
    path.fileName?_ne_title (by decide) (by decide),
    path.fileName?_ne_title (by decide) (by decide), eq_iff directory path other,
    fun htitle => ⟨?_, ?_⟩, fun text otherText hstem hother => ?_⟩
  · rw [collapsed_eq]
    exact (collapsed_isName path).liesIn directory
  · rw [graphic_eq]
    exact (graphic_isName path).liesIn directory
  · exact fun hsame => htitle ((collapsed_eq_iff directory path other).mp hsame)
  · exact fun hsame => htitle ((graphic_eq_iff directory path other).mp hsame)
  · rw [eq_iff, RawPath.title, RawPath.title, hstem, hother, Text.decodeLossy_encode,
      Text.decodeLossy_encode]
    exact ⟨fun htext => by rw [htext], fun hbytes =>
      Option.some.inj (by rw [← Text.decode?_encode, hbytes, Text.decode?_encode])⟩

/-- The stem `a` followed by a byte that is in no text, and `a` followed by the character that
replaces it, are different stems of recordings with the same files. -/
theorem replaced_stem_shared :
    let damaged : RawPath := ⟨[0x61, 0xFF, 0x2E, 0x6A, 0x66, 0x72]⟩
    let replaced := RawPath.ofText "a\uFFFD.jfr"
    damaged.fileStem? ≠ replaced.fileStem? ∧
      RawArtifacts.of (.ofText "out") damaged = RawArtifacts.of (.ofText "out") replaced := by
  decide +kernel

/-- The files of a recording whose path is a text are the same whether it is taken as a text or
as its bytes. -/
theorem of_ofText (directory path : Path) :
    RawArtifacts.of (.ofText directory.text) (.ofText path.text) =
      { collapsed := .ofText (Artifacts.of directory path).collapsed.text
        graphic := .ofText (Artifacts.of directory path).graphic.text } := by
  have hstem : ((RawPath.ofText path.text).fileStem?.map Text.decodeLossy).getD "" =
      path.fileStem?.getD "" := by
    rw [RawPath.fileStem?_ofText, Option.map_map]
    cases path.fileStem? with
    | none => rfl
    | some stem => exact Text.decodeLossy_encode stem
  rw [RawArtifacts.of, hstem, RawPath.join_ofText, RawPath.join_ofText]
  rfl

end FlameFold.Recording.RawArtifacts
