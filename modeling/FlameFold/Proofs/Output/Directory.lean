import FlameFold.Proofs.Output.Standing
import FlameFold.Proofs.Path.Order
import FlameFold.Proofs.Text.Decoded
import Mathlib.Data.List.Nodup

/-!
# The flame graphs of a directory

The names in a directory are entered in any order, each of them once and none of them with a
slash or a zero. The flame graphs are listed in the order of the bytes of their names, which is
that of their whole paths, so the order of the entries does not show. Every plain file with the
name of a flame graph is listed, unless its path has too many bytes for anything to be found
there.
-/

namespace FlameFold.FileSystem

variable {fs : FileSystem} {place : Location} {p : Path}

/-- What is entered in a directory has names that differ, and each of them can be one. -/
structure Orderly (fs : FileSystem) (place : Location) : Prop where
  /-- No two names are the same. -/
  distinct : ((fs.entries place).map Prod.fst).Nodup
  /-- No name has a slash. -/
  slash : ∀ entry ∈ fs.entries place, 0x2F ∉ entry.1
  /-- No name has a zero. -/
  zero : ∀ entry ∈ fs.entries place, 0 ∉ entry.1
  /-- No name is too long. -/
  short : ∀ entry ∈ fs.entries place, entry.1.length ≤ nameLimit

/-- What is entered in a directory is entered at its name in there. -/
theorem mem_entries_iff {name : Name} {node : Node} :
    (name, node) ∈ fs.entries place ↔ (name :: place, node) ∈ fs.nodes := by
  rw [entries, List.mem_filterMap]
  constructor
  · rintro ⟨⟨location, found⟩, hmem, hentry⟩
    cases location with
    | nil => simp at hentry
    | cons first above =>
      obtain ⟨rfl, rfl, rfl⟩ : above = place ∧ first = name ∧ found = node := by
        simpa [and_assoc] using hentry
      exact hmem
  · exact fun hmem => ⟨_, hmem, by simp⟩

/-- Where the names differ, what is entered in a directory stands at its name. -/
theorem Orderly.node? (h : fs.Orderly place) {name : Name} {node : Node}
    (hentry : (name, node) ∈ fs.entries place) : fs.node? (name :: place) = some node := by
  cases hn : fs.node? (name :: place) with
  | none =>
    rw [FileSystem.node?, if_neg (List.cons_ne_nil _ _), List.lookup_eq_none_iff] at hn
    have hne := hn _ (mem_entries_iff.mp hentry)
    simp at hne
  | some found =>
    have heq := List.inj_on_of_nodup_map h.distinct (mem_entries hn) hentry rfl
    rw [(Prod.mk.inj heq).2]

/-- Slashes behind a body leave empty pieces. -/
theorem splitOn_slashes (body : List Char) (n : Nat) :
    (body ++ List.replicate n '/').splitOn '/' = body.splitOn '/' ++ List.replicate n [] := by
  induction n generalizing body with
  | zero => simp
  | succ n ih =>
    have hrest := ih []
    rw [List.nil_append, List.splitOn_nil] at hrest
    rw [List.replicate_succ, List.splitOn_append_cons_self, hrest]
    rfl

/-- A slash is one byte. -/
theorem length_encode_slashes (body : List Char) (n : Nat) :
    (Text.encode (String.ofList (body ++ List.replicate n '/'))).length =
      (Text.encode (String.ofList body)).length + n := by
  have hslash : '/'.utf8Size = 1 := by decide
  simp [Text.encode, List.length_flatMap, hslash]

/-- Slashes at the end of a path that leads to a directory make no difference, as long as it can
be a path. -/
theorem locate_slashes (body : List Char) (n : Nat)
    (hl : fs.locate ⟨String.ofList body⟩ = .ok place) (hn : fs.node? place = some .directory)
    (hshort : (Text.encode (String.ofList body)).length + n < pathLimit) :
    fs.locate ⟨String.ofList (body ++ List.replicate n '/')⟩ = .ok place := by
  obtain ⟨hcheck, hwalk⟩ := locate_iff.mp hl
  obtain ⟨hzero, hne, -⟩ := checkText_iff.mp hcheck
  have hbody : body ≠ [] := by simpa using hne
  refine locate_iff.mpr ⟨checkText_iff.mpr ⟨?_, ?_, ?_⟩, ?_⟩
  · simpa [List.mem_append] using hzero
  · simpa using fun h => absurd h hbody
  · rwa [length_encode_slashes]
  · have htext : (Path.mk (String.ofList (body ++ List.replicate n '/'))).text.toList =
        (Path.mk (String.ofList body)).text.toList ++ List.replicate n '/' := by simp
    rw [start_of_append htext hne, names, Path.pieces, String.toList_ofList, splitOn_slashes,
      List.map_append]
    rw [names, Path.pieces, String.toList_ofList] at hwalk
    rw [walk_append _ hwalk]
    exact walk_empty hn (by simp)

end FlameFold.FileSystem

namespace FlameFold.Output

open FileSystem

variable {fs : FileSystem} {directory : Path} {place : Location} {entries : List (Name × Node)}
  {name : String}

/-- The bytes of the names of the flame graphs are those of the entries. -/
theorem encode_graphicNames (fs : FileSystem) (directory : Path) (entries : List (Name × Node)) :
    (graphicNames fs directory entries).map Text.encode =
      ((entries.filterMap fun entry => graphicName? fs directory entry.1).mergeSort
        fun a b => a.1 ≤ b.1).map Prod.fst := by
  rw [graphicNames, List.map_map]
  refine List.map_congr_left fun graphic hgraphic => ?_
  obtain ⟨entry, -, hfound⟩ := List.mem_filterMap.mp (List.mem_mergeSort.mp hgraphic)
  obtain ⟨htext, -, -, hname⟩ := graphicName?_eq_some_iff.mp hfound
  rw [hname]
  exact (Text.decode?_eq_some_iff.mp htext).symm

/-- The names of the flame graphs are some of the names, each at its place. -/
theorem graphics_sublist (fs : FileSystem) (directory : Path) (entries : List (Name × Node)) :
    ((entries.filterMap fun entry => graphicName? fs directory entry.1).map Prod.fst).Sublist
      (entries.map Prod.fst) := by
  induction entries with
  | nil => exact List.Sublist.slnil
  | cons entry rest ih =>
    cases hfound : graphicName? fs directory entry.1 with
    | none =>
      simp only [List.filterMap_cons, hfound, List.map_cons]
      exact ih.cons _
    | some graphic =>
      simp only [List.filterMap_cons, hfound, List.map_cons,
        (graphicName?_eq_some_iff.mp hfound).2.2.2]
      exact ih.cons_cons _

/-- Where the names of the entries differ, the bytes of the names of the flame graphs ascend. -/
theorem graphicNames_ascending (fs : FileSystem) (directory : Path)
    (h : (entries.map Prod.fst).Nodup) :
    ((graphicNames fs directory entries).map Text.encode).Pairwise (· < ·) := by
  rw [encode_graphicNames]
  have hle := List.pairwise_map.mpr
    (pairwise_sorted (entries.filterMap fun entry => graphicName? fs directory entry.1))
  have hne := ((List.mergeSort_perm (entries.filterMap fun entry =>
    graphicName? fs directory entry.1) fun a b => a.1 ≤ b.1).map Prod.fst).nodup_iff.mpr
      (h.sublist (graphics_sublist fs directory entries))
  exact (hle.and hne).imp fun ⟨hle, hne⟩ => Std.lt_of_le_of_ne hle hne

/-- A character of a text that takes one byte has this byte among those of the text. -/
theorem mem_encode {c : Char} {b : UInt8} (hbyte : String.utf8EncodeChar c = [b])
    (hmem : c ∈ name.toList) : b ∈ Text.encode name :=
  List.mem_flatMap.mpr ⟨c, hmem, by simp [hbyte]⟩

/-- What is entered in an orderly directory by the name of a flame graph has a plain name. -/
theorem isName_of_endsIn (h : fs.Orderly place) {node : Node}
    (hentry : (Text.encode name, node) ∈ fs.entries place)
    (hending : Text.endsIn Recording.graphicEnding name = true) : Path.IsName name.toList := by
  have hlong : Recording.graphicEnding.toList.length ≤ name.toList.length :=
    (List.isSuffixOf_iff_suffix.mp hending).length_le
  refine Path.isName_of_long (fun hslash => ?_) (lt_of_lt_of_le (by decide) hlong)
  exact h.slash _ hentry (mem_encode (by decide) hslash)

/-- A character of a joined path is one of the directory or of the name, or the slash. -/
theorem mem_glue {c : Char} {body text : List Char} (h : c ∈ Path.glue body text) :
    c ∈ body ∨ c = '/' ∨ c ∈ text := by
  unfold Path.glue at h
  split at h
  · exact (List.mem_append.mp h).imp_right .inr
  · exact (List.mem_append.mp h).imp_right List.mem_cons.mp

/-- A name without a zero makes a path in a directory that stands, if it is not too long. -/
theorem checkText_join_iff (hname : Path.IsName name.toList) (hzero : '\x00' ∉ name.toList)
    (hl : fs.locate directory = .ok place) : checkText (directory.join ⟨name⟩) = .ok () ↔
      (Text.encode (directory.join ⟨name⟩).text).length < pathLimit := by
  rw [checkText_iff]
  refine ⟨fun h => h.2.2, fun hshort => ⟨fun hmem => ?_, ?_, hshort⟩⟩
  · have htext := Path.join_text hname directory
    rw [String.ofList_toList] at htext
    rw [htext] at hmem
    obtain hmem | hslash | hmem := mem_glue hmem
    · exact (checkText_iff.mp (locate_iff.mp hl).1).1 hmem
    · exact absurd hslash (by decide)
    · exact hzero hmem
  · have hne := Path.join_ne_empty hname directory
    rwa [String.ofList_toList] at hne

/-- In an orderly directory, the path of what is entered by the name of a flame graph leads to a
plain file exactly if this is one and the path is not too long. -/
theorem isFile_join_iff (hl : fs.locate directory = .ok place)
    (hn : fs.node? place = some .directory) (h : fs.Orderly place) {node : Node}
    (hending : Text.endsIn Recording.graphicEnding name = true)
    (hentry : (Text.encode name, node) ∈ fs.entries place) :
    fs.isFile (directory.join ⟨name⟩) = true ↔
      (∃ content executable, node = .file content executable) ∧
        (Text.encode (directory.join ⟨name⟩).text).length < pathLimit := by
  have hname := isName_of_endsIn h hentry hending
  have hzero : '\x00' ∉ name.toList := fun hmem => h.zero _ hentry (mem_encode (by decide) hmem)
  have hjoin : ∀ there, fs.locate (directory.join ⟨name⟩) = .ok there ↔
      (Text.encode (directory.join ⟨name⟩).text).length < pathLimit ∧
        (Text.encode name).length ≤ nameLimit ∧ (fs.node? (Text.encode name :: place)).isSome ∧
        there = Text.encode name :: place := by
    intro there
    rw [← checkText_join_iff hname hzero hl]
    have hnamed : fs.locate (directory.join ⟨String.ofList name.toList⟩) = .ok there ↔ _ :=
      Path.locate_join_iff hname hl hn
    rwa [String.ofList_toList] at hnamed
  have hthere := h.node? hentry
  rw [isFile_iff]
  constructor
  · rintro ⟨there, hlocate, content, executable, hfile⟩
    obtain ⟨hshort, -, -, rfl⟩ := (hjoin there).mp hlocate
    exact ⟨⟨content, executable, Option.some.inj (hthere.symm.trans hfile)⟩, hshort⟩
  · rintro ⟨⟨content, executable, rfl⟩, hshort⟩
    exact ⟨_, (hjoin _).mpr ⟨hshort, h.short _ hentry, Option.isSome_of_eq_some hthere, rfl⟩,
      content, executable, hthere⟩

/-- In an orderly directory the flame graphs are the plain files that are entered by the name of
one, if their paths are not too long. -/
theorem mem_graphicNames_orderly (hl : fs.locate directory = .ok place)
    (hn : fs.node? place = some .directory) (h : fs.Orderly place) :
    name ∈ graphicNames fs directory (fs.entries place) ↔
      Text.endsIn Recording.graphicEnding name = true ∧
        (∃ content executable, (Text.encode name, .file content executable) ∈ fs.entries place) ∧
        (Text.encode (directory.join ⟨name⟩).text).length < pathLimit := by
  rw [mem_graphicNames]
  refine and_congr_right fun hending => ?_
  constructor
  · rintro ⟨hfile, ⟨bytes, node⟩, hentry, htext⟩
    obtain rfl := Text.decode?_eq_some_iff.mp htext
    obtain ⟨⟨content, executable, rfl⟩, hshort⟩ :=
      (isFile_join_iff hl hn h hending hentry).mp hfile
    exact ⟨⟨content, executable, hentry⟩, hshort⟩
  · rintro ⟨⟨content, executable, hentry⟩, hshort⟩
    have hfile := (isFile_join_iff hl hn h hending hentry).mpr ⟨⟨content, executable, rfl⟩, hshort⟩
    exact ⟨hfile, _, hentry, Text.decode?_encode name⟩

/-- What a listing of the flame graphs in a directory is. -/
structure Lists (fs : FileSystem) (directory : Path) (place : Location) (names : List String) :
    Prop where
  /-- The plain files that are entered by the name of a flame graph are listed, if their paths are
  not too long, and nothing else is. -/
  exactly : ∀ name, name ∈ names ↔ Text.endsIn Recording.graphicEnding name = true ∧
    (∃ content executable, (Text.encode name, .file content executable) ∈ fs.entries place) ∧
    (Text.encode (directory.join ⟨name⟩).text).length < pathLimit
  /-- The bytes of the names ascend. -/
  bytes : (names.map Text.encode).Pairwise (· < ·)
  /-- The paths ascend. -/
  paths : (names.map fun name => (directory.join ⟨name⟩).rank).Pairwise (· < ·)
  /-- In whatever order the entries are enumerated, these names come out. -/
  enumerated : ∀ entries, entries.Perm (fs.entries place) →
    graphicNames fs directory entries = names

/-- The flame graphs of an orderly directory, by the names that are entered there. -/
theorem graphicNames_lists (hl : fs.locate directory = .ok place)
    (hn : fs.node? place = some .directory) (h : fs.Orderly place) :
    Lists fs directory place (graphicNames fs directory (fs.entries place)) where
  exactly _ := mem_graphicNames_orderly hl hn h
  bytes := graphicNames_ascending fs directory h.distinct
  paths := by
    have hnames : ∀ name ∈ graphicNames fs directory (fs.entries place),
        Path.IsName name.toList := by
      intro name hmem
      obtain ⟨hending, ⟨content, executable, hentry⟩, -⟩ :=
        (mem_graphicNames_orderly hl hn h).mp hmem
      exact isName_of_endsIn h hentry hending
    have hbytes := List.pairwise_map.mp (graphicNames_ascending fs directory h.distinct)
    -- the paths differ in their last components only, so they are in the order of the names
    refine List.pairwise_map.mpr (hbytes.imp_of_mem fun hfirst hsecond hlt => ?_)
    have hrank := (Path.rank_join_lt_iff (hnames _ hfirst) (hnames _ hsecond) directory).mpr hlt
    rwa [String.ofList_toList, String.ofList_toList] at hrank
  enumerated _ hperm := graphicNames_perm hperm

/-- The flame graphs that are listed in a directory are the plain files in it that have the name
of one, each of them once and in the order of the bytes of their names, however the entries are
enumerated, except for those whose path has too many bytes. Without a directory none are listed. -/
theorem listGraphics_directory (fs : FileSystem) (directory : Path) :
    (fs.isDirectory directory = false → listGraphics fs directory = .ok []) ∧
      ∀ place, fs.locate directory = .ok place → fs.node? place = some .directory →
        fs.Orderly place → ∃ names,
          listGraphics fs directory = .ok (names.map fun name => directory.join ⟨name⟩) ∧
            Lists fs directory place names := by
  refine ⟨fun hd => by rw [listGraphics, hd]; rfl, fun place hl hn h => ?_⟩
  refine ⟨_, ?_, graphicNames_lists hl hn h⟩
  rw [listGraphics, if_pos (isDirectory_iff.mpr ⟨place, hl, hn⟩), hl]
  rfl

/-- A directory with flame graphs in it, and with other things that have the ending of one or the
name of something else. -/
def gallery : FileSystem where
  nodes := [([Text.encode "out"], .directory),
    ([Text.encode "b_flamegraph.svg", Text.encode "out"], .file [0x62] false),
    ([Text.encode "c_flamegraph.svg", Text.encode "out"], .directory),
    ([0xFF :: Text.encode "_flamegraph.svg", Text.encode "out"], .file [0x63] false),
    ([Text.encode "a_flamegraph.svg", Text.encode "out"], .file [0x61] false),
    ([Text.encode "a_collapsed.txt", Text.encode "out"], .file [] false)]
  here := []

/-- The directory of the gallery is listed, and what is no directory has nothing to list. -/
theorem listGraphics_directory_gallery :
    listGraphics gallery ⟨"out/a_collapsed.txt"⟩ = .ok [] ∧
      ∃ names, listGraphics gallery ⟨"out"⟩ =
          .ok (names.map fun name => (Path.mk "out").join ⟨name⟩) ∧
        Lists gallery ⟨"out"⟩ [Text.encode "out"] names :=
  ⟨(listGraphics_directory gallery _).1 (by decide),
    (listGraphics_directory gallery _).2 _ (by decide) (by decide)
      ⟨by decide, by decide, by decide, by decide⟩⟩

/-- A name joined to a directory adds its bytes to those of the directory. -/
theorem length_encode_join (hname : Path.IsName name.toList) (directory : Path) :
    (Text.encode directory.text).length + (Text.encode name).length ≤
      (Text.encode (directory.join ⟨name⟩).text).length := by
  have htext := Path.join_text hname directory
  rw [String.ofList_toList] at htext
  rw [Text.encode, Text.encode, Text.encode, htext, Path.glue]
  split
  · rw [List.flatMap_append, List.length_append]
  · rw [List.flatMap_append, List.length_append, List.flatMap_cons, List.length_append]
    omega

/-- A directory whose path has no room for the ending of a flame graph behind it has none. -/
theorem graphicNames_distant (hl : fs.locate directory = .ok place)
    (hn : fs.node? place = some .directory) (h : fs.Orderly place)
    (hfar : pathLimit ≤
      (Text.encode directory.text).length + (Text.encode Recording.graphicEnding).length) :
    graphicNames fs directory (fs.entries place) = [] := by
  refine List.eq_nil_iff_forall_not_mem.mpr fun name hmem => ?_
  obtain ⟨hending, ⟨content, executable, hentry⟩, hshort⟩ :=
    (mem_graphicNames_orderly hl hn h).mp hmem
  have hjoin := length_encode_join (isName_of_endsIn h hentry hending) directory
  obtain ⟨stem, hstem⟩ := List.isSuffixOf_iff_suffix.mp hending
  have hlength : (Text.encode Recording.graphicEnding).length ≤ (Text.encode name).length := by
    rw [Text.encode, Text.encode, ← hstem, List.flatMap_append, List.length_append]
    exact Nat.le_add_left _ _
  omega

/-- A directory with one flame graph in it. -/
def cabinet : FileSystem where
  nodes := [([Text.encode "d"], .directory),
    ([Text.encode "a_flamegraph.svg", Text.encode "d"], .file [0x78] false)]
  here := []

/-- The path of the directory with so many slashes behind it that it can be a path, but no flame
graph can be joined to it. -/
def distant : Path := ⟨String.ofList (['d'] ++ List.replicate 4080 '/')⟩

/-- The flame graph stands in the directory and is not listed. -/
theorem distant_graphic_not_listed :
    cabinet.locate distant = .ok [Text.encode "d"] ∧
      cabinet.node? [Text.encode "d"] = some .directory ∧ cabinet.Orderly [Text.encode "d"] ∧
      Text.endsIn Recording.graphicEnding "a_flamegraph.svg" = true ∧
      (Text.encode "a_flamegraph.svg", .file [0x78] false) ∈ cabinet.entries [Text.encode "d"] ∧
      listGraphics cabinet distant = .ok [] := by
  have hlength : (Text.encode (String.ofList ['d'])).length = 1 := by decide
  have hl : cabinet.locate distant = .ok [Text.encode "d"] :=
    locate_slashes ['d'] 4080 (by decide) (by decide) (by rw [hlength, pathLimit]; omega)
  have hn : cabinet.node? [Text.encode "d"] = some .directory := by decide
  have h : cabinet.Orderly [Text.encode "d"] := ⟨by decide, by decide, by decide, by decide⟩
  have hnone : graphicNames cabinet distant (cabinet.entries [Text.encode "d"]) = [] := by
    have hdistant : (Text.encode distant.text).length = 1 + 4080 := by
      rw [← hlength]
      exact length_encode_slashes ['d'] 4080
    have hending : (Text.encode Recording.graphicEnding).length = 15 := by decide
    refine graphicNames_distant hl hn h ?_
    rw [hdistant, hending, pathLimit]
  refine ⟨hl, hn, h, by decide, by decide, ?_⟩
  rw [listGraphics, if_pos (isDirectory_iff.mpr ⟨_, hl, hn⟩), hl]
  simp only [bind, Except.bind, hnone]
  rfl

end FlameFold.Output
