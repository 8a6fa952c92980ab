import FlameFold.Output.Graphic
import FlameFold.Proofs.FileSystem.Refilling
import FlameFold.Proofs.Recording.Artifacts
import FlameFold.Proofs.Text.Utf8

/-!
# Which flame graphs a directory lists

A flame graph is named by joining its name to the path of a directory, and found again among
the entries of the directory. Where a joined path leads to a file, the path of the directory
leads to the directory that has the file as an entry, however it is written; only the path
without any text leads nowhere by itself, though names joined to it lead on from the working
directory.
-/

namespace FlameFold.FileSystem

variable {fs : FileSystem} {p : Path}

/-- What is there by a name in a directory is one of its entries. -/
theorem mem_entries {name : Name} {above : Location} {node : Node}
    (h : fs.node? (name :: above) = some node) : (name, node) ∈ fs.entries above := by
  rw [node?, if_neg (List.cons_ne_nil _ _)] at h
  obtain ⟨before, after, hnodes, -⟩ := List.lookup_eq_some_iff.mp h
  refine List.mem_filterMap.mpr ⟨(name :: above, node), ?_, by simp⟩
  rw [hnodes]
  simp

/-- Which texts can be paths. -/
theorem checkText_iff : checkText p = .ok () ↔
    '\x00' ∉ p.text.toList ∧ p.text ≠ "" ∧ (Text.encode p.text).length < pathLimit := by
  unfold checkText
  split_ifs with hzero hempty hlong <;> simp_all

/-- A path that leads to a location has a text that can be one, and its names lead there. -/
theorem locate_iff {place : Location} : fs.locate p = .ok place ↔
    checkText p = .ok () ∧ fs.walk (fs.start p) (names p) = .ok place := by
  unfold locate
  cases checkText p <;> simp [bind, Except.bind]

/-- Where a path leads, if anywhere, is fixed by the directory that it is followed from. -/
theorem locate_unique {other : FileSystem} {place there : Location}
    (hhere : other.here = fs.here) (h : fs.locate p = .ok place)
    (h' : other.locate p = .ok there) : there = place := by
  have hstart : other.start p = fs.start p := by rw [start, start, hhere]
  have hwalk := (locate_iff.mp h').2
  rw [hstart] at hwalk
  exact walk_unique (locate_iff.mp h).2 hwalk

/-- What a text begins with can be a path where the text can, if it is anything. -/
theorem checkText_of_append {first : Path} {rest : List Char}
    (htext : p.text.toList = first.text.toList ++ rest) (hfirst : first.text ≠ "")
    (h : checkText p = .ok ()) : checkText first = .ok () := by
  obtain ⟨hzero, -, hlength⟩ := checkText_iff.mp h
  rw [htext] at hzero
  rw [Text.encode, htext, List.flatMap_append, List.length_append] at hlength
  exact checkText_iff.mpr
    ⟨fun hz => hzero (List.mem_append_left _ hz), hfirst, Nat.lt_of_add_right_lt hlength⟩

/-- A path is followed from where its text begins. -/
theorem start_of_append {first : Path} {rest : List Char}
    (htext : p.text.toList = first.text.toList ++ rest) (hfirst : first.text ≠ "") :
    fs.start p = fs.start first := by
  have hhead : first.text.toList ≠ [] := by simpa using hfirst
  rw [start, start, Path.isAbsolute, Path.isAbsolute, htext, List.head?_append_of_ne_nil _ hhead]

end FlameFold.FileSystem

namespace FlameFold.Path

variable {name : List Char} {directory : Path}

/-- A directory with a name joined to it begins with the directory. -/
theorem glue_eq_append (body name : List Char) : ∃ rest, glue body name = body ++ rest := by
  unfold glue
  split
  · exact ⟨name, rfl⟩
  · exact ⟨'/' :: name, rfl⟩

/-- A directory with a text can be a path where a text without slashes joined to it can. -/
theorem checkText_of_join (h : '/' ∉ name) (hdirectory : directory.text ≠ "")
    (hjoined : FileSystem.checkText (directory.join ⟨String.ofList name⟩) = .ok ()) :
    FileSystem.checkText directory = .ok () := by
  obtain ⟨rest, hrest⟩ := glue_eq_append directory.text.toList name
  exact FileSystem.checkText_of_append ((join_text_whole h directory).trans hrest) hdirectory
    hjoined

/-- A text without slashes joined to a directory is followed from where the directory is. -/
theorem start_join (fs : FileSystem) (h : '/' ∉ name) (directory : Path) :
    fs.start (directory.join ⟨String.ofList name⟩) = fs.start directory := by
  by_cases hdirectory : directory.text = ""
  · rw [FileSystem.start, FileSystem.start, isAbsolute, isAbsolute, join_text_whole h, hdirectory]
    simp [glue, head?_ne_slash h]
  · obtain ⟨rest, hrest⟩ := glue_eq_append directory.text.toList name
    exact FileSystem.start_of_append ((join_text_whole h directory).trans hrest) hdirectory

/-- Where a text without slashes joined to a directory leads, the names of the directory lead to
a directory from which the text leads there. -/
theorem step_of_join {fs : FileSystem} {place : Location} (h : '/' ∉ name)
    (hl : fs.locate (directory.join ⟨String.ofList name⟩) = .ok place) :
    ∃ above, fs.walk (fs.start directory) (FileSystem.names directory) = .ok above ∧
      fs.node? above = some .directory ∧
      fs.step above (name.flatMap String.utf8EncodeChar) = .ok place := by
  obtain ⟨base, hglue, hbase⟩ := splitOn_glue h directory.text.toList
  have hwalk := (FileSystem.locate_iff.mp hl).2
  rw [start_join fs h, FileSystem.names, pieces, join_text_whole h, hglue, List.map_append] at hwalk
  obtain ⟨above, hw, hs⟩ := FileSystem.walk_concat hwalk
  have hn := (FileSystem.step_cases hs).1
  refine ⟨above, ?_, hn, hs⟩
  rw [FileSystem.names, pieces]
  -- a slash at the end of the directory leaves one empty name after the others
  obtain hb | hb := hbase
  · rw [hb, hw]
  · rw [hb, List.map_append, FileSystem.walk_append _ hw]
    exact FileSystem.walk_empty hn (by simp)

/-- Where a name joined to a directory leads, the names of the directory lead to the one above. -/
theorem walk_of_join {fs : FileSystem} {place : Location} (h : IsName name)
    (hl : fs.locate (directory.join ⟨String.ofList name⟩) = .ok place) :
    ∃ above, place = name.flatMap String.utf8EncodeChar :: above ∧
      fs.walk (fs.start directory) (FileSystem.names directory) = .ok above ∧
      fs.node? above = some .directory := by
  obtain ⟨above, hwalk, hn, hs⟩ := step_of_join h.whole hl
  obtain ⟨-, ⟨hidle, -⟩ | ⟨hup, -⟩ | ⟨-, -, -, -, rfl⟩⟩ := FileSystem.step_cases hs
  · exact absurd hidle h.own.1
  · exact absurd hup h.own.2
  · exact ⟨above, rfl, hwalk, hn⟩

/-- Where a name joined to a directory leads, the directory leads to the one above. -/
theorem locate_of_join {fs : FileSystem} {place : Location} (h : IsName name)
    (hdirectory : directory.text ≠ "")
    (hl : fs.locate (directory.join ⟨String.ofList name⟩) = .ok place) :
    ∃ above, place = name.flatMap String.utf8EncodeChar :: above ∧
      fs.locate directory = .ok above ∧ fs.node? above = some .directory := by
  obtain ⟨above, hplace, hwalk, hn⟩ := walk_of_join h hl
  have hcheck := checkText_of_join h.whole hdirectory (FileSystem.locate_iff.mp hl).1
  exact ⟨above, hplace, FileSystem.locate_iff.mpr ⟨hcheck, hwalk⟩, hn⟩

end FlameFold.Path

namespace FlameFold.Output

variable {fs : FileSystem} {directory : Path} {entries others : List (Name × Node)}

/-- An entry is a flame graph exactly if its name is a text with the ending of one and its path
leads to a plain file. -/
theorem graphicName?_eq_some_iff {name : Name} {graphic : Name × String} :
    graphicName? fs directory name = some graphic ↔ Text.decode? name = some graphic.2 ∧
      Text.endsIn Recording.graphicEnding graphic.2 = true ∧
      fs.isFile (directory.join ⟨graphic.2⟩) = true ∧ graphic.1 = name := by
  obtain ⟨bytes, text⟩ := graphic
  unfold graphicName?
  cases Text.decode? name with
  | none => simp
  | some found =>
    simp only [Bool.and_eq_true, Option.ite_none_right_eq_some, Option.some.injEq, Prod.mk.injEq]
    constructor
    · rintro ⟨⟨hending, hfile⟩, rfl, rfl⟩
      exact ⟨rfl, hending, hfile, rfl⟩
    · rintro ⟨rfl, hending, hfile, rfl⟩
      exact ⟨⟨hending, hfile⟩, rfl, rfl⟩

/-- The flame graphs among the entries, in whatever order they are entered. -/
theorem mem_graphicNames {name : String} : name ∈ graphicNames fs directory entries ↔
    Text.endsIn Recording.graphicEnding name = true ∧
      fs.isFile (directory.join ⟨name⟩) = true ∧
      ∃ entry ∈ entries, Text.decode? entry.1 = some name := by
  unfold graphicNames
  constructor
  · intro h
    obtain ⟨graphic, hgraphic, rfl⟩ := List.mem_map.mp h
    obtain ⟨entry, hentry, hfound⟩ := List.mem_filterMap.mp (List.mem_mergeSort.mp hgraphic)
    obtain ⟨htext, hending, hfile, -⟩ := graphicName?_eq_some_iff.mp hfound
    exact ⟨hending, hfile, entry, hentry, htext⟩
  · rintro ⟨hending, hfile, entry, hentry, htext⟩
    have hfound : graphicName? fs directory entry.1 = some (entry.1, name) :=
      graphicName?_eq_some_iff.mpr ⟨htext, hending, hfile, rfl⟩
    exact List.mem_map.mpr ⟨(entry.1, name),
      List.mem_mergeSort.mpr (List.mem_filterMap.mpr ⟨entry, hentry, hfound⟩), rfl⟩

/-- Without any text a directory lists no flame graphs. -/
theorem listGraphics_empty (fs : FileSystem) (h : directory.text = "") :
    listGraphics fs directory = .ok [] := by
  have hd : fs.isDirectory directory = false := by
    by_contra hcontra
    obtain ⟨place, hl, -⟩ := FileSystem.isDirectory_iff.mp (Bool.not_eq_false _ |>.mp hcontra)
    exact (FileSystem.checkText_iff.mp (FileSystem.locate_iff.mp hl).1).2.1 h
  rw [listGraphics, hd]
  rfl

/-- A directory with a text lists every file in it that has the name of a flame graph. -/
theorem listGraphics_lists {p : Path} (hdirectory : directory.text ≠ "")
    (hfile : fs.isFile (Recording.Artifacts.of directory p).graphic = true) :
    ∃ graphics, listGraphics fs directory = .ok graphics ∧
      (Recording.Artifacts.of directory p).graphic ∈ graphics := by
  obtain ⟨place, hl, content, executable, hn⟩ := FileSystem.isFile_iff.mp hfile
  rw [Recording.graphic_eq] at hl
  obtain ⟨above, rfl, habove, hd⟩ :=
    Path.locate_of_join (Recording.graphic_isName p) hdirectory hl
  have hlist : listGraphics fs directory = .ok
      ((graphicNames fs directory (fs.entries above)).map fun name => directory.join ⟨name⟩) := by
    rw [listGraphics, if_pos (FileSystem.isDirectory_iff.mpr ⟨above, habove, hd⟩), habove]
    rfl
  have hending : Text.endsIn Recording.graphicEnding (p.stem ++ Recording.graphicEnding) =
      true := by
    simp [Text.endsIn]
  refine ⟨_, hlist, List.mem_map.mpr ⟨p.stem ++ Recording.graphicEnding, ?_, rfl⟩⟩
  exact mem_graphicNames.mpr ⟨hending, hfile, _, FileSystem.mem_entries hn, Text.decode?_encode _⟩

/-- The name of a flame graph says its bytes and its text. -/
theorem eq_of_graphicName? {name other : Name} {graphic found : Name × String}
    (h : graphicName? fs directory name = some graphic)
    (h' : graphicName? fs directory other = some found) (hname : graphic.1 = found.1) :
    graphic = found := by
  obtain ⟨htext, -, -, rfl⟩ := graphicName?_eq_some_iff.mp h
  obtain ⟨htext', -, -, rfl⟩ := graphicName?_eq_some_iff.mp h'
  rw [hname, htext', Option.some.injEq] at htext
  exact Prod.ext hname htext.symm

/-- Flame graphs that are put in order are in the order of their names. -/
theorem pairwise_sorted (found : List (Name × String)) :
    (found.mergeSort fun a b => a.1 ≤ b.1).Pairwise fun a b => a.1 ≤ b.1 := by
  have htrans : ∀ first second third : Name × String, decide (first.1 ≤ second.1) = true →
      decide (second.1 ≤ third.1) = true → decide (first.1 ≤ third.1) = true :=
    fun first second third h h' =>
      decide_eq_true (List.le_trans (of_decide_eq_true h) (of_decide_eq_true h'))
  have htotal : ∀ first second : Name × String,
      (decide (first.1 ≤ second.1) || decide (second.1 ≤ first.1)) = true := by
    intro first second
    simpa using List.le_total first.1 second.1
  exact (List.pairwise_mergeSort htrans htotal found).imp of_decide_eq_true

/-- The order of the entries does not show in the names of the flame graphs. -/
theorem graphicNames_perm (h : entries.Perm others) :
    graphicNames fs directory entries = graphicNames fs directory others := by
  unfold graphicNames
  congr 1
  refine List.Perm.eq_of_pairwise (fun first second hfirst hsecond hle hge => ?_)
    (pairwise_sorted _) (pairwise_sorted _) ?_
  · obtain ⟨entry, -, hentry⟩ := List.mem_filterMap.mp (List.mem_mergeSort.mp hfirst)
    obtain ⟨other, -, hother⟩ := List.mem_filterMap.mp (List.mem_mergeSort.mp hsecond)
    exact eq_of_graphicName? hentry hother (List.le_antisymm hle hge)
  · exact (List.mergeSort_perm _ _).trans
      ((h.filterMap _).trans (List.mergeSort_perm _ _).symm)

/-- Where the same stands everywhere, the same flame graphs are listed. -/
theorem listGraphics_same {other : FileSystem} (h : fs.Same other) (directory : Path) :
    listGraphics fs directory = listGraphics other directory := by
  have hnames : graphicNames fs = graphicNames other := by
    funext directory entries
    simp only [graphicNames, graphicName?, h.isFile]
  unfold listGraphics
  rw [h.isDirectory, h.locate, hnames]
  cases other.locate directory with
  | error fault => rfl
  | ok place => simp only [bind, Except.bind, graphicNames_perm (h.entries place)]

end FlameFold.Output
