import FlameFold.Proofs.FileSystem.Changes
import FlameFold.Proofs.Path.FileName
import Mathlib.Data.List.TakeDrop

/-!
# The names of the two files of a recording

Whatever the path of a recording is, its two files are named by its stem and an ending of
their own: plain names in the output directory that differ from each other, and from those
of every recording with another stem.
-/

namespace FlameFold.Path

/-- Cutting a name keeps to its characters. -/
theorem cutName_subset (name : List Char) : (cutName name).1 ⊆ name := by
  obtain ⟨-, hwhole⟩ | ⟨stem, extension, -, -, hname, hcut⟩ := cutName_cases name
  · rw [hwhole]
    exact List.Subset.refl _
  · rw [hcut, hname]
    exact List.subset_append_left _ _

/-- The file name is one of the pieces. -/
theorem fileName?_mem_pieces {p : Path} {name : List Char} (h : p.fileName? = some name) :
    name ∈ p.pieces := by
  have hlast : name ∈ (p.pieces.reverse.dropWhile isIdle).head? :=
    (Option.filter_eq_some_iff.mp h).1
  exact List.mem_reverse.mp (List.dropWhile_subset _ (List.mem_of_mem_head? hlast))

/-- The stem that the files of a recording are named by; nothing where there is none. -/
def stem (p : Path) : String := p.fileStem?.getD ""

/-- The stem is cut from one of the pieces. -/
theorem stem_cases (p : Path) : p.stem = "" ∨ ∃ piece ∈ p.pieces, p.stem.toList ⊆ piece := by
  cases hname : p.fileName? with
  | none => exact .inl (by simp [stem, fileStem?, hname])
  | some name =>
    refine .inr ⟨name, fileName?_mem_pieces hname, ?_⟩
    rw [stem, fileStem?, hname, Option.map_some, Option.getD_some, String.toList_ofList]
    exact cutName_subset name

/-- No stem has a slash. -/
theorem stem_notMem (p : Path) : '/' ∉ p.stem.toList := by
  obtain hempty | ⟨piece, hpiece, hsubset⟩ := p.stem_cases
  · simp [hempty]
  · exact fun hmem => Text.notMem_of_mem_splitOn hpiece (hsubset hmem)

/-- The stem keeps to the characters of the path. -/
theorem stem_subset (p : Path) : p.stem.toList ⊆ p.text.toList := by
  obtain hempty | ⟨piece, hpiece, hsubset⟩ := p.stem_cases
  · simp [hempty]
  · exact List.Subset.trans hsubset (Text.subset_of_mem_splitOn hpiece)

/-- A stem with a long ending is a plain name. -/
theorem isName_stem (p : Path) {ending : String} (hslash : '/' ∉ ending.toList)
    (hlong : 2 < ending.toList.length) : IsName (p.stem ++ ending).toList := by
  rw [String.toList_append]
  refine isName_of_long (fun h => ?_) ?_
  · exact (List.mem_append.mp h).elim p.stem_notMem hslash
  · rw [List.length_append]
    exact Nat.lt_add_left _ hlong

end FlameFold.Path

namespace FlameFold.Recording

/-- The bytes of the name that a stem and an ending make. -/
def fileName (stem ending : String) : Name :=
  (stem ++ ending).toList.flatMap String.utf8EncodeChar

/-- Names with the same ending are the same only for the same stem. -/
theorem fileName_inj {stem other ending : String} :
    fileName stem ending = fileName other ending ↔ stem = other := by
  refine ⟨fun h => ?_, fun h => by rw [h]⟩
  have htext := Text.encoded_injective h
  rw [String.toList_append, String.toList_append] at htext
  exact String.toList_inj.mp (List.append_cancel_right htext)

/-- No stems make a file of collapsed stacks and a flame graph of the same name. -/
theorem fileName_ne (stem other : String) :
    fileName stem collapsedEnding ≠ fileName other graphicEnding := by
  intro h
  have hlast := congrArg List.getLast? (Text.encoded_injective h)
  rw [String.toList_append, String.toList_append] at hlast
  simp [collapsedEnding, graphicEnding, List.getLast?_append] at hlast

theorem collapsed_isName (p : Path) : Path.IsName (p.stem ++ collapsedEnding).toList :=
  p.isName_stem (by decide) (by decide)

theorem graphic_isName (p : Path) : Path.IsName (p.stem ++ graphicEnding).toList :=
  p.isName_stem (by decide) (by decide)

/-- The file of collapsed stacks is a name joined to the output directory. -/
theorem collapsed_eq (directory p : Path) : (Artifacts.of directory p).collapsed =
    directory.join ⟨String.ofList (p.stem ++ collapsedEnding).toList⟩ := by
  rw [String.ofList_toList]
  rfl

/-- The flame graph is a name joined to the output directory. -/
theorem graphic_eq (directory p : Path) : (Artifacts.of directory p).graphic =
    directory.join ⟨String.ofList (p.stem ++ graphicEnding).toList⟩ := by
  rw [String.ofList_toList]
  rfl

/-- The last name of the path of the collapsed stacks. -/
theorem names_collapsed (directory p : Path) :
    (FileSystem.names (Artifacts.of directory p).collapsed).getLast? =
      some (fileName p.stem collapsedEnding) := by
  rw [collapsed_eq]
  exact Path.names_join_getLast? (collapsed_isName p) directory

/-- The last name of the path of the flame graph. -/
theorem names_graphic (directory p : Path) :
    (FileSystem.names (Artifacts.of directory p).graphic).getLast? =
      some (fileName p.stem graphicEnding) := by
  rw [graphic_eq]
  exact Path.names_join_getLast? (graphic_isName p) directory

/-- Where the path of the collapsed stacks leads, something stands with their name. -/
theorem locate_collapsed {fs : FileSystem} {directory p : Path} {place : Location}
    (h : fs.locate (Artifacts.of directory p).collapsed = .ok place) :
    place.head? = some (fileName p.stem collapsedEnding) ∧ (fs.node? place).isSome :=
  have hown := (collapsed_isName p).own
  FileSystem.locate_head? h (names_collapsed directory p) hown.1 hown.2

/-- Where the path of the flame graph leads, something stands with its name. -/
theorem locate_graphic {fs : FileSystem} {directory p : Path} {place : Location}
    (h : fs.locate (Artifacts.of directory p).graphic = .ok place) :
    place.head? = some (fileName p.stem graphicEnding) ∧ (fs.node? place).isSome :=
  have hown := (graphic_isName p).own
  FileSystem.locate_head? h (names_graphic directory p) hown.1 hown.2

/-- A file of collapsed stacks and a flame graph are never at the same place. -/
theorem collapsed_ne_graphic {fs other : FileSystem} {directory above p q : Path}
    {place graphic : Location} (h : fs.locate (Artifacts.of directory p).collapsed = .ok place)
    (hg : other.locate (Artifacts.of above q).graphic = .ok graphic) : place ≠ graphic := by
  intro he
  have hname := (locate_collapsed h).1
  rw [he, (locate_graphic hg).1] at hname
  exact fileName_ne _ _ (Option.some.inj hname).symm

/-- No device has the name of a file that is made for a recording. -/
def Clear (fs : FileSystem) : Prop :=
  ∀ place device, fs.node? place = some (.device device) → ∀ p : Path,
    place.head? ≠ some (fileName p.stem collapsedEnding) ∧
      place.head? ≠ some (fileName p.stem graphicEnding)

/-- Where no device stands anywhere, none has such a name. -/
theorem clear_of_plain {fs : FileSystem} (h : fs.Plain) : Clear fs :=
  fun place device hd => absurd hd (h place device)

/-- No change brings a device. -/
theorem Clear.changed {before after : FileSystem} {paths : List Path} {places : List Location}
    (h : Clear before) (hchanged : FileSystem.Changed paths places before after) : Clear after :=
  fun place device hd => h place device (hchanged.devices place device hd)

/-- Both files lie in the output directory. -/
theorem parent?_collapsed (directory p : Path) :
    (Artifacts.of directory p).collapsed.parent? = directory.ancestors.head? := by
  rw [collapsed_eq]
  exact Path.parent?_join (collapsed_isName p) directory

theorem parent?_graphic (directory p : Path) :
    (Artifacts.of directory p).graphic.parent? = directory.ancestors.head? := by
  rw [graphic_eq]
  exact Path.parent?_join (graphic_isName p) directory

end FlameFold.Recording
