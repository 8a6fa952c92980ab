import FlameFold.Proofs.Path.Join

/-!
# The file name of a joined path

The file name of a path is its last piece that says something, and its stem is what stands before
the last dot. Where a path has a file name, joining it to a directory keeps this name, however the
directory is written.
-/

namespace FlameFold.Path

variable {left right : Path} {name piece : List Char} {stem : String}

/-- A name with no dot after its start is all stem. -/
theorem cutName_whole (h : '.' ∉ name.tail) : cutName name = (name, none) := by
  cases name with
  | nil => rfl
  | cons c rest =>
    have hall : ∀ d ∈ rest.reverse, (d != '.') = true := fun d hd =>
      bne_iff_ne.mpr (ne_of_mem_of_not_mem (List.mem_reverse.mp hd) h)
    have hspan : (c :: rest).reverse.span (· != '.') =
        (rest.reverse ++ [c].takeWhile (· != '.'), [c].dropWhile (· != '.')) := by
      rw [List.span_eq_takeWhile_dropWhile, List.reverse_cons, List.takeWhile_append_of_pos hall,
        List.dropWhile_append_of_pos hall]
    rw [cutName, hspan]
    by_cases hc : c = '.' <;> simp [hc]

/-- A name is cut at a dot that neither begins it nor has another one after it. -/
theorem cutName_dotted {before extension : List Char} (hbefore : before ≠ [])
    (h : '.' ∉ extension) :
    cutName (before ++ '.' :: extension) = (before, some extension) := by
  have hspan : (before ++ '.' :: extension).reverse.span (· != '.') =
      (extension.reverse, '.' :: before.reverse) := by
    rw [List.reverse_append, List.reverse_cons, List.append_assoc, List.singleton_append]
    exact Text.span_separator (by simpa using h) _
  obtain ⟨last, rest, hlast⟩ :=
    List.exists_cons_of_ne_nil (List.reverse_ne_nil_iff.mpr hbefore)
  rw [cutName, hspan, hlast]
  simp [← hlast]

/-- A name is cut at its last dot, if that does not begin it, or it is all stem. -/
theorem cutName_cases (name : List Char) : '.' ∉ name.tail ∧ cutName name = (name, none) ∨
    ∃ stem extension, stem ≠ [] ∧ '.' ∉ extension ∧ name = stem ++ '.' :: extension ∧
      cutName name = (stem, some extension) := by
  by_cases hdot : '.' ∈ name.tail
  · obtain ⟨c, rest, rfl⟩ : ∃ c rest, name = c :: rest :=
      List.exists_cons_of_ne_nil (by rintro rfl; exact List.not_mem_nil hdot)
    obtain ⟨extension, before, hrest, hextension⟩ :=
      List.eq_append_cons_of_mem (List.mem_reverse.mpr hdot)
    have hname : c :: rest = (c :: before.reverse) ++ '.' :: extension.reverse := by
      rw [← List.reverse_reverse rest, show rest.reverse = _ from hrest]
      simp
    have hafter : '.' ∉ extension.reverse := by simpa using hextension
    refine .inr ⟨c :: before.reverse, extension.reverse, List.cons_ne_nil _ _, hafter, hname, ?_⟩
    rw [hname, cutName_dotted (List.cons_ne_nil _ _) hafter]
  · exact .inl ⟨hdot, cutName_whole hdot⟩

/-- The pieces of a joined path end in those of the path that was joined. -/
theorem pieces_join (left right : Path) :
    ∃ base, (left.join right).pieces = base ++ right.pieces := by
  by_cases habsolute : right.isAbsolute = true
  · exact ⟨[], by rw [join, if_pos habsolute, List.nil_append]⟩
  · obtain ⟨base, hglue, -⟩ := splitOn_glue_text left.text.toList right.text.toList
    refine ⟨base, ?_⟩
    rw [pieces, join_text_relative (by simpa using habsolute), hglue]
    rfl

/-- The last piece that says something is the same after joining. -/
theorem lastPiece?_join (h : right.lastPiece? = some piece) (left : Path) :
    (left.join right).lastPiece? = some piece := by
  obtain ⟨base, hpieces⟩ := pieces_join left right
  have hnonempty : right.pieces.reverse.dropWhile isIdle ≠ [] := by
    rintro hnil
    rw [lastPiece?, hnil] at h
    cases h
  rw [lastPiece?, hpieces, List.reverse_append, List.dropWhile_append,
    if_neg (by simpa using hnonempty), List.head?_append_of_ne_nil _ hnonempty]
  exact h

/-- Joining keeps the file name. -/
theorem fileName?_join (h : right.fileName? = some name) (left : Path) :
    (left.join right).fileName? = some name := by
  obtain ⟨hlast, hname⟩ := Option.filter_eq_some_iff.mp h
  rw [fileName?, lastPiece?_join hlast]
  exact Option.filter_eq_some_iff.mpr ⟨rfl, hname⟩

/-- Joining keeps the stem. -/
theorem fileStem?_join (h : right.fileStem? = some stem) (left : Path) :
    (left.join right).fileStem? = some stem := by
  obtain ⟨name, hname, hstem⟩ := Option.map_eq_some_iff.mp h
  rw [fileStem?, fileName?_join hname, Option.map_some, hstem]

/-- A name alone is the file name. -/
theorem IsName.fileName? (h : IsName name) :
    (Path.mk (String.ofList name)).fileName? = some name := by
  have hpieces : (Path.mk (String.ofList name)).pieces = [name] := by
    rw [pieces, String.toList_ofList, List.splitOn_eq_singleton h.whole]
  have hlast : (Path.mk (String.ofList name)).lastPiece? = some name := by
    simp [lastPiece?, hpieces, h.notIdle]
  rw [Path.fileName?, hlast]
  exact Option.filter_eq_some_iff.mpr ⟨rfl, by simpa using h.notAbove⟩

/-- Names joined to the same directory make different paths. -/
theorem join_inj {other : List Char} (h : IsName name) (hother : IsName other) (directory : Path) :
    directory.join ⟨String.ofList name⟩ = directory.join ⟨String.ofList other⟩ ↔ name = other := by
  refine ⟨fun hsame => ?_, fun hsame => by rw [hsame]⟩
  have hname := fileName?_join h.fileName? directory
  rw [hsame, fileName?_join hother.fileName? directory] at hname
  exact (Option.some.inj hname).symm

end FlameFold.Path
