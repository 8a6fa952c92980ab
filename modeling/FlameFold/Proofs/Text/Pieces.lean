import FlameFold.Text.Blank
import FlameFold.Text.Lines
import Mathlib.Data.List.Basic
import Mathlib.Data.List.TakeDrop
import Mathlib.Data.List.TakeWhile
import Mathlib.Tactic.SplitIfs

/-!
# Pieces of a text

What stands between separators has none of them, and lines that are each closed by a newline
are found again as the pieces of the text that they make.
-/

namespace FlameFold.Text

/-- No piece between separators has one. -/
theorem notMem_of_mem_splitOn {α : Type} [DecidableEq α] {separator : α} {text piece : List α}
    (h : piece ∈ text.splitOn separator) : separator ∉ piece := by
  induction text generalizing piece with
  | nil => simp_all
  | cons c rest ih =>
    rw [List.splitOn_cons_eq_if_modifyHead] at h
    split_ifs at h with hc
    · rcases List.mem_cons.mp h with rfl | h
      · exact List.not_mem_nil
      · exact ih h
    · obtain ⟨first, more, hs⟩ := List.exists_cons_of_ne_nil (List.splitOn_ne_nil separator rest)
      rw [hs, List.modifyHead_cons] at h
      rw [hs] at ih
      rcases List.mem_cons.mp h with rfl | h
      · have hfirst := ih List.mem_cons_self
        have hne : separator ≠ c := fun he => hc (beq_iff_eq.mpr he.symm)
        intro hmem
        rcases List.mem_cons.mp hmem with he | hmem
        · exact hne he
        · exact hfirst hmem
      · exact ih (List.mem_cons_of_mem _ h)

/-- Every piece between separators keeps to the text. -/
theorem subset_of_mem_splitOn {α : Type} [DecidableEq α] {separator : α} {text piece : List α}
    (h : piece ∈ text.splitOn separator) : piece ⊆ text := by
  induction text generalizing piece with
  | nil => simp_all
  | cons c rest ih =>
    rw [List.splitOn_cons_eq_if_modifyHead] at h
    split_ifs at h with hc
    · rcases List.mem_cons.mp h with rfl | h
      · exact List.nil_subset _
      · exact List.subset_cons_of_subset c (ih h)
    · obtain ⟨first, more, hs⟩ := List.exists_cons_of_ne_nil (List.splitOn_ne_nil separator rest)
      rw [hs, List.modifyHead_cons] at h
      rw [hs] at ih
      rcases List.mem_cons.mp h with rfl | h
      · exact List.cons_subset_cons c (ih List.mem_cons_self)
      · exact List.subset_cons_of_subset c (ih (List.mem_cons_of_mem _ h))

/-- There is one piece more than there are separators. -/
theorem length_splitOn {α : Type} [DecidableEq α] (separator : α) (text : List α) :
    (text.splitOn separator).length = text.count separator + 1 := by
  induction text with
  | nil => simp
  | cons c rest ih =>
    rw [List.splitOn_cons_eq_if_modifyHead, List.count_cons]
    split_ifs with hc
    · rw [List.length_cons, ih]
    · rw [List.length_modifyHead, ih]

/-- Where there is no separator, the search for one goes to the end. -/
theorem span_whole {separator : Char} {cs : List Char} (h : separator ∉ cs) :
    cs.span (· != separator) = (cs, []) := by
  have hall : ∀ c ∈ cs, (c != separator) = true := fun c hc =>
    bne_iff_ne.mpr (ne_of_mem_of_not_mem hc h)
  rw [List.span_eq_takeWhile_dropWhile, List.takeWhile_eq_self_iff.mpr hall,
    List.dropWhile_eq_nil_iff.mpr hall]

/-- The search for a separator ends at the first one. -/
theorem span_separator {separator : Char} {before : List Char} (h : separator ∉ before)
    (after : List Char) :
    (before ++ separator :: after).span (· != separator) = (before, separator :: after) := by
  have hall : ∀ c ∈ before, (c != separator) = true := fun c hc =>
    bne_iff_ne.mpr (ne_of_mem_of_not_mem hc h)
  rw [List.span_eq_takeWhile_dropWhile, List.takeWhile_append_of_pos hall,
    List.dropWhile_append_of_pos hall]
  simp

/-- A newline parts the pieces before it from those after it. -/
theorem pieces_newline (earlier later : String) :
    pieces (earlier ++ "\n" ++ later) = pieces earlier ++ pieces later := by
  simp [pieces, List.splitOn_append_cons_self]

/-- No piece between newlines has one. -/
theorem notMem_of_mem_pieces {text piece : String} (h : piece ∈ pieces text) :
    '\n' ∉ piece.toList := by
  obtain ⟨chars, hchars, rfl⟩ := List.mem_map.mp h
  rw [String.toList_ofList]
  exact notMem_of_mem_splitOn hchars

/-- A text without newlines is one piece. -/
theorem pieces_eq_singleton {line : String} (h : '\n' ∉ line.toList) : pieces line = [line] := by
  simp [pieces, List.splitOn_eq_singleton h]

/-- The pieces of texts with newlines between them are those of the texts, one text after the
other. -/
theorem pieces_intercalate {texts : List String} (h : texts ≠ []) :
    pieces ("\n".intercalate texts) = texts.flatMap pieces := by
  induction texts with
  | nil => exact absurd rfl h
  | cons text rest ih =>
    cases rest with
    | nil => simp
    | cons next more =>
      rw [String.intercalate_cons_cons, pieces_newline, ih (List.cons_ne_nil next more)]
      exact List.flatMap_cons.symm

/-- The pieces of a text make up the text. -/
theorem intercalate_pieces (text : String) : "\n".intercalate (pieces text) = text := by
  rw [← String.toList_inj, String.toList_intercalate, pieces, List.map_map]
  have hid : String.toList ∘ String.ofList = id := funext fun _ => String.toList_ofList
  rw [hid, List.map_id]
  exact List.intercalate_splitOn '\n'

/-- Trimming keeps to the characters of a text. -/
theorem trim_subset (text : String) : (trim text).toList ⊆ text.toList := by
  intro c hc
  rw [trim, String.toList_ofList, trimChars, trimRight, List.mem_reverse] at hc
  have hfront := List.mem_reverse.mp (List.dropWhile_subset _ hc)
  exact List.dropWhile_subset _ hfront

/-- A text of lines that are each closed by a newline has these lines and nothing after
them. -/
theorem pieces_join {lines : List String} (h : ∀ line ∈ lines, '\n' ∉ line.toList) :
    pieces (String.join (lines.map fun line => line ++ "\n")) = lines ++ [""] := by
  induction lines with
  | nil => simp [pieces]
  | cons line rest ih =>
    have hrest := ih fun other hother => h other (List.mem_cons_of_mem _ hother)
    rw [List.map_cons, String.join_cons, pieces_newline, hrest,
      pieces_eq_singleton (h line List.mem_cons_self)]
    rfl

end FlameFold.Text
