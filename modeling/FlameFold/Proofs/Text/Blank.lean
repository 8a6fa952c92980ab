import FlameFold.Proofs.Text.Pieces
import Mathlib.Data.List.DropRight
import Mathlib.Data.List.TakeWhile

/-!
# White space around a text

Trimming forgets all white space that stands around a text, and with it the carriage return
that some systems put before a newline.
-/

namespace FlameFold.Text

/-- A text that says something and has no white space around it. -/
structure Tidy (text : String) : Prop where
  /-- It is more than white space. -/
  full : isBlankText text = false
  /-- No white space stands around it. -/
  trimmed : trim text = text

/-- Nothing is left of white space, and something of any other characters. -/
theorem trimChars_eq_nil_iff {cs : List Char} : trimChars cs = [] ↔ cs.all isBlank = true := by
  rw [trimChars, trimRight, List.reverse_eq_nil_iff, List.dropWhile_eq_nil_iff, List.all_eq_true]
  constructor
  · intro h
    have hfront : ∀ c ∈ cs.dropWhile isBlank, isBlank c = true := fun c hc =>
      h c (List.mem_reverse.mpr hc)
    by_contra hcs
    -- the first character that is kept at the front is no white space
    have hfirst := List.head?_dropWhile_not isBlank cs
    cases hkept : cs.dropWhile isBlank with
    | nil => exact hcs (List.dropWhile_eq_nil_iff.mp hkept)
    | cons c rest =>
      rw [hkept] at hfirst hfront
      simp [hfront c List.mem_cons_self] at hfirst
  · exact fun h c hc => h c (List.dropWhile_subset _ (List.mem_reverse.mp hc))

/-- Trimmed characters have no white space around them. -/
theorem trimChars_trimChars (cs : List Char) : trimChars (trimChars cs) = trimChars cs := by
  have hfront : (trimChars cs).dropWhile isBlank = trimChars cs := by
    refine List.dropWhile_eq_self_iff.mpr fun hlength hblank => ?_
    have hkept : trimChars cs <+: cs.dropWhile isBlank := List.rdropWhile_prefix _ _
    obtain ⟨dropped, hdropped⟩ := hkept
    have hfirst := List.head?_dropWhile_not isBlank cs
    rw [← hdropped, List.head?_append_of_ne_nil _ (List.ne_nil_of_length_pos hlength),
      List.head?_eq_getElem?, List.getElem?_eq_getElem hlength] at hfirst
    simp [hblank] at hfirst
  exact (congrArg trimRight hfront).trans (List.rdropWhile_idempotent _ _)

/-- A trimmed text has no white space around it. -/
theorem trim_trim (text : String) : trim (trim text) = trim text := by
  rw [trim, trim, String.toList_ofList, trimChars_trimChars]

/-- Nothing is left of a text exactly if it is white space. -/
theorem trim_eq_empty_iff {text : String} : trim text = "" ↔ isBlankText text = true := by
  rw [trim, String.ofList_eq_empty_iff]
  exact trimChars_eq_nil_iff

/-- What is left of a text, if anything is, is tidy. -/
theorem tidy_trim {text : String} (h : trim text ≠ "") : Tidy (trim text) where
  full := by
    rw [← Bool.not_eq_true, ← trim_eq_empty_iff, trim_trim]
    exact h
  trimmed := trim_trim text

/-- White space at the end is dropped together with the white space before it. -/
theorem trimRight_append {right : List Char} (h : right.all isBlank = true) (cs : List Char) :
    trimRight (cs ++ right) = trimRight cs := by
  have hreverse : ∀ c ∈ right.reverse, isBlank c = true := fun c hc =>
    List.all_eq_true.mp h c (List.mem_reverse.mp hc)
  rw [trimRight, trimRight, List.reverse_append, List.dropWhile_append_of_pos hreverse]

/-- White space at either end makes no difference to the trimmed characters. -/
theorem trimChars_padded {left right : List Char} (hleft : left.all isBlank = true)
    (hright : right.all isBlank = true) (cs : List Char) :
    trimChars (left ++ cs ++ right) = trimChars cs := by
  rw [trimChars, trimChars, List.append_assoc,
    List.dropWhile_append_of_pos (List.all_eq_true.mp hleft), List.dropWhile_append]
  split
  · next hempty =>
    -- all of `cs` is white space, so only white space is left of the whole text
    have hnone : right.dropWhile isBlank = [] :=
      List.dropWhile_eq_nil_iff.mpr (List.all_eq_true.mp hright)
    rw [hnone, List.isEmpty_iff.mp hempty]
  · exact trimRight_append hright _

/-- White space at either end makes no difference to the trimmed text. -/
theorem trim_padded {left right : String} (hleft : isBlankText left = true)
    (hright : isBlankText right = true) (text : String) :
    trim (left ++ text ++ right) = trim text := by
  rw [trim, trim, String.toList_append, String.toList_append, trimChars_padded hleft hright]

/-- Something is left of characters that are more than white space. -/
theorem dropWhile_ne_nil {cs : List Char} (h : cs.all isBlank = false) :
    cs.dropWhile isBlank ≠ [] := by
  intro hnone
  rw [List.all_eq_true.mpr (List.dropWhile_eq_nil_iff.mp hnone)] at h
  cases h

/-- White space at the end stays where something else follows it. -/
theorem trimRight_append_visible {right : List Char} (h : right.all isBlank = false)
    (cs : List Char) : trimRight (cs ++ right) = cs ++ trimRight right := by
  have hkept : (right.reverse.dropWhile isBlank).isEmpty = false :=
    List.isEmpty_eq_false_iff.mpr (dropWhile_ne_nil (List.all_reverse.trans h))
  rw [trimRight, trimRight, List.reverse_append, List.dropWhile_append, hkept, if_neg (by decide),
    List.reverse_append, List.reverse_reverse]

/-- Trimming drops the white space before an indented text, at its front, and at the end of what
follows it. -/
theorem trimChars_indented {indent cs : List Char} (hindent : indent.all isBlank = true)
    (hcs : cs.all isBlank = false) (rest : List Char) :
    trimChars (indent ++ cs ++ rest) = trimRight (cs.dropWhile isBlank ++ rest) := by
  have hkept : (cs.dropWhile isBlank).isEmpty = false :=
    List.isEmpty_eq_false_iff.mpr (dropWhile_ne_nil hcs)
  rw [trimChars, List.append_assoc, List.dropWhile_append_of_pos (List.all_eq_true.mp hindent),
    List.dropWhile_append, hkept, if_neg (by decide)]

/-- No white space stands at the front of a text. -/
def Flush (text : String) : Prop := text.toList.dropWhile isBlank = text.toList

/-- Trimmed characters begin with all that they were only if nothing has been trimmed. -/
theorem prefix_trimChars_iff {cs : List Char} : cs <+: trimChars cs ↔ trimChars cs = cs := by
  constructor
  · intro h
    have hkept : trimChars cs <+: cs.dropWhile isBlank := List.rdropWhile_prefix _ _
    have hlength := hkept.length_le.trans (List.dropWhile_suffix isBlank).length_le
    exact (h.eq_of_length_le hlength).symm
  · intro h
    exact ⟨[], (List.append_nil cs).trans h.symm⟩

/-- Characters at whose front white space has been dropped begin with all that they were only if
there was none. -/
theorem prefix_dropWhile_append_iff {cs : List Char} (hcs : cs.all isBlank = false)
    (rest : List Char) :
    cs <+: cs.dropWhile isBlank ++ rest ↔ cs.dropWhile isBlank = cs := by
  constructor
  · intro h
    cases cs with
    | nil => rfl
    | cons c more =>
      cases hkept : (c :: more).dropWhile isBlank with
      | nil => exact absurd hkept (dropWhile_ne_nil hcs)
      | cons first others =>
        -- the first of all characters is the first of those that are kept, so it is no white space
        have hfirst := List.head?_dropWhile_not isBlank (c :: more)
        rw [hkept] at h hfirst
        have hc : c = first := (List.cons_prefix_cons.mp h).1
        have hvisible : ¬isBlank c = true := by simpa [hc] using hfirst
        rw [← hkept, List.dropWhile_cons_of_neg hvisible]
  · intro h
    rw [h]
    exact List.prefix_append _ _

/-- A text is trimmed if its characters are. -/
theorem trim_eq_self_iff {text : String} :
    trim text = text ↔ trimChars text.toList = text.toList := by
  rw [trim, ← String.toList_inj, String.toList_ofList]

/-- No white space stands at the front of a text that has none around it. -/
theorem flush_of_trim {text : String} (h : trim text = text) : Flush text := by
  have hkept : trimChars text.toList <+: text.toList.dropWhile isBlank :=
    List.rdropWhile_prefix _ _
  have hlength := hkept.length_le
  rw [trim_eq_self_iff.mp h] at hlength
  exact (List.dropWhile_suffix isBlank).eq_of_length_le hlength

/-- An indented text with something after it begins, once it is trimmed, with the text itself
exactly if no white space stands at the front of the text, and none at its end where nothing
else follows. -/
theorem beginsWith_trim_iff {text indent : String} (htext : isBlankText text = false)
    (hindent : isBlankText indent = true) (rest : String) :
    beginsWith text (trim (indent ++ text ++ rest)) = true ↔
      Flush text ∧ (trim text = text ∨ isBlankText rest = false) := by
  rw [beginsWith, List.isPrefixOf_iff_prefix, trim, String.toList_ofList, String.toList_append,
    String.toList_append]
  cases hrest : isBlankText rest with
  | true =>
    rw [trimChars_padded hindent hrest, prefix_trimChars_iff, ← trim_eq_self_iff]
    simpa using flush_of_trim
  | false =>
    rw [trimChars_indented hindent htext, trimRight_append_visible hrest,
      prefix_dropWhile_append_iff htext]
    simp [Flush]

/-- A carriage return at the end is white space. -/
theorem trimChars_withoutReturn (line : List Char) :
    trimChars (withoutReturn line) = trimChars line := by
  unfold withoutReturn
  split
  · next hlast =>
    have hline : [] ++ line.dropLast ++ ['\r'] = line :=
      List.dropLast_append_getLast? '\r' hlast
    have hreturn : ['\r'].all isBlank = true := by decide
    have hpadded := trimChars_padded List.all_nil hreturn line.dropLast
    rw [← hpadded, hline]
  · rfl

/-- The lines of a text are its pieces with less white space. Only an empty last piece is no
line. -/
theorem trim_lines (text : String) :
    (lines text).map trim = (pieces text).map trim ∨
      (lines text).map trim ++ [""] = (pieces text).map trim := by
  obtain ⟨earlier, last, hcut⟩ := (List.eq_nil_or_concat' (text.toList.splitOn '\n')).resolve_left
    (List.splitOn_ne_nil '\n' text.toList)
  let trimmed := trim ∘ String.ofList
  have hpieces : (pieces text).map trim = earlier.map trimmed ++ [trimmed last] := by
    rw [pieces, hcut, List.map_map, List.map_append, List.map_singleton]
  have hclosed : (earlier.map withoutReturn).map trimmed = earlier.map trimmed := by
    rw [List.map_map]
    refine List.map_congr_left fun line _ => ?_
    simp only [trimmed, Function.comp_apply, trim, String.toList_ofList, trimChars_withoutReturn]
  have hlines : (lines text).map trim =
      earlier.map trimmed ++ (([last].filter (· ≠ [])).map trimmed) := by
    rw [lines, hcut]
    simp only [List.dropLast_concat, List.getLast?_concat]
    rw [List.map_map, List.map_append, hclosed]
    by_cases hlast : last = [] <;> simp [hlast, trimmed]
  by_cases hlast : last = []
  · right
    have htrim : trimmed [] = "" := by decide
    rw [hlines, hpieces, hlast, htrim]
    simp
  · left
    rw [hlines, hpieces]
    simp [hlast]

/-- Carriage returns before the newlines between lines make no difference to the trimmed pieces
of the text. -/
theorem trim_pieces_returns {lines : List String} (h : ∀ line ∈ lines, '\n' ∉ line.toList) :
    (pieces ("\r\n".intercalate lines)).map trim = (pieces ("\n".intercalate lines)).map trim := by
  induction lines with
  | nil => rfl
  | cons line rest ih =>
    cases rest with
    | nil => rfl
    | cons next more =>
      have hrest := ih fun other hother => h other (List.mem_cons_of_mem _ hother)
      have hline : '\n' ∉ line.toList := h line List.mem_cons_self
      have hreturned : '\n' ∉ (line ++ "\r").toList := by simp [hline]
      have htrim : trim (line ++ "\r") = trim line := by
        have hpadded := trim_padded (by decide : isBlankText "" = true)
          (by decide : isBlankText "\r" = true) line
        rwa [String.empty_append] at hpadded
      have hnewline : line ++ "\r\n" = line ++ "\r" ++ "\n" := by
        rw [String.append_assoc]
        rfl
      rw [String.intercalate_cons_cons, String.intercalate_cons_cons, hnewline, pieces_newline,
        pieces_newline, List.map_append, List.map_append, hrest, pieces_eq_singleton hreturned,
        pieces_eq_singleton hline, List.map_singleton, List.map_singleton, htrim]

end FlameFold.Text
