import FlameFold.Path.Order
import FlameFold.Proofs.Path.Join

/-!
# The order of names that are joined to one directory

A name joined to a directory is one more component behind those of the directory, however the
directory is written. So joined paths are in the order of the bytes of their names.
-/

namespace FlameFold.Path

variable {name other : List Char}

/-- A plain name is a component by its bytes. -/
theorem component?_name (h : IsName name) :
    component? name = some (.name (name.flatMap String.utf8EncodeChar)) := by
  rw [component?, if_neg (by simp [h.notIdle]), if_neg (by simpa using h.notAbove)]

/-- A slash at the end of a body is followed by no component. -/
theorem components_body {body : List Char} {base : List (List Char)}
    (h : body.splitOn '/' = base ∨ body.splitOn '/' = base ++ [[]]) :
    (body.splitOn '/').filterMap component? = base.filterMap component? := by
  obtain h | h := h
  · rw [h]
  · rw [h, List.filterMap_append]
    exact List.append_nil _

/-- The components of a joined path are those of the directory and then the name. -/
theorem components_join (h : IsName name) (directory : Path) :
    (directory.join ⟨String.ofList name⟩).components =
      directory.components ++ [.name (name.flatMap String.utf8EncodeChar)] := by
  obtain ⟨start, body, base, hp, hj, hbase⟩ := head_join h directory
  have hbody : (base.splitOn '/').filterMap component? =
      (body.splitOn '/').filterMap component? := by
    obtain rfl | ⟨rfl, rfl⟩ := hbase
    · rfl
    · rw [List.splitOn_nil]
      exact components_body (.inr (by simp [List.splitOn_cons_eq_if_modifyHead]))
  obtain ⟨pieces, hglue, hpieces⟩ := splitOn_glue h.whole base
  rw [components, components, hp, hj]
  simp only [hglue, List.filterMap_append, ← components_body hpieces, hbody, List.append_assoc]
  rw [List.filterMap_cons_some (component?_name h), List.filterMap_nil]

/-- What stands before two lists alike does not decide between them. -/
theorem append_lt_append_iff (first a b : List (List UInt8)) :
    first ++ a < first ++ b ↔ a < b := by
  induction first with
  | nil => rfl
  | cons x rest ih => simp [ih]

/-- Names joined to one directory are in the order of their bytes. -/
theorem rank_join_lt_iff (h : IsName name) (h' : IsName other) (directory : Path) :
    (directory.join ⟨String.ofList name⟩).rank < (directory.join ⟨String.ofList other⟩).rank ↔
      name.flatMap String.utf8EncodeChar < other.flatMap String.utf8EncodeChar := by
  rw [rank, rank, components_join h, components_join h', List.map_append, List.map_append,
    append_lt_append_iff]
  simp [Component.rank, List.cons_lt_cons_iff]

/-- A path with idle pieces has the rank of the path without them, and a directory comes before
what lies in it and after what has a lesser name. -/
example : (Path.mk "./a//./b/").rank = (Path.mk "./a/b").rank ∧
    (Path.mk "a").rank < (Path.mk "a/b").rank ∧ (Path.mk "a/b").rank < (Path.mk "a.b").rank := by
  decide

end FlameFold.Path
