import FlameFold.FileSystem.Lookup
import FlameFold.Proofs.Text.Pieces

/-!
# The paths above a path

A path starts from the root, from a dot or from nothing, and the pieces after that are
taken off one by one. Idle pieces at the end do not count: the first of the paths above a
path has the same paths above it as the path itself.
-/

namespace FlameFold.Path

/-- The pieces of an absolute path begin after its slash. -/
theorem head_absolute {p : Path} {rest : List Char} (h : p.text.toList = '/' :: rest) :
    p.head = (['/'], rest) := by
  simp [head, h]

/-- A lone dot is where a path starts. -/
theorem head_here {p : Path} (h : p.text.toList = here) : p.head = (here, []) := by
  simp [head, h, here]

/-- A dot before a slash is where a path starts. -/
theorem head_dotted {p : Path} {rest : List Char} (h : p.text.toList = '.' :: '/' :: rest) :
    p.head = (here, '/' :: rest) := by
  simp [head, h]

/-- All other paths start from nothing. -/
theorem head_relative {p : Path} (habsolute : p.text.toList.head? ≠ some '/')
    (hhere : p.text.toList ≠ here) (hdotted : ∀ rest, p.text.toList ≠ '.' :: '/' :: rest) :
    p.head = ([], p.text.toList) := by
  unfold head
  split
  · next h => simp [h] at habsolute
  · next h => exact absurd h hhere
  · next h => exact absurd h (hdotted _)
  · rfl

/-- How a path can start, and what can follow: the root and anything, a dot and nothing or
a slash, or nothing and what begins in neither way. -/
def Begins (start body : List Char) : Prop :=
  start = ['/'] ∨ (start = here ∧ (body = [] ∨ body.head? = some '/')) ∨
    (start = [] ∧ body.head? ≠ some '/' ∧ body ≠ here ∧ ∀ rest, body ≠ '.' :: '/' :: rest)

/-- A path is cut after its start. -/
theorem head_eq_iff {p : Path} {start body : List Char} :
    p.head = (start, body) ↔ p.text.toList = start ++ body ∧ Begins start body := by
  constructor
  · intro h
    unfold head at h
    split at h
    · next ht =>
      cases h
      exact ⟨ht, .inl rfl⟩
    · next ht =>
      cases h
      exact ⟨ht, .inr (.inl ⟨rfl, .inl rfl⟩)⟩
    · next ht =>
      cases h
      exact ⟨ht, .inr (.inl ⟨rfl, .inr rfl⟩)⟩
    · next habsolute hhere hdotted =>
      cases h
      refine ⟨rfl, .inr (.inr ⟨rfl, fun h => ?_, hhere, hdotted⟩)⟩
      obtain ⟨rest, ht⟩ := List.head?_eq_some_iff.mp h
      exact habsolute rest ht
  · rintro ⟨ht, rfl | ⟨rfl, rfl | h⟩ | ⟨rfl, habsolute, hhere, hdotted⟩⟩
    · exact head_absolute ht
    · exact head_here ht
    · obtain ⟨rest, rfl⟩ := List.head?_eq_some_iff.mp h
      exact head_dotted ht
    · rw [List.nil_append] at ht
      rw [← ht] at habsolute hhere hdotted ⊢
      exact head_relative habsolute hhere hdotted

/-- The start of a path can stand alone. -/
theorem Begins.alone {start body : List Char} (h : Begins start body) : Begins start [] := by
  rcases h with h | ⟨h, -⟩ | ⟨h, -⟩
  · exact .inl h
  · exact .inr (.inl ⟨h, .inl rfl⟩)
  · exact .inr (.inr ⟨h, by simp [here]⟩)

/-- What stands before a slash of a body can stand in its place. -/
theorem Begins.cut {start body kept : List Char} (h : Begins start body)
    (hkept : kept = body ∨ ∃ behind, body = kept ++ '/' :: behind) (hnil : kept ≠ [])
    (hhere : kept ≠ here) : Begins start kept := by
  rcases hkept with rfl | ⟨behind, rfl⟩
  · exact h
  · obtain ⟨c, rest, rfl⟩ := List.exists_cons_of_ne_nil hnil
    rcases h with h | ⟨h, hbody⟩ | ⟨h, habsolute, -, hdotted⟩
    · exact .inl h
    · exact .inr (.inl ⟨h, .inr (by simpa using hbody)⟩)
    · refine .inr (.inr ⟨h, by simpa using habsolute, hhere, fun more hmore => ?_⟩)
      exact hdotted (more ++ '/' :: behind) (by rw [hmore]; rfl)

/-- An empty last piece has no place among the paths above. -/
theorem climb_body {start body : List Char} {base : List (List Char)}
    (h : body.splitOn '/' = base ∨ body.splitOn '/' = base ++ [[]]) :
    climb start (body.splitOn '/').reverse = climb start base.reverse := by
  rcases h with h | h
  · rw [h]
  · have hidle : isIdle [] = true := by decide
    rw [h, List.reverse_append, List.reverse_singleton, List.singleton_append, climb,
      if_pos hidle]

/-- Idle last pieces have no place among the paths above. -/
theorem climb_dropWhile (start : List Char) (pieces : List (List Char)) :
    climb start (pieces.dropWhile isIdle) = climb start pieces := by
  induction pieces with
  | nil => rfl
  | cons piece rest ih =>
    by_cases hidle : isIdle piece = true
    · rw [List.dropWhile_cons_of_pos hidle, ih, climb, if_pos hidle]
    · rw [List.dropWhile_cons_of_neg hidle]

/-- Pieces put together begin a text that further pieces are put to. -/
theorem intercalate_append {pieces more : List (List Char)} (hp : pieces ≠ [])
    (hm : more ≠ []) : ['/'].intercalate (pieces ++ more) =
      ['/'].intercalate pieces ++ '/' :: ['/'].intercalate more := by
  induction pieces with
  | nil => exact absurd rfl hp
  | cons piece rest ih =>
    by_cases hr : rest = []
    · rw [hr, List.singleton_append, List.intercalate_cons_of_ne_nil hm,
        List.intercalate_singleton, List.append_assoc, List.singleton_append]
    · rw [List.cons_append, List.intercalate_cons_of_ne_nil (by simp [hr]), ih hr,
        List.intercalate_cons_of_ne_nil hr]
      simp

/-- What the pieces of a body without the idle last ones come to: all of the body, or what
stands before one of its slashes. -/
theorem kept_begins {body : List Char} {kept : List (List Char)}
    (hkept : (body.splitOn '/').reverse.dropWhile isIdle = kept) (hne : kept ≠ []) :
    ['/'].intercalate kept.reverse = body ∨
      ∃ behind, body = ['/'].intercalate kept.reverse ++ '/' :: behind := by
  have hall : (body.splitOn '/').reverse.takeWhile isIdle ++ kept = (body.splitOn '/').reverse := by
    rw [← hkept]
    exact List.takeWhile_append_dropWhile
  have hbody := congrArg (fun l => ['/'].intercalate l.reverse) hall
  simp only [List.reverse_append, List.reverse_reverse, List.intercalate_splitOn] at hbody
  by_cases hidle : (List.takeWhile isIdle (body.splitOn '/').reverse).reverse = []
  · rw [hidle, List.append_nil] at hbody
    exact .inl hbody
  · rw [intercalate_append (by simpa using hne) hidle] at hbody
    exact .inr ⟨_, hbody.symm⟩

/-- The pieces that are kept of a body are those of what they come to. -/
theorem splitOn_kept {body : List Char} {kept : List (List Char)}
    (hkept : (body.splitOn '/').reverse.dropWhile isIdle = kept) (hne : kept ≠ []) :
    (['/'].intercalate kept.reverse).splitOn '/' = kept.reverse := by
  refine List.splitOn_intercalate '/' (fun piece hpiece => ?_) (by simpa using hne)
  have hmem : piece ∈ (body.splitOn '/').reverse.dropWhile isIdle := by
    rw [hkept]
    exact List.mem_reverse.mp hpiece
  exact Text.notMem_of_mem_splitOn (List.mem_reverse.mp (List.dropWhile_subset _ hmem))

/-- What is kept of a body does not come to an idle piece. -/
theorem kept_ne_idle {body idle : List Char} {kept : List (List Char)}
    (hkept : (body.splitOn '/').reverse.dropWhile isIdle = kept) (hne : kept ≠ [])
    (hidle : isIdle idle = true) (hslash : '/' ∉ idle) : ['/'].intercalate kept.reverse ≠ idle := by
  intro h
  have hsplit := splitOn_kept hkept hne
  rw [h, List.splitOn_eq_singleton hslash] at hsplit
  have hsingle : kept = [idle] := by
    rw [← List.reverse_reverse kept, ← hsplit, List.reverse_singleton]
  have hhead := List.head?_dropWhile_not isIdle (body.splitOn '/').reverse
  rw [hkept, hsingle] at hhead
  simp [hidle] at hhead

/-- The paths above a path, by its start and its pieces. -/
theorem ancestors_eq {p : Path} {start body : List Char} (h : p.head = (start, body)) :
    p.ancestors = climb start (body.splitOn '/').reverse ++
      if start == here then [⟨""⟩] else [] := by
  rw [ancestors, h]

/-- The first of the paths above a path has the same paths above it. -/
theorem ancestors_of_head? {p first : Path} (h : p.ancestors.head? = some first) :
    first.ancestors = p.ancestors := by
  cases hp : p.head with
  | mk start body =>
    have hbegins := (head_eq_iff.mp hp).2
    have hall := ancestors_eq hp
    rw [← climb_dropWhile] at hall
    cases hkept : (body.splitOn '/').reverse.dropWhile isIdle with
    | nil =>
      rw [hkept, climb] at hall
      rw [hall] at h ⊢
      cases h
      have hfirst : (Path.mk (String.ofList start)).head = (start, []) :=
        head_eq_iff.mpr ⟨by simp, hbegins.alone⟩
      rw [ancestors_eq hfirst, ← climb_dropWhile]
      rfl
    | cons piece rest =>
      have hne : piece :: rest ≠ [] := List.cons_ne_nil _ _
      have hpiece : isIdle piece = false := by
        have hhead := List.head?_dropWhile_not isIdle (body.splitOn '/').reverse
        rwa [hkept] at hhead
      have hcut := hbegins.cut (kept_begins hkept hne)
        (kept_ne_idle hkept hne (by decide) (by decide))
        (kept_ne_idle hkept hne (by decide) (by decide))
      rw [hkept, climb, if_neg (by simp [hpiece])] at hall
      rw [hall] at h ⊢
      cases h
      have hfirst : (ofReversedPieces start (piece :: rest)).head =
          (start, ['/'].intercalate (piece :: rest).reverse) :=
        head_eq_iff.mpr ⟨by rw [ofReversedPieces, String.toList_ofList], hcut⟩
      rw [ancestors_eq hfirst, splitOn_kept hkept hne, List.reverse_reverse, climb,
        if_neg (by simp [hpiece])]

/-- The paths above a path that lies in a directory are those of the directory. -/
theorem ancestors_parent? {p directory : Path} (h : p.parent? = directory.ancestors.head?) :
    p.parent?.elim [] ancestors = directory.ancestors := by
  rw [h]
  cases hd : directory.ancestors.head? with
  | none => exact (List.head?_eq_none_iff.mp hd).symm
  | some first => exact ancestors_of_head? hd

end FlameFold.Path
