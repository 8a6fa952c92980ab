import FlameFold.Proofs.Path.Ancestors
import FlameFold.Proofs.Text.Utf8
import FlameFold.Recording

/-!
# A file name joined to a directory

A name without slashes that is joined to the path of a directory is the last name of the
joined path, and the paths above the joined path are the path of the directory and those
above it, however the directory is written.
-/

namespace FlameFold.Path

/-- What a plain file can be called: a name without slashes that says something. -/
structure IsName (name : List Char) : Prop where
  /-- It is one piece of a path. -/
  whole : '/' ∉ name
  /-- It is not left out of a path. -/
  notIdle : isIdle name = false
  /-- It is not the directory above. -/
  notAbove : name ≠ above

/-- The characters of a directory with a name after a slash. -/
def glue (body name : List Char) : List Char :=
  if body = [] ∨ body.getLast? = some '/' then body ++ name else body ++ '/' :: name

variable {name : List Char}

theorem IsName.ne_nil (h : IsName name) : name ≠ [] := by
  rintro rfl
  exact absurd h.notIdle (by decide)

theorem IsName.ne_here (h : IsName name) : name ≠ here := by
  rintro rfl
  exact absurd h.notIdle (by decide)

/-- A name that is longer than all that say nothing or lead up is a plain one. -/
theorem isName_of_long (hwhole : '/' ∉ name) (hlong : 2 < name.length) : IsName name := by
  have hne : ∀ short : List Char, short.length ≤ 2 → name ≠ short := by
    rintro short hshort rfl
    exact Nat.not_le.mpr hlong hshort
  refine ⟨hwhole, ?_, hne above (by decide)⟩
  rw [isIdle, beq_false_of_ne (hne [] (by decide)), beq_false_of_ne (hne here (by decide))]
  rfl

/-- The bytes of a plain name are a name of their own. -/
theorem IsName.own (h : IsName name) :
    ¬(name.flatMap String.utf8EncodeChar = [] ∨
        name.flatMap String.utf8EncodeChar = FileSystem.dot) ∧
      name.flatMap String.utf8EncodeChar ≠ FileSystem.dots := by
  have hne : ∀ short : List Char, name ≠ short →
      name.flatMap String.utf8EncodeChar ≠ short.flatMap String.utf8EncodeChar :=
    fun short hshort hbytes => hshort (Text.encoded_injective hbytes)
  have hdot : FileSystem.dot = here.flatMap String.utf8EncodeChar := by decide
  have hdots : FileSystem.dots = above.flatMap String.utf8EncodeChar := by decide
  rw [hdot, hdots]
  exact ⟨fun heq => heq.elim (hne [] h.ne_nil) (hne here h.ne_here), hne above h.notAbove⟩

/-- A text without slashes is no absolute path. -/
theorem head?_ne_slash (h : '/' ∉ name) : name.head? ≠ some '/' :=
  fun hs => h (List.mem_of_mem_head? hs)

/-- A text adds its pieces to those of a directory, in the place of an empty last one. -/
theorem splitOn_glue_text (body text : List Char) :
    ∃ base, (glue body text).splitOn '/' = base ++ text.splitOn '/' ∧
      (body.splitOn '/' = base ∨ body.splitOn '/' = base ++ [[]]) := by
  by_cases hb : body = []
  · exact ⟨[], by simp [glue, hb], by simp [hb]⟩
  · by_cases hlast : body.getLast? = some '/'
    · obtain ⟨most, rfl⟩ := List.getLast?_eq_some_iff.mp hlast
      refine ⟨most.splitOn '/', ?_, .inr ?_⟩
      · rw [glue, if_pos (.inr hlast), List.append_assoc, List.singleton_append,
          List.splitOn_append_cons_self]
      · rw [List.splitOn_append_cons_self, List.splitOn_nil]
    · refine ⟨body.splitOn '/', ?_, .inl rfl⟩
      rw [glue, if_neg (by simp [hb, hlast]), List.splitOn_append_cons_self]

/-- A name adds one piece to those of a directory, in the place of an empty last one. -/
theorem splitOn_glue (h : '/' ∉ name) (body : List Char) :
    ∃ base, (glue body name).splitOn '/' = base ++ [name] ∧
      (body.splitOn '/' = base ∨ body.splitOn '/' = base ++ [[]]) := by
  obtain ⟨base, hglue, hbase⟩ := splitOn_glue_text body name
  rw [List.splitOn_eq_singleton h] at hglue
  exact ⟨base, hglue, hbase⟩

/-- Joining a path that does not start at the root glues its text to that of the directory. -/
theorem join_text_relative {right : Path} (h : right.isAbsolute = false) (left : Path) :
    (left.join right).text.toList = glue left.text.toList right.text.toList := by
  rw [join, h]
  by_cases hb : left.text = ""
  · simp [glue, hb]
  · have hb' : left.text.toList ≠ [] := by simpa using hb
    by_cases hlast : left.text.toList.getLast? = some '/'
    · simp [glue, hlast]
    · simp [glue, hlast, hb, hb']

/-- Joining a text without slashes glues it to the text of the directory. -/
theorem join_text_whole (h : '/' ∉ name) (directory : Path) :
    (directory.join ⟨String.ofList name⟩).text.toList = glue directory.text.toList name := by
  have hrelative : (Path.mk (String.ofList name)).isAbsolute = false := by
    simp [isAbsolute, head?_ne_slash h]
  rw [join_text_relative hrelative, String.toList_ofList]

/-- Joining a name glues it to the text of the directory. -/
theorem join_text (h : IsName name) (directory : Path) :
    (directory.join ⟨String.ofList name⟩).text.toList = glue directory.text.toList name :=
  join_text_whole h.whole directory

/-- The names of the joined path end in the name. -/
theorem names_join_getLast? (h : IsName name) (directory : Path) :
    (FileSystem.names (directory.join ⟨String.ofList name⟩)).getLast? =
      some (name.flatMap String.utf8EncodeChar) := by
  obtain ⟨base, hglue, -⟩ := splitOn_glue h.whole directory.text.toList
  rw [FileSystem.names, pieces, join_text h, hglue]
  simp

/-- Above a name in a directory are the paths of the directory. -/
theorem climb_glue (h : IsName name) (start body : List Char) :
    ∃ first, climb start ((glue body name).splitOn '/').reverse =
      first :: climb start (body.splitOn '/').reverse := by
  obtain ⟨base, hglue, hbody⟩ := splitOn_glue h.whole body
  refine ⟨ofReversedPieces start (name :: base.reverse), ?_⟩
  rw [climb_body hbody, hglue, List.reverse_append, List.reverse_singleton,
    List.singleton_append, climb, if_neg (by simp [h.notIdle])]

/-- A character before the body of a directory stays before the name joined to it. -/
theorem glue_cons (c : Char) {body : List Char} (hbody : body ≠ [] ∨ c = '/') :
    glue (c :: body) name = c :: glue body name := by
  by_cases hb : body = []
  · have hc : c = '/' := hbody.resolve_left (· hb)
    simp [glue, hb, hc]
  · simp only [glue, List.cons_ne_nil, false_or, hb, List.getLast?_cons_of_ne_nil hb]
    split <;> rfl

/-- A name joined to a path that starts from nothing makes another such path. -/
theorem head_glue {joined directory : Path} (h : IsName name)
    (habsolute : directory.text.toList.head? ≠ some '/') (hhere : directory.text.toList ≠ here)
    (hdotted : ∀ rest, directory.text.toList ≠ '.' :: '/' :: rest)
    (htext : joined.text.toList = glue directory.text.toList name) :
    joined.head = ([], glue directory.text.toList name) := by
  rw [← htext]
  cases hd : directory.text.toList with
  | nil =>
    rw [hd, glue, if_pos (.inl rfl), List.nil_append] at htext
    apply head_relative
    · rw [htext]
      exact head?_ne_slash h.whole
    · rw [htext]
      exact h.ne_here
    · intro rest hrest
      exact h.whole (by rw [← htext, hrest]; simp)
  | cons c body =>
    rw [hd] at htext habsolute hhere hdotted
    cases body with
    | nil =>
      have hc : ¬c = '/' := by simpa using habsolute
      have hj : joined.text.toList = c :: '/' :: name := by simp [htext, glue, hc]
      have hdot : ¬c = '.' := by simpa [here] using hhere
      apply head_relative <;> simp [hj, hc, hdot, here]
    | cons next more =>
      rw [glue_cons c (.inl (List.cons_ne_nil _ _))] at htext
      obtain ⟨tail, htail⟩ : ∃ tail, glue (next :: more) name = next :: tail := by
        unfold glue
        split <;> exact ⟨_, rfl⟩
      rw [htail] at htext
      apply head_relative
      · simpa [htext] using habsolute
      · simp [htext, here]
      · intro rest hrest
        rw [htext] at hrest
        cases hrest
        exact hdotted more rfl

/-- A name joined to a directory starts where the directory does, and is glued to its body. After a
lone dot it is glued to a slash. -/
theorem head_join (h : IsName name) (directory : Path) :
    ∃ start body base, directory.head = (start, body) ∧
      (directory.join ⟨String.ofList name⟩).head = (start, glue base name) ∧
      (base = body ∨ body = [] ∧ base = ['/']) := by
  have htext := join_text h directory
  by_cases habsolute : directory.text.toList.head? = some '/'
  · obtain ⟨rest, hd⟩ := List.head?_eq_some_iff.mp habsolute
    rw [hd, glue_cons _ (.inr rfl)] at htext
    exact ⟨_, _, _, head_absolute hd, head_absolute htext, .inl rfl⟩
  by_cases hhere : directory.text.toList = here
  · have hj : glue here name = '.' :: '/' :: name := by simp [glue, here]
    rw [hhere, hj] at htext
    have hjoined : (directory.join ⟨String.ofList name⟩).head = (here, glue ['/'] name) := by
      rw [head_dotted htext]
      simp [glue]
    exact ⟨_, _, _, head_here hhere, hjoined, .inr ⟨rfl, rfl⟩⟩
  by_cases hdotted : ∃ rest, directory.text.toList = '.' :: '/' :: rest
  · obtain ⟨rest, hd⟩ := hdotted
    rw [hd, glue_cons _ (.inl (List.cons_ne_nil _ _)), glue_cons _ (.inr rfl)] at htext
    have hjoined : (directory.join ⟨String.ofList name⟩).head =
        (here, glue ('/' :: rest) name) := by
      rw [head_dotted htext, glue_cons _ (.inr rfl)]
    exact ⟨_, _, _, head_dotted hd, hjoined, .inl rfl⟩
  · have hrest : ∀ rest, directory.text.toList ≠ '.' :: '/' :: rest :=
      fun rest hd => hdotted ⟨rest, hd⟩
    exact ⟨_, _, _, head_relative habsolute hhere hrest,
      head_glue h habsolute hhere hrest htext, .inl rfl⟩

/-- The paths above a joined path are the path of the directory and those above it. -/
theorem ancestors_join (h : IsName name) (directory : Path) :
    ∃ first, (directory.join ⟨String.ofList name⟩).ancestors = first :: directory.ancestors := by
  obtain ⟨start, body, base, hp, hj, hbase⟩ := head_join h directory
  obtain ⟨first, hfirst⟩ := climb_glue h start base
  have hclimb : climb start (base.splitOn '/').reverse =
      climb start (body.splitOn '/').reverse := by
    obtain rfl | ⟨rfl, rfl⟩ := hbase
    · rfl
    · rw [List.splitOn_nil]
      exact climb_body (.inr (by simp [List.splitOn_cons_eq_if_modifyHead]))
  refine ⟨first, ?_⟩
  rw [ancestors, ancestors, hp, hj]
  simp only [hfirst, hclimb, List.cons_append]

/-- The directory that a joined path lies in is the directory it was joined to. -/
theorem parent?_join (h : IsName name) (directory : Path) :
    (directory.join ⟨String.ofList name⟩).parent? = directory.ancestors.head? := by
  obtain ⟨first, hfirst⟩ := ancestors_join h directory
  rw [parent?, hfirst, List.getElem?_cons_succ, List.head?_eq_getElem?]

end FlameFold.Path
