import FlameFold.Proofs.Toml.Soundness

/-!
# The statements of a document

What a line says can be read without the lines before it. Those decide what comes of it: the
statements of a document are carried out one after another, from the document with nothing in
it.
-/

namespace FlameFold.Toml

/-- What a line of a document says. -/
inductive Statement where
  /-- Nothing. -/
  | blank
  /-- The header of a table. -/
  | opens (path : List String) (key : String)
  /-- The header of one more of the tables that share it. -/
  | adds (path : List String) (key : String)
  /-- A key with its value. -/
  | gives (path : List String) (key : String) (value : Value)

namespace Statement

/-- Carry out a statement. -/
def apply (document : Document) : Statement → Option Document
  | .blank => some document
  | .opens path key =>
    (document.entries.openTable path key).map fun entries => ⟨entries, path ++ [key]⟩
  | .adds path key =>
    (document.entries.openElement path key).map fun entries => ⟨entries, path ++ [key]⟩
  | .gives path key value =>
    (document.entries.setUnder document.header path key value).map fun entries =>
      ⟨entries, document.header⟩

/-- Read the statement of a line, from its first character that is no space. -/
def read : List Char → Option (Statement × List Char)
  | '[' :: '[' :: rest => do
    let ((path, key), rest) ← Key.read rest
    let rest ← Document.endLine (← Document.pass [']', ']'] rest)
    return (.adds path key, rest)
  | '[' :: rest => do
    let ((path, key), rest) ← Key.read rest
    let rest ← Document.endLine (← Document.pass [']'] rest)
    return (.opens path key, rest)
  | '#' :: rest => (Document.endLine ('#' :: rest)).map fun rest => (.blank, rest)
  | cs =>
    match lineEnd? cs with
    | some rest => some (.blank, rest)
    | none => do
      let ((path, key), rest) ← Key.read cs
      let (value, rest) ← Value.read (skipSpaces (← Document.pass ['='] rest))
      let rest ← Document.endLine rest
      return (.gives path key value, rest)

/-- Read the statements of at most `fuel` lines. -/
def readAll : Nat → List Char → Option (List Statement)
  | 0, _ => none
  | fuel + 1, cs =>
    match skipSpaces cs with
    | [] => some []
    | start => do
      let (statement, rest) ← read start
      let others ← readAll fuel rest
      return statement :: others

end Statement

namespace Document

/-- The statements of a text; nothing if a line of it says nothing that can be read. -/
def statements? (text : String) : Option (List Statement) :=
  let cs := withoutMark text.toList
  Statement.readAll (cs.length + 1) cs

/-- A line is read by reading its statement and carrying it out. -/
theorem readLine_eq (document : Document) (cs : List Char) :
    document.readLine cs = (Statement.read cs).bind fun (statement, rest) =>
      (statement.apply document).map fun after => (after, rest) := by
  unfold readLine Statement.read
  split
  · simp only [Option.pure_def, Option.bind_eq_bind, Statement.apply, Option.map_eq_bind,
      Function.comp_def, Option.bind_assoc, Option.bind_some]
  · simp only [Option.pure_def, Option.bind_eq_bind, Statement.apply, Option.map_eq_bind,
      Function.comp_def, Option.bind_assoc, Option.bind_some]
  · simp only [Option.map_eq_bind, Function.comp_def, Statement.apply, Option.bind_assoc,
      Option.bind_some]
  · obtain ⟨ended, hline⟩ : ∃ ended, lineEnd? cs = ended := ⟨_, rfl⟩
    cases ended with
    | some rest => simp only [hline, Statement.apply, Option.bind_some, Option.map_some]
    | none =>
      simp only [Option.pure_def, Option.bind_eq_bind, hline, Statement.apply,
        Option.map_eq_bind, Function.comp_def, Option.bind_assoc, Option.bind_some]

/-- Lines are read by reading their statements and carrying them out in turn. -/
theorem readLines_eq (fuel : Nat) (document : Document) (cs : List Char) :
    readLines fuel document cs = (Statement.readAll fuel cs).bind fun statements =>
      statements.foldlM Statement.apply document := by
  induction fuel generalizing document cs with
  | zero => rfl
  | succ fuel ih =>
    unfold readLines Statement.readAll
    cases hstart : skipSpaces cs with
    | nil => rfl
    | cons c more =>
      dsimp only
      rw [readLine_eq]
      cases Statement.read (c :: more) with
      | none => rfl
      | some found =>
        obtain ⟨statement, rest⟩ := found
        cases happly : statement.apply document with
        | none =>
          cases hothers : Statement.readAll fuel rest with
          | none => simp [happly, hothers]
          | some others => simp [happly, hothers]
        | some after =>
          have hrest := ih after rest
          cases hothers : Statement.readAll fuel rest with
          | none => simp [happly, hothers, hrest]
          | some others => simp [happly, hothers, hrest]

/-- A document is read by reading its statements and carrying them out in turn. -/
theorem parse?_eq (text : String) :
    parse? text = (statements? text).bind fun statements =>
      (statements.foldlM Statement.apply empty).map Document.entries := by
  simp only [parse?, readLines_eq, statements?, Option.map_bind, Function.comp_def]

end Document

/-! ## Soundness -/

namespace Statement

/-- The value of the statement is sound, if it has one. -/
def Sound : Statement → Prop
  | .gives _ _ value => value.Sound
  | _ => True

/-- Statements are read sound. -/
theorem read_sound {cs rest : List Char} {statement : Statement}
    (h : read cs = some (statement, rest)) : statement.Sound := by
  unfold read at h
  split at h
  · simp only [Option.bind_eq_bind, Option.bind_eq_some_iff] at h
    obtain ⟨_, -, _, -, _, -, hread⟩ := h
    cases hread
    trivial
  · simp only [Option.bind_eq_bind, Option.bind_eq_some_iff] at h
    obtain ⟨_, -, _, -, _, -, hread⟩ := h
    cases hread
    trivial
  · obtain ⟨_, -, hread⟩ := Option.map_eq_some_iff.mp h
    cases hread
    trivial
  · split at h
    · cases h
      trivial
    · simp only [Option.bind_eq_bind, Option.bind_eq_some_iff] at h
      obtain ⟨_, -, _, -, ⟨value, _⟩, hvalue, _, -, hread⟩ := h
      cases hread
      exact Value.read_sound hvalue

/-- All statements of some lines are sound. -/
theorem readAll_sound {fuel : Nat} {cs : List Char} {statements : List Statement}
    (h : readAll fuel cs = some statements) : ∀ statement ∈ statements, statement.Sound := by
  induction fuel generalizing cs statements with
  | zero => cases h
  | succ fuel ih =>
    unfold readAll at h
    split at h
    · cases h
      simp
    · obtain ⟨⟨first, rest⟩, hfirst, hmore⟩ := Option.bind_eq_some_iff.mp h
      obtain ⟨others, hothers, hread⟩ := Option.bind_eq_some_iff.mp hmore
      cases hread
      exact List.forall_mem_cons.mpr ⟨read_sound hfirst, ih hothers⟩

/-- Carrying out a sound statement keeps the document sound. -/
theorem Sound.apply {statement : Statement} (h : statement.Sound) {document after : Document}
    (hdocument : document.entries.Sound) (hafter : statement.apply document = some after) :
    after.entries.Sound := by
  cases statement with
  | blank =>
    cases hafter
    exact hdocument
  | opens path key =>
    obtain ⟨entries, hentries, rfl⟩ := Option.map_eq_some_iff.mp hafter
    exact hdocument.openTable hentries
  | adds path key =>
    obtain ⟨entries, hentries, rfl⟩ := Option.map_eq_some_iff.mp hafter
    exact hdocument.openElement hentries
  | gives path key value =>
    obtain ⟨entries, hentries, rfl⟩ := Option.map_eq_some_iff.mp hafter
    exact hdocument.setUnder h hentries

/-- Carrying out sound statements in turn keeps the document sound. -/
theorem foldlM_apply_sound {statements : List Statement}
    (h : ∀ statement ∈ statements, statement.Sound) {document after : Document}
    (hdocument : document.entries.Sound)
    (hafter : statements.foldlM apply document = some after) : after.entries.Sound := by
  induction statements generalizing document with
  | nil =>
    cases hafter
    exact hdocument
  | cons statement rest ih =>
    obtain ⟨hfirst, hrest⟩ := List.forall_mem_cons.mp h
    obtain ⟨middle, hmiddle, hmore⟩ := Option.bind_eq_some_iff.mp hafter
    exact ih hrest (hfirst.apply hdocument hmiddle) hmore

end Statement

namespace Document

/-- What is read is what comes of the statements of the text. -/
theorem exists_statements {text : String} {entries : Entries} (h : parse? text = some entries) :
    ∃ statements after, statements? text = some statements ∧
      statements.foldlM Statement.apply empty = some after ∧ after.entries = entries := by
  rw [parse?_eq] at h
  obtain ⟨statements, hstatements, hmore⟩ := Option.bind_eq_some_iff.mp h
  obtain ⟨after, hafter, hentries⟩ := Option.map_eq_some_iff.mp hmore
  exact ⟨statements, after, hstatements, hafter, hentries⟩

/-- Every document that is read is sound. -/
theorem parse?_sound {text : String} {entries : Entries} (h : parse? text = some entries) :
    entries.Sound := by
  obtain ⟨statements, after, hstatements, hafter, rfl⟩ := exists_statements h
  exact Statement.foldlM_apply_sound (Statement.readAll_sound hstatements) Entries.sound_nil hafter

end Document

end FlameFold.Toml
