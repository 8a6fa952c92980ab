import FlameFold.Proofs.FileSystem.Making

/-!
# Filling files

Where all directories that a run asks for stand already, it changes nothing but the contents of
plain files, old ones and new ones. What else stands in the way of a file is not changed by
that, so a file that is filled now could have been filled before, and could be filled again.
-/

namespace FlameFold.FileSystem

/-- What stands in the way of a plain file at a location: a directory or a device. -/
def obstacle? (fs : FileSystem) (place : Location) : Option Node :=
  match fs.node? place with
  | some (.file _ _) => none
  | found => found

/-- Whether the plain file at a location may be executed. -/
def executableAt (fs : FileSystem) (place : Location) : Bool :=
  match fs.node? place with
  | some (.file _ executable) => executable
  | _ => false

/-- Replace the content of the plain file at a location, or make the file. -/
def fill (fs : FileSystem) (place : Location) (content : List UInt8) : FileSystem :=
  fs.put place (.file content (fs.executableAt place))

/-- A content for the plain file at a place. -/
structure Writing where
  /-- Where the file stands. -/
  place : Location
  /-- What it is to hold. -/
  content : List UInt8

/-- Fill files one after the other. -/
def fillAll (fs : FileSystem) (writings : List Writing) : FileSystem :=
  writings.foldl (fun fs writing => fs.fill writing.place writing.content) fs

/-- Nothing stands in the way of the writings. -/
def Takes (fs : FileSystem) (writings : List Writing) : Prop :=
  ∀ writing ∈ writings, fs.obstacle? writing.place = none

/-- Nothing has changed but plain files, and nothing was taken away. -/
structure Filled (before after : FileSystem) : Prop extends Persists before after where
  /-- The same directories and devices stand at the same locations. -/
  obstacle : ∀ place, after.obstacle? place = before.obstacle? place

variable {fs top before middle after : FileSystem} {place : Location} {content : List UInt8}
  {writing : Writing} {writings more : List Writing} {p : Path}

@[simp] theorem fillAll_nil (fs : FileSystem) : fs.fillAll [] = fs := rfl

@[simp] theorem fillAll_cons (fs : FileSystem) (writing : Writing) (writings : List Writing) :
    fs.fillAll (writing :: writings) =
      (fs.fill writing.place writing.content).fillAll writings := rfl

theorem fillAll_append (fs : FileSystem) (writings more : List Writing) :
    fs.fillAll (writings ++ more) = (fs.fillAll writings).fillAll more := List.foldl_append

@[simp] theorem here_fill (fs : FileSystem) (place : Location) (content : List UInt8) :
    (fs.fill place content).here = fs.here := here_put ..

/-- All but a plain file is in the way of a file. -/
theorem obstacle?_eq_some_iff {node : Node} : fs.obstacle? place = some node ↔
    fs.node? place = some node ∧ ∀ content executable, node ≠ .file content executable := by
  unfold obstacle?
  split
  · next content executable h =>
    simp only [h, reduceCtorEq, Option.some.injEq, false_iff, not_and]
    rintro rfl hplain
    exact hplain content executable rfl
  · next hother =>
    refine ⟨fun h => ⟨h, ?_⟩, And.left⟩
    rintro content executable rfl
    exact hother content executable h

/-- A directory is in the way of a file. -/
theorem obstacle?_eq_directory_iff :
    fs.obstacle? place = some .directory ↔ fs.node? place = some .directory := by
  simp [obstacle?_eq_some_iff]

/-- Where nothing is in the way, there is at most a plain file. -/
theorem obstacle?_eq_none_iff : fs.obstacle? place = none ↔
    fs.node? place = none ∨
      ∃ content executable, fs.node? place = some (.file content executable) := by
  unfold obstacle?
  split
  · next h => simp [h]
  · next hother =>
    exact ⟨.inl, fun h => h.elim id fun ⟨content, executable, hn⟩ =>
      absurd hn (hother content executable)⟩

/-- The root is in the way of a file. -/
theorem ne_root (h : fs.obstacle? place = none) : place ≠ [] := by
  rintro rfl
  cases h

/-- What stands at each location after a file was filled. -/
theorem node?_fill (fs : FileSystem) (content : List UInt8) (hplace : place ≠ []) (q : Location) :
    (fs.fill place content).node? q =
      if q = place then some (.file content (fs.executableAt place)) else fs.node? q :=
  node?_put fs _ hplace q

/-- Filling a file leaves all else as it is. -/
theorem obstacle?_fill (h : fs.obstacle? place = none) (content : List UInt8) (q : Location) :
    (fs.fill place content).obstacle? q = fs.obstacle? q := by
  rw [obstacle?, node?_fill fs content (ne_root h)]
  by_cases hq : q = place
  · rw [if_pos hq, hq, h]
  · rw [if_neg hq, obstacle?]

/-- Filling a file does not change who may execute what. -/
theorem executableAt_fill (fs : FileSystem) (content : List UInt8) (hplace : place ≠ [])
    (q : Location) : (fs.fill place content).executableAt q = fs.executableAt q := by
  rw [executableAt, node?_fill fs content hplace]
  by_cases hq : q = place
  · rw [if_pos hq, hq]
  · rw [if_neg hq, executableAt]

/-- Writing to a path goes to its slot, if the name there is not too long. There it fills a
plain file, gives the content to a device, or fails at a directory. -/
theorem write_named {directory : Location} {name : Name}
    (hslot : fs.slot p = .ok (.named directory name false)) (hlength : name.length ≤ nameLimit) :
    fs.write p content = match fs.obstacle? (name :: directory) with
      | some (.device device) => do
        device.accept content
        .ok fs
      | some _ => .error .isADirectory
      | none => .ok (fs.fill (name :: directory) content) := by
  unfold write obstacle? fill executableAt
  rw [hslot]
  simp only [bind, Except.bind, Bool.false_eq_true, if_false, if_neg (Nat.not_lt.mpr hlength)]
  cases fs.node? (name :: directory) with
  | none => rfl
  | some node => cases node <;> rfl

/-- Filling a file takes nothing away and changes nothing but plain files. -/
theorem filled_fill (h : fs.obstacle? place = none) (content : List UInt8) :
    fs.Filled (fs.fill place content) where
  toPersists := by
    refine persists_put _ (ne_root h) fun hd => ?_
    rw [obstacle?_eq_directory_iff.mpr hd] at h
    cases h
  obstacle := obstacle?_fill h content

namespace Filled

theorem refl (fs : FileSystem) : fs.Filled fs := ⟨.refl fs, fun _ => rfl⟩

theorem trans (h : before.Filled middle) (h' : middle.Filled after) : before.Filled after :=
  ⟨h.toPersists.trans h'.toPersists, fun place => (h'.obstacle place).trans (h.obstacle place)⟩

/-- What is in the way of no writing before is in the way of none after. -/
theorem takes (h : before.Filled after) (hw : before.Takes writings) : after.Takes writings :=
  fun writing hmem => (h.obstacle writing.place).trans (hw writing hmem)

/-- A path to a plain file keeps leading to one. -/
theorem isFile (h : before.Filled after) (hp : before.isFile p = true) :
    after.isFile p = true := by
  obtain ⟨place, hl, content, executable, hn⟩ := isFile_iff.mp hp
  have hfree : after.obstacle? place = none := by
    rw [h.obstacle, obstacle?_eq_none_iff]
    exact .inr ⟨content, executable, hn⟩
  have hthere := h.there place (by rw [hn]; rfl)
  obtain hnone | hfile := obstacle?_eq_none_iff.mp hfree
  · simp [hnone] at hthere
  · exact isFile_iff.mpr ⟨place, h.locate hl, hfile⟩

/-- Filling one file after the other changes nothing but plain files. -/
theorem fillAll (h : before.Filled middle) (hw : before.Takes writings) :
    before.Filled (middle.fillAll writings) := by
  induction writings generalizing middle with
  | nil => exact h
  | cons writing rest ih =>
    obtain ⟨hfirst, hrest⟩ := List.forall_mem_cons.mp hw
    exact ih (h.trans (filled_fill ((h.obstacle _).trans hfirst) _)) hrest

end Filled

/-- All files that were filled are there. -/
theorem fillAll_there (hw : fs.Takes writings) (hmem : writing ∈ writings) :
    ((fs.fillAll writings).node? writing.place).isSome := by
  induction writings generalizing fs with
  | nil => cases hmem
  | cons first rest ih =>
    obtain ⟨hfirst, hrest⟩ := List.forall_mem_cons.mp hw
    have hfilled := filled_fill hfirst first.content
    rcases List.mem_cons.mp hmem with rfl | hmem
    · refine ((Filled.refl _).fillAll (hfilled.takes hrest)).there _ ?_
      rw [node?_fill fs _ (ne_root hfirst), if_pos rfl]
      rfl
    · exact ih (hfilled.takes hrest) hmem

/-- What stands after files were filled is all there later, if these files are. -/
theorem Persists.fillAll (h : fs.Persists top) (hw : fs.Takes writings)
    (hthere : ∀ writing ∈ writings, (top.node? writing.place).isSome) :
    (fs.fillAll writings).Persists top := by
  induction writings generalizing fs with
  | nil => exact h
  | cons writing rest ih =>
    obtain ⟨hfirst, hrest⟩ := List.forall_mem_cons.mp hw
    obtain ⟨hplace, hothers⟩ := List.forall_mem_cons.mp hthere
    have hnode := node?_fill fs writing.content (ne_root hfirst)
    refine ih ⟨h.here.trans (here_fill ..).symm, fun q hq => ?_, fun q hq => ?_⟩
      ((filled_fill hfirst _).takes hrest) hothers
    · rw [hnode] at hq
      split at hq
      · cases hq
      · exact h.directory q hq
    · rw [hnode] at hq
      split at hq
      · next heq => exact heq ▸ hplace
      · exact h.there q hq

end FlameFold.FileSystem
