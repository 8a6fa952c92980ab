import FlameFold.FileSystem.Change
import Mathlib.Data.List.Basic
import Mathlib.Tactic.SplitIfs

/-!
# How a file system grows

Nothing in a run takes away a file or a directory. What stands keeps standing, so a path
that leads somewhere leads to the same place ever after, and making directories adds
directories on the way to one of the paths asked for and changes nothing else.
-/

namespace FlameFold.FileSystem

/-- Replacing what stands at a location shows at this location alone. -/
theorem lookup_replace (nodes : List (Location × Node)) (place q : Location) (node : Node) :
    (nodes.map fun entry => if entry.1 = place then (place, node) else entry).lookup q =
      if q = place then (nodes.lookup place).map fun _ => node else nodes.lookup q := by
  induction nodes with
  | nil => simp
  | cons entry rest ih =>
    obtain ⟨location, old⟩ := entry
    rw [List.map_cons, List.lookup_cons, ih]
    by_cases hl : location = place <;> by_cases hq : q = place
    · simp [hl, hq]
    · simp [hl, hq, List.lookup_cons, beq_false_of_ne hq]
    · have hpl : ¬place = location := Ne.symm hl
      simp [hl, hq, List.lookup_cons, beq_false_of_ne hpl]
    · simp [hl, hq, List.lookup_cons]

/-- What stands at each location after a node was put at one of them. -/
theorem node?_put (fs : FileSystem) {place : Location} (node : Node) (hplace : place ≠ [])
    (q : Location) :
    (fs.put place node).node? q = if q = place then some node else fs.node? q := by
  by_cases hq : q = []
  · have hne : ¬[] = place := Ne.symm hplace
    simp [hq, hne, node?]
  · rw [node?, if_neg hq, node?, if_neg hq, put]
    cases hl : fs.nodes.lookup place with
    | some old =>
      rw [if_pos (by simp), lookup_replace, hl]
      rfl
    | none =>
      rw [if_neg (by simp), List.lookup_append]
      by_cases hp : q = place
      · simp [hp, hl]
      · simp [hp, List.lookup_cons, beq_false_of_ne hp]

@[simp] theorem here_put (fs : FileSystem) (place : Location) (node : Node) :
    (fs.put place node).here = fs.here := by
  unfold put
  split <;> rfl

/-- A name that leads on from a location stands for it, for the one above, or for
something that is there; and the location is a directory. -/
theorem step_cases {fs : FileSystem} {place next : Location} {name : Name}
    (h : fs.step place name = .ok next) : fs.node? place = some .directory ∧
      (((name = [] ∨ name = dot) ∧ next = place) ∨ (name = dots ∧ next = place.tail) ∨
        (¬(name = [] ∨ name = dot) ∧ name ≠ dots ∧ name.length ≤ nameLimit ∧
          (fs.node? (name :: place)).isSome ∧ next = name :: place)) := by
  unfold step at h
  split at h
  · cases h
  · cases h
  · cases h
  · next hn =>
    refine ⟨hn, ?_⟩
    split_ifs at h with hidle hup hlong hthere
    · exact .inl ⟨hidle, (Except.ok.inj h).symm⟩
    · exact .inr (.inl ⟨hup, (Except.ok.inj h).symm⟩)
    · exact .inr (.inr ⟨hidle, hup, Nat.le_of_not_lt hlong, hthere, (Except.ok.inj h).symm⟩)

/-- An idle name leads nowhere else. -/
theorem step_idle {fs : FileSystem} {place : Location} {name : Name}
    (hn : fs.node? place = some .directory) (h : name = [] ∨ name = dot) :
    fs.step place name = .ok place := by
  simp only [step, hn, if_pos h]

/-- Two dots lead to the directory above. -/
theorem step_up {fs : FileSystem} {place : Location}
    (hn : fs.node? place = some .directory) : fs.step place dots = .ok place.tail := by
  have hidle : ¬(dots = [] ∨ dots = dot) := by decide
  simp only [step, hn, if_neg hidle, if_true]

/-- A name of something that is there leads to it. -/
theorem step_down {fs : FileSystem} {place : Location} {name : Name}
    (hn : fs.node? place = some .directory) (hidle : ¬(name = [] ∨ name = dot))
    (hup : name ≠ dots) (hlength : name.length ≤ nameLimit)
    (hthere : (fs.node? (name :: place)).isSome) : fs.step place name = .ok (name :: place) := by
  simp only [step, hn, if_neg hidle, if_neg hup, if_neg (Nat.not_lt.mpr hlength), if_pos hthere]

/-- Where a name leads from a location, if anywhere, is the same in all file systems. -/
theorem step_unique {fs other : FileSystem} {place next there : Location} {name : Name}
    (h : fs.step place name = .ok next) (h' : other.step place name = .ok there) :
    there = next := by
  obtain ⟨-, ⟨hidle, rfl⟩ | ⟨rfl, rfl⟩ | ⟨hidle, hup, -, -, rfl⟩⟩ := step_cases h
  · rw [step_idle (step_cases h').1 hidle] at h'
    exact (Except.ok.inj h').symm
  · rw [step_up (step_cases h').1] at h'
    exact (Except.ok.inj h').symm
  · obtain ⟨-, ⟨hidle', -⟩ | ⟨hup', -⟩ | ⟨-, -, -, -, hnext⟩⟩ := step_cases h'
    · exact absurd hidle' hidle
    · exact absurd hup' hup
    · exact hnext

/-- So is where names lead one after the other. -/
theorem walk_unique {fs other : FileSystem} {place next there : Location} {names : List Name}
    (h : fs.walk place names = .ok next) (h' : other.walk place names = .ok there) :
    there = next := by
  induction names generalizing place with
  | nil => exact (Except.ok.inj h').symm.trans (Except.ok.inj h)
  | cons name rest ih =>
    rw [walk, List.foldlM_cons] at h h'
    cases hs : fs.step place name with
    | error fault =>
      rw [hs] at h
      cases h
    | ok middle =>
      cases hs' : other.step place name with
      | error fault =>
        rw [hs'] at h'
        cases h'
      | ok found =>
        obtain rfl := step_unique hs hs'
        rw [hs] at h
        rw [hs'] at h'
        exact ih h h'

/-- A path to a directory leads to a location where one stands. -/
theorem isDirectory_iff {fs : FileSystem} {p : Path} : fs.isDirectory p = true ↔
    ∃ place, fs.locate p = .ok place ∧ fs.node? place = some .directory := by
  unfold isDirectory find?
  cases hl : fs.locate p with
  | error fault => simp
  | ok place =>
    cases hn : fs.node? place with
    | none => simp [hn]
    | some node => cases node <;> simp [hn]

/-- A path to a plain file leads to a location where one stands. -/
theorem isFile_iff {fs : FileSystem} {p : Path} : fs.isFile p = true ↔
    ∃ place, fs.locate p = .ok place ∧
      ∃ content executable, fs.node? place = some (.file content executable) := by
  unfold isFile find?
  cases hl : fs.locate p with
  | error fault => simp
  | ok place =>
    cases hn : fs.node? place with
    | none => simp [hn]
    | some node =>
      cases node with
      | file content executable =>
        exact iff_of_true (by simp only [hn]) ⟨place, rfl, content, executable, hn⟩
      | directory => simp [hn]
      | device device => simp [hn]

/-- A path that leads anywhere leads to a location where something stands. -/
theorem pathExists_iff {fs : FileSystem} {p : Path} : fs.pathExists p = true ↔
    ∃ place, fs.locate p = .ok place ∧ (fs.node? place).isSome := by
  unfold pathExists find?
  cases hl : fs.locate p with
  | error fault => simp
  | ok place => simp

/-- What stands in `before` keeps standing in `after`, though files may change. -/
structure Persists (before after : FileSystem) : Prop where
  /-- Relative paths start from the same directory. -/
  here : after.here = before.here
  /-- Directories remain directories. -/
  directory : ∀ place, before.node? place = some .directory → after.node? place = some .directory
  /-- Nothing is taken away. -/
  there : ∀ place, (before.node? place).isSome → (after.node? place).isSome

namespace Persists

variable {before middle after : FileSystem} {place next : Location} {p : Path}

theorem refl (fs : FileSystem) : fs.Persists fs := ⟨rfl, fun _ h => h, fun _ h => h⟩

theorem trans (h : before.Persists middle) (h' : middle.Persists after) :
    before.Persists after where
  here := h'.here.trans h.here
  directory place hp := h'.directory place (h.directory place hp)
  there place hp := h'.there place (h.there place hp)

/-- A name that leads from a location to another keeps leading there. -/
theorem step (h : before.Persists after) {name : Name} (hs : before.step place name = .ok next) :
    after.step place name = .ok next := by
  obtain ⟨hn, ⟨hidle, rfl⟩ | ⟨rfl, rfl⟩ | ⟨hidle, hup, hlength, hthere, rfl⟩⟩ := step_cases hs
  · exact step_idle (h.directory _ hn) hidle
  · exact step_up (h.directory _ hn)
  · exact step_down (h.directory _ hn) hidle hup hlength (h.there _ hthere)

/-- Names that lead from a location to another keep leading there. -/
theorem walk (h : before.Persists after) {names : List Name}
    (hw : before.walk place names = .ok next) : after.walk place names = .ok next := by
  induction names generalizing place with
  | nil => exact hw
  | cons name rest ih =>
    simp only [FileSystem.walk, List.foldlM_cons] at hw ih ⊢
    cases hs : before.step place name with
    | error fault => simp [hs, bind, Except.bind] at hw
    | ok middle =>
      rw [hs] at hw
      rw [h.step hs]
      exact ih hw

/-- Every path starts from the same location. -/
theorem start (h : before.Persists after) (p : Path) : after.start p = before.start p := by
  rw [FileSystem.start, FileSystem.start, h.here]

/-- A path that leads to a location keeps leading there. -/
theorem locate (h : before.Persists after) (hl : before.locate p = .ok place) :
    after.locate p = .ok place := by
  unfold FileSystem.locate at hl ⊢
  cases hc : checkText p with
  | error fault => simp [hc, bind, Except.bind] at hl
  | ok _ =>
    rw [hc] at hl
    rw [h.start]
    exact h.walk hl

/-- A path to a directory keeps leading to one. -/
theorem isDirectory (h : before.Persists after) (hp : before.isDirectory p = true) :
    after.isDirectory p = true := by
  obtain ⟨place, hl, hn⟩ := isDirectory_iff.mp hp
  exact isDirectory_iff.mpr ⟨place, h.locate hl, h.directory place hn⟩

/-- A path that leads anywhere keeps leading there. -/
theorem pathExists (h : before.Persists after) (hp : before.pathExists p = true) :
    after.pathExists p = true := by
  obtain ⟨place, hl, hn⟩ := pathExists_iff.mp hp
  exact pathExists_iff.mpr ⟨place, h.locate hl, h.there place hn⟩

/-- A path that leads anywhere either before and after or never does so in between as well. -/
theorem pathExists_between (h : before.Persists middle) (h' : middle.Persists after)
    (hsame : after.pathExists p = before.pathExists p) :
    middle.pathExists p = before.pathExists p := by
  cases hp : before.pathExists p with
  | true => exact h.pathExists hp
  | false =>
    by_contra hcame
    rw [h'.pathExists (Bool.not_eq_false _ |>.mp hcame), hp] at hsame
    cases hsame

end Persists

/-- A node at a free location takes nothing away. -/
theorem persists_put {fs : FileSystem} {place : Location} (node : Node) (hplace : place ≠ [])
    (hfree : fs.node? place ≠ some .directory) : fs.Persists (fs.put place node) where
  here := here_put fs place node
  directory q hq := by
    have hne : q ≠ place := by
      rintro rfl
      exact hfree hq
    rw [node?_put fs node hplace, if_neg hne]
    exact hq
  there q hq := by
    rw [node?_put fs node hplace]
    split
    · rfl
    · exact hq

/-- At the place nothing has changed, or a directory was made where nothing stood, on the way
to one of the paths. -/
def Spared (paths : List Path) (before after : FileSystem) (place : Location) : Prop :=
  after.node? place = before.node? place ∨
    (before.node? place = none ∧ after.node? place = some .directory ∧
      ∃ p ∈ paths, after.locate p = .ok place)

namespace Spared

variable {before middle after : FileSystem} {paths more : List Path} {place : Location}

/-- A place that is spared twice is spared. -/
theorem trans (h : Spared paths before middle place) (h' : Spared paths middle after place)
    (hp : middle.Persists after) : Spared paths before after place := by
  obtain hn' | ⟨hn', hd', hp'⟩ := h'
  · obtain hn | ⟨hn, hd, p, hmem, hl⟩ := h
    · exact .inl (hn'.trans hn)
    · exact .inr ⟨hn, hn'.trans hd, p, hmem, hp.locate hl⟩
  · obtain hn | ⟨-, hd, -⟩ := h
    · exact .inr ⟨hn ▸ hn', hd', hp'⟩
    · rw [hd] at hn'
      cases hn'

/-- More paths allow for more directories. -/
theorem mono (h : Spared paths before after place) (hsub : paths ⊆ more) :
    Spared more before after place :=
  h.imp_right fun ⟨hn, hd, p, hp, hl⟩ => ⟨hn, hd, p, hsub hp, hl⟩

/-- What stands at a spared place stands there unchanged. -/
theorem node?_eq {node : Node} (h : Spared paths before after place)
    (hnode : before.node? place = some node) : after.node? place = some node := by
  obtain hn | ⟨hn, -, -⟩ := h
  · exact hn.trans hnode
  · rw [hnode] at hn
    cases hn

/-- No device comes to a spared place. -/
theorem device_of_device {device : Device} (h : Spared paths before after place)
    (hd : after.node? place = some (.device device)) :
    before.node? place = some (.device device) := by
  obtain hn | ⟨-, hn, -⟩ := h
  · exact hn ▸ hd
  · rw [hn] at hd
    cases hd

end Spared

/-- The file system has grown by directories alone, each of them on the way to one of the
paths. -/
structure Grown (paths : List Path) (before after : FileSystem) : Prop where
  /-- Relative paths start from the same directory. -/
  here : after.here = before.here
  /-- What stood stands unchanged, and what is new is a directory that a path leads to. -/
  node : ∀ place, Spared paths before after place

namespace Grown

variable {before middle after : FileSystem} {paths more : List Path}

theorem refl (paths : List Path) (fs : FileSystem) : Grown paths fs fs :=
  ⟨rfl, fun _ => .inl rfl⟩

/-- Growing takes nothing away. -/
theorem persists (h : Grown paths before after) : before.Persists after where
  here := h.here
  directory place hp := (h.node place).node?_eq hp
  there place hp := by
    obtain ⟨node, hn⟩ := Option.isSome_iff_exists.mp hp
    rw [(h.node place).node?_eq hn]
    rfl

theorem trans (h : Grown paths before middle) (h' : Grown paths middle after) :
    Grown paths before after where
  here := h'.here.trans h.here
  node place := (h.node place).trans (h'.node place) h'.persists

/-- More paths allow for more directories. -/
theorem mono (h : Grown paths before after) (hsub : paths ⊆ more) : Grown more before after where
  here := h.here
  node place := (h.node place).mono hsub

end Grown

end FlameFold.FileSystem
