import FlameFold.Proofs.FileSystem.Making

/-!
# What is kept

Files come and change in a run, and directories come. What has come to stand somewhere is
never taken away again, and no directory takes its place unless it was one: a path that has
led to a file once does not come to lead to a directory.
-/

namespace FlameFold.FileSystem

/-- What stands in `before` keeps standing in `after`, and where something other than a
directory stands, none comes. -/
structure Keeps (before after : FileSystem) : Prop extends Persists before after where
  /-- A directory was one before, or nothing stood there. -/
  made : ∀ place, after.node? place = some .directory →
    before.node? place = some .directory ∨ before.node? place = none

/-- The path leads to something other than a directory. -/
structure Occupied (fs : FileSystem) (p : Path) : Prop where
  /-- It leads somewhere. -/
  there : fs.pathExists p = true
  /-- It leads to no directory. -/
  plain : fs.isDirectory p = false

namespace Keeps

variable {before middle after : FileSystem} {p : Path}

theorem refl (fs : FileSystem) : fs.Keeps fs := ⟨.refl fs, fun _ h => .inl h⟩

theorem trans (h : before.Keeps middle) (h' : middle.Keeps after) : before.Keeps after where
  toPersists := h.toPersists.trans h'.toPersists
  made place hafter := by
    obtain hmiddle | hmiddle := h'.made place hafter
    · exact h.made place hmiddle
    · right
      by_contra hstood
      have hthere := h.there place (Option.isSome_iff_ne_none.mpr hstood)
      rw [hmiddle] at hthere
      cases hthere

/-- A path with something other than a directory keeps leading to such a thing. -/
theorem occupied (h : before.Keeps after) (hp : before.Occupied p) : after.Occupied p where
  there := h.pathExists hp.there
  plain := by
    obtain ⟨place, hl, hthere⟩ := pathExists_iff.mp hp.there
    by_contra hcame
    obtain ⟨later, hl', hn⟩ := isDirectory_iff.mp (Bool.not_eq_false _ |>.mp hcame)
    rw [h.locate hl] at hl'
    obtain rfl : place = later := Except.ok.inj hl'
    obtain hstood | hfree := h.made place hn
    · exact absurd (isDirectory_iff.mpr ⟨place, hl, hstood⟩) (by simp [hp.plain])
    · rw [hfree] at hthere
      cases hthere

end Keeps

namespace Occupied

variable {fs : FileSystem} {p : Path}

/-- A path that leads to a node other than a directory is such a path. -/
theorem of_located {place : Location} {node : Node} (hl : fs.locate p = .ok place)
    (hn : fs.node? place = some node) (hne : node ≠ .directory) : fs.Occupied p := by
  have hfound : fs.find? p = some node := by rw [find?, hl, ← hn]
  refine ⟨by rw [pathExists, hfound]; rfl, ?_⟩
  unfold isDirectory
  rw [hfound]
  cases node with
  | directory => exact absurd rfl hne
  | file content executable => rfl
  | device device => rfl

/-- Such a path leads to a file or to a device. -/
theorem isFile_or_device (h : fs.Occupied p) :
    fs.isFile p = true ∨ ∃ device, fs.find? p = some (.device device) := by
  obtain ⟨hthere, hplain⟩ := h
  unfold pathExists at hthere
  unfold isDirectory at hplain
  unfold isFile
  cases hfound : fs.find? p with
  | none => simp [hfound] at hthere
  | some node =>
    cases node with
    | file content executable => exact .inl rfl
    | directory => simp [hfound] at hplain
    | device device => exact .inr ⟨device, rfl⟩

end Occupied

variable {before after : FileSystem} {paths : List Path} {p : Path} {content : List UInt8}

/-- Growing brings directories where nothing stood. -/
theorem Grown.keeps (h : Grown paths before after) : before.Keeps after where
  toPersists := h.persists
  made place hd := by
    obtain hn | ⟨hn, -, -⟩ := h.node place
    · exact .inl (hn.symm.trans hd)
    · exact .inr hn

/-- Writing brings no directory. -/
theorem Written.keeps {place : Location} (h : Written p content place before after) :
    before.Keeps after where
  toPersists := h.persists
  made q hd := by
    obtain ⟨executable, hn⟩ := h.holds.node
    by_cases hq : q = place
    · rw [hq, hn] at hd
      cases hd
    · exact .inl ((h.rest q hq).symm.trans hd)

/-- What is written, a file or a device has taken, and all else is kept. -/
theorem write_keeps {fs : FileSystem} (h : fs.write p content = .ok after) :
    fs.Keeps after ∧ after.Occupied p := by
  obtain ⟨place, hwritten⟩ | ⟨rfl, place, device, hl, hn⟩ := write_written h
  · obtain ⟨executable, hn⟩ := hwritten.holds.node
    exact ⟨hwritten.keeps, .of_located hwritten.holds.located hn (by simp)⟩
  · exact ⟨.refl _, .of_located hl hn (by simp)⟩

end FlameFold.FileSystem
