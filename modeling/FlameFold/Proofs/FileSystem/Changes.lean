import FlameFold.Proofs.FileSystem.Making

/-!
# Changes at known places

A change of the file system is described by the places where it may have written a file. All
other places are spared: what stands there keeps standing unchanged, and no file comes to
them.
-/

namespace FlameFold.FileSystem

/-- A path that ends in a name of its own leads to something with this name. -/
theorem locate_head? {fs : FileSystem} {p : Path} {place : Location} {name : Name}
    (h : fs.locate p = .ok place) (hlast : (names p).getLast? = some name)
    (hidle : ¬(name = [] ∨ name = dot)) (hup : name ≠ dots) :
    place.head? = some name ∧ (fs.node? place).isSome := by
  obtain ⟨above, hnames⟩ := List.getLast?_eq_some_iff.mp hlast
  unfold locate at h
  cases hc : checkText p with
  | error fault => simp [hc, bind, Except.bind] at h
  | ok _ =>
    rw [hc, hnames] at h
    obtain ⟨directory, -, hs⟩ := walk_concat h
    obtain ⟨-, ⟨hi, -⟩ | ⟨hu, -⟩ | ⟨-, -, -, hthere, rfl⟩⟩ := step_cases hs
    · exact absurd hi hidle
    · exact absurd hu hup
    · exact ⟨rfl, hthere⟩

/-- Nothing was taken away, no device has come, and away from the places nothing was changed
but for directories made on the way to one of the paths. -/
structure Changed (paths : List Path) (places : List Location) (before after : FileSystem) :
    Prop where
  /-- Nothing was taken away. -/
  persists : before.Persists after
  /-- All devices were there before. -/
  devices : ∀ place device, after.node? place = some (.device device) →
    before.node? place = some (.device device)
  /-- All other places are spared. -/
  rest : ∀ place, place ∉ places → Spared paths before after place

/-- The path is as it was: what it led to stands there unchanged, and where it leads now no
file has come, at most a directory on the way to one of the other paths. -/
structure LeftAlone (paths : List Path) (p : Path) (before after : FileSystem) : Prop where
  /-- What the path led to stands there unchanged. -/
  stood : ∀ place, before.locate p = .ok place →
    after.locate p = .ok place ∧ after.node? place = before.node? place
  /-- No file has come to where it leads. -/
  spared : ∀ place, after.locate p = .ok place → Spared paths before after place

variable {paths : List Path} {places more : List Location} {before middle after : FileSystem}
  {p : Path} {place : Location} {content : List UInt8}

/-- Growing changes no place but by directories. -/
theorem Grown.changed (h : Grown paths before after) (places : List Location) :
    Changed paths places before after :=
  ⟨h.persists, fun place _ hd => (h.node place).device_of_device hd, fun place _ => h.node place⟩

/-- Writing changes the place that is written to. -/
theorem Written.changed (h : Written p content place before after) (paths : List Path) :
    Changed paths [place] before after :=
  ⟨h.persists, fun _ _ hd => h.device_of_device hd,
    fun q hq => .inl (h.rest q (by simpa using hq))⟩

namespace Changed

theorem refl (paths : List Path) (fs : FileSystem) : Changed paths [] fs fs :=
  ⟨.refl fs, fun _ _ hd => hd, fun _ _ => .inl rfl⟩

/-- Two changes change the places of both. -/
theorem trans (h : Changed paths places before middle) (h' : Changed paths more middle after) :
    Changed paths (places ++ more) before after where
  persists := h.persists.trans h'.persists
  devices place device hd := h.devices place device (h'.devices place device hd)
  rest place hplace := by
    rw [List.mem_append, not_or] at hplace
    exact (h.rest place hplace.1).trans (h'.rest place hplace.2) h'.persists

/-- A file that is not written to holds what it held. -/
theorem holds (h : Changed paths places before after) (hplace : place ∉ places)
    (hb : before.Holds p place content) : after.Holds p place content := by
  obtain ⟨executable, hn⟩ := hb.node
  exact ⟨h.persists.locate hb.located, executable, (h.rest place hplace).node?_eq hn⟩

/-- A path that leads to none of the places is left alone, if it never leads to nothing. -/
theorem leftAlone (h : Changed paths places before after)
    (hthere : ∀ place, before.locate p = .ok place → (before.node? place).isSome)
    (hplaces : ∀ place, after.locate p = .ok place → place ∉ places) :
    LeftAlone paths p before after where
  stood place hl := by
    have hl' := h.persists.locate hl
    obtain ⟨node, hn⟩ := Option.isSome_iff_exists.mp (hthere place hl)
    exact ⟨hl', ((h.rest place (hplaces place hl')).node?_eq hn).trans hn.symm⟩
  spared place hl := h.rest place (hplaces place hl)

end Changed

end FlameFold.FileSystem
