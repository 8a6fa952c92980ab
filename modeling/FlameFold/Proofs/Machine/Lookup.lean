import FlameFold.Machine.Lookup
import FlameFold.Proofs.Output.Standing

/-!
# Which file a program name finds

A name with a slash is a path, and the file at its end is the only one that it can find: as long
as the working directory stays the same, it finds this file or none. A name without a slash finds
files in the directories of the search path alone, whatever stands in the working directory.
-/

namespace FlameFold.Machine

variable {files : FileSystem} {program : String} {p : Path} {place : Location}
  {content : List UInt8}

theorem candidates_of_slash (h : '/' ∈ program.toList) : candidates program = [⟨program⟩] := by
  rw [candidates, if_pos (List.contains_iff_mem.mpr h)]

theorem candidates_of_bare (h : '/' ∉ program.toList) :
    candidates program = searchPath.map fun directory => directory.join ⟨program⟩ := by
  rw [candidates, if_neg (fun hslash => h (List.contains_iff_mem.mp hslash))]

/-- A path leads to an executable file if one stands where it leads. -/
theorem executable_eq_ok_iff : executable files p = .ok (place, content) ↔
    files.locate p = .ok place ∧ files.node? place = some (.file content true) := by
  unfold executable
  cases hl : files.locate p with
  | error fault => simp [bind, Except.bind]
  | ok there =>
    simp only [bind, Except.bind, Except.ok.injEq]
    constructor
    · intro h
      split at h
      · next hn =>
        cases h
        exact ⟨rfl, hn⟩
      · cases h
      · cases h
    · rintro ⟨rfl, hn⟩
      rw [hn]

/-- What is found first is found at one of the paths. -/
theorem firstExecutable_ok {paths : List Path}
    (h : firstExecutable files paths = .ok (p, place, content)) :
    p ∈ paths ∧ executable files p = .ok (place, content) := by
  induction paths with
  | nil => cases h
  | cons first others ih =>
    unfold firstExecutable at h
    cases hfirst : executable files first with
    | ok found =>
      rw [hfirst] at h
      cases h
      exact ⟨List.mem_cons_self, hfirst⟩
    | error fault =>
      rw [hfirst] at h
      dsimp only at h
      split at h
      · cases h
      · obtain ⟨hmem, hexecutable⟩ := ih h
        exact ⟨List.mem_cons_of_mem _ hmem, hexecutable⟩

/-- The file that is found for a program is an executable one at one of the paths that are
tried. -/
theorem lookup_ok (h : lookup files program = .ok (p, place, content)) :
    p ∈ candidates program ∧ files.locate p = .ok place ∧
      files.node? place = some (.file content true) := by
  unfold lookup at h
  split at h
  · cases h
  · obtain ⟨hmem, hexecutable⟩ := firstExecutable_ok h
    exact ⟨hmem, executable_eq_ok_iff.mp hexecutable⟩

/-- A name with a slash finds what stands at the path, if it is an executable file. -/
theorem lookup_of_slash (h : '/' ∈ program.toList) :
    lookup files program = .ok (p, place, content) ↔
      p = ⟨program⟩ ∧ files.locate p = .ok place ∧
        files.node? place = some (.file content true) := by
  constructor
  · intro hfound
    obtain ⟨hmem, hstands⟩ := lookup_ok hfound
    rw [candidates_of_slash h] at hmem
    exact ⟨List.mem_singleton.mp hmem, hstands⟩
  · rintro ⟨rfl, hstands⟩
    have hne : ¬program.isEmpty = true := by
      rintro hempty
      rw [String.isEmpty_iff.mp hempty] at h
      exact absurd h (by decide)
    rw [lookup, if_neg hne, candidates_of_slash h, firstExecutable,
      executable_eq_ok_iff.mpr hstands]

/-- The name means what stands at one place. -/
structure Means (files : FileSystem) (program : String) (place : Location) : Prop where
  /-- No other path is tried. -/
  alone : candidates program = [⟨program⟩]
  /-- The path leads nowhere else. -/
  leads : ∀ there, files.locate ⟨program⟩ = .ok there → there = place
  /-- Found is what stands at the place, if it is an executable file. -/
  found : ∀ p there content, lookup files program = .ok (p, there, content) ↔
    p = ⟨program⟩ ∧ there = place ∧ files.locate p = .ok place ∧
      files.node? place = some (.file content true)

/-- A name with a slash means the file at its path for as long as the working directory is the
same. -/
theorem means_of_slash {now : FileSystem} (h : '/' ∈ program.toList)
    (hl : files.locate ⟨program⟩ = .ok place) (hhere : now.here = files.here) :
    Means now program place := by
  have hplace : ∀ there, now.locate ⟨program⟩ = .ok there → there = place := fun there hthere =>
    FileSystem.locate_unique hhere hl hthere
  refine ⟨candidates_of_slash h, hplace, fun p there content => ?_⟩
  rw [lookup_of_slash h]
  constructor
  · rintro ⟨rfl, hthere, hn⟩
    obtain rfl := hplace there hthere
    exact ⟨rfl, rfl, hthere, hn⟩
  · rintro ⟨rfl, rfl, hthere, hn⟩
    exact ⟨rfl, hthere, hn⟩

/-- All directories of the search path lie in others, under the same name. -/
theorem exists_parent {directory : Path} (h : directory ∈ searchPath) :
    ∃ parent : Path, parent.text ≠ "" ∧
      directory = parent.join ⟨String.ofList ['b', 'i', 'n']⟩ := by
  simp only [searchPath, List.mem_cons, List.not_mem_nil, or_false] at h
  obtain rfl | rfl | rfl := h
  · exact ⟨⟨"/usr/local"⟩, by decide, by decide⟩
  · exact ⟨⟨"/usr"⟩, by decide, by decide⟩
  · exact ⟨⟨"/"⟩, by decide, by decide⟩

/-- A name without slashes leads on from the working directory. -/
theorem step_of_bare {name : List Char} (h : '/' ∉ name)
    (hl : files.locate ⟨String.ofList name⟩ = .ok place) :
    files.step files.here (name.flatMap String.utf8EncodeChar) = .ok place := by
  have hstart : files.start ⟨String.ofList name⟩ = files.here := by
    simp [FileSystem.start, Path.isAbsolute, Path.head?_ne_slash h]
  have hwalk := (FileSystem.locate_iff.mp hl).2
  rwa [hstart, FileSystem.names, Path.pieces, String.toList_ofList, List.splitOn_eq_singleton h,
    List.map_singleton, FileSystem.walk_singleton] at hwalk

/-- A name without slashes that leads to a file from the working directory finds one in a
directory of the search path. The two are the same only if this directory is the working
directory. -/
theorem lookup_of_bare {now : FileSystem} {there : Location} {bytes : List UInt8} {marked : Bool}
    (h : '/' ∉ program.toList) (hl : files.locate ⟨program⟩ = .ok place)
    (hfile : files.node? place = some (.file bytes marked)) (hhere : now.here = files.here)
    (hfound : lookup now program = .ok (p, there, content)) :
    ∃ directory ∈ searchPath, p = directory.join ⟨program⟩ ∧
      (there = place ↔ now.locate directory = .ok now.here) := by
  obtain ⟨hmem, hlocated, hn⟩ := lookup_ok hfound
  rw [candidates_of_bare h] at hmem
  obtain ⟨directory, hdirectory, rfl⟩ := List.mem_map.mp hmem
  refine ⟨directory, hdirectory, rfl, ?_⟩
  obtain ⟨name, rfl⟩ : ∃ name, program = String.ofList name :=
    ⟨program.toList, String.ofList_toList.symm⟩
  rw [String.toList_ofList] at h
  obtain ⟨parent, hparent, hbin⟩ := exists_parent hdirectory
  have hname : Path.IsName ['b', 'i', 'n'] := ⟨by decide, by decide, by decide⟩
  have htext : directory.text ≠ "" := hbin ▸ Path.join_ne_empty hname parent
  obtain ⟨above, hwalk, -, hs⟩ := Path.step_of_join h hlocated
  have habove : now.locate directory = .ok above := FileSystem.locate_iff.mpr
    ⟨Path.checkText_of_join h htext (FileSystem.locate_iff.mp hlocated).1, hwalk⟩
  have hstep := step_of_bare h hl
  obtain ⟨hn', ⟨-, rfl⟩ | ⟨hdots, -⟩ | ⟨hidle, hup, -, -, rfl⟩⟩ := FileSystem.step_cases hstep
  · -- the working directory is no file
    rw [hn'] at hfile
    cases hfile
  · -- above a directory of the search path stands a directory, and no file
    rw [hbin] at habove
    obtain ⟨up, rfl, -, hup⟩ := Path.locate_of_join hname hparent habove
    rw [hdots, FileSystem.step_up (FileSystem.step_cases hs).1] at hs
    obtain rfl := Except.ok.inj hs
    rw [List.tail_cons, hup] at hn
    cases hn
  · obtain ⟨-, ⟨hidle', -⟩ | ⟨hup', -⟩ | ⟨-, -, -, -, rfl⟩⟩ := FileSystem.step_cases hs
    · exact absurd hidle' hidle
    · exact absurd hup' hup
    · rw [habove, hhere]
      constructor
      · intro hsame
        rw [(List.cons.inj hsame).2]
      · intro hsame
        rw [Except.ok.inj hsame]

end FlameFold.Machine
