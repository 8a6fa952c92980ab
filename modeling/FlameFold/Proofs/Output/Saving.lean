import FlameFold.Output.Collapsed
import FlameFold.Output.Graphic
import FlameFold.Proofs.FileSystem.Changes
import FlameFold.Proofs.Path.Ancestors
import FlameFold.Proofs.Session.Step

/-!
# What saving a file does to the files

Saving depends on the files alone and calls no program. Where it succeeds, the path leads
to a file with exactly the content; where it fails, at most directories on the way have
been made.
-/

namespace FlameFold.Output

/-- The files after way was made for a file, and whether it can be written. -/
def placed (files : FileSystem) (p : Path) : FileSystem × Except Misplacement Unit :=
  if p.text.isEmpty then (files, .error .empty)
  else if files.isDirectory p then (files, .error (.directory p))
  else match p.parent? with
    | none => (files, .ok ())
    | some parent =>
      if parent.text.isEmpty || files.pathExists parent then (files, .ok ())
      else match files.makeDirectories parent with
        | (made, none) => (made, .ok ())
        | (made, some fault) => (made, .error (.unmade parent fault))

/-- The files after a file was saved, and whether it was. -/
def saved (files : FileSystem) (p : Path) (content : List UInt8) :
    FileSystem × Except Failure Unit :=
  match placed files p with
  | (made, .error misplacement) => (made, .error (.badPath misplacement.reason))
  | (made, .ok ()) =>
    match made.write p content with
    | .error cause => (made, .error (.notWritten cause))
    | .ok after => (after, .ok ())

theorem makeWay_gives {p : Path} (before : Session) (hempty : ¬p.text.isEmpty = true)
    (hdirectory : ¬before.files.isDirectory p = true) :
    (makeWay p).Gives before (placed before.files p).2 (placed before.files p).1 := by
  rw [placed, if_neg hempty, if_neg hdirectory]
  unfold makeWay
  cases p.parent? with
  | none => exact Step.pure_gives _ before
  | some parent =>
    refine (Step.view_gives (·.pathExists parent) before).bind fun looked hl => ?_
    dsimp only
    split
    · exact hl ▸ Step.pure_gives _ looked
    · refine (Step.note_gives _ _ _ looked).bind fun noted hn => ?_
      refine (Step.view_gives (·.makeDirectories parent) noted).bind fun made hm => ?_
      rw [hn, hl]
      cases hd : before.files.makeDirectories parent with
      | mk grown fault? =>
        dsimp only
        refine (Step.setFiles_gives grown made).bind fun last hlast => ?_
        cases fault? with
        | none => exact hlast ▸ Step.pure_gives _ last
        | some fault => exact hlast ▸ Step.pure_gives _ last

/-- Placing a file depends on the files alone. -/
theorem place_gives (p : Path) (extension : String) (before : Session) :
    (place p extension).Gives before (placed before.files p).2 (placed before.files p).1 := by
  unfold place
  split
  · next hempty =>
    rw [placed, if_pos hempty]
    exact Step.pure_gives _ before
  · next hempty =>
    refine (Step.view_gives (·.isDirectory p) before).bind fun looked hl => ?_
    split
    · next hdirectory =>
      rw [placed, if_neg hempty, if_pos hdirectory]
      exact hl ▸ Step.pure_gives _ looked
    · next hdirectory =>
      rw [← hl] at hdirectory ⊢
      split
      · exact (Step.note_gives _ _ _ looked).bind fun noted hn =>
          hn ▸ makeWay_gives noted hempty (hn ▸ hdirectory)
      · exact makeWay_gives looked hempty hdirectory

/-- Saving a file depends on the files alone. -/
theorem save_gives (p : Path) (extension : String) (content : List UInt8) (before : Session) :
    (save p extension content).Gives before (saved before.files p content).2
      (saved before.files p content).1 := by
  unfold save saved
  refine (place_gives p extension before).bind fun ready hr => ?_
  cases hp : placed before.files p with
  | mk made result =>
    rw [hp] at hr
    cases result with
    | error misplacement => exact hr ▸ Step.pure_gives _ ready
    | ok _ =>
      refine (Step.write_gives p content ready).bind fun written hw => ?_
      rw [hr] at hw ⊢
      dsimp only at hw ⊢
      cases hwrite : made.write p content with
      | error cause =>
        rw [hwrite] at hw
        have hfiles : written.files = made := hw
        exact hfiles ▸ Step.pure_gives _ written
      | ok after =>
        rw [hwrite] at hw
        have hfiles : written.files = after := hw
        exact hfiles ▸ Step.pure_gives _ written

/-- A flame graph is saved as it is. -/
theorem writeGraphic_gives (content : List UInt8) (p : Path) (before : Session) :
    (writeGraphic content p).Gives before (saved before.files p content).2
      (saved before.files p content).1 := by
  unfold writeGraphic
  refine (save_gives p "svg" content before).bind fun ready hr => ?_
  cases hresult : (saved before.files p content).2 with
  | error failure => exact hr ▸ Step.pure_gives _ ready
  | ok _ => exact (Step.note_gives _ _ _ ready).bind fun noted hn =>
      (hn.trans hr) ▸ Step.pure_gives _ noted

/-- The bytes of a file of collapsed stacks. -/
def collapsedBytes (table : Stack.CountTable) : List UInt8 :=
  Text.encode (collapsedText table)

/-- A table is saved as its collapsed lines, and their number is given. -/
theorem writeCollapsed_gives (table : Stack.CountTable) (p : Path) (before : Session) :
    (writeCollapsed table p).Gives before
      ((saved before.files p (collapsedBytes table)).2.map fun _ => (writtenEntries table).length)
      (saved before.files p (collapsedBytes table)).1 := by
  unfold writeCollapsed
  refine (save_gives p "txt" (collapsedBytes table) before).bind fun ready hr => ?_
  cases hresult : (saved before.files p (collapsedBytes table)).2 with
  | error failure => exact hr ▸ Step.pure_gives _ ready
  | ok _ => exact (Step.note_gives _ _ _ ready).bind fun noted hn =>
      (hn.trans hr) ▸ Step.pure_gives _ noted

/-- Making way makes directories on the way alone. Without a fault the directory that the
path lies in is there. -/
theorem placed_grown {files made : FileSystem} {p : Path} {result : Except Misplacement Unit}
    (h : placed files p = (made, result)) :
    FileSystem.Grown (p.parent?.elim [] Path.ancestors) files made ∧
      (result = .ok () → ∀ parent ∈ p.parent?, parent.ancestors.head? = some parent →
        parent.text.isEmpty = false → made.pathExists parent = true) := by
  unfold placed at h
  split_ifs at h
  · cases h
    exact ⟨.refl _ _, fun h => by cases h⟩
  · cases h
    exact ⟨.refl _ _, fun h => by cases h⟩
  · cases hparent : p.parent? with
    | none =>
      rw [hparent] at h
      cases h
      exact ⟨.refl _ _, by simp⟩
    | some parent =>
      simp only [hparent] at h
      split_ifs at h with hskip
      · cases h
        refine ⟨.refl _ _, fun _ q hq _ hne => ?_⟩
        cases hq
        simpa [hne] using hskip
      · cases hm : files.makeDirectories parent with
        | mk grown fault? =>
          obtain ⟨hgrown, hfirst⟩ := FileSystem.makeFrom_grown hm
          rw [hm] at h
          cases fault? with
          | some fault =>
            cases h
            exact ⟨hgrown, fun h => by cases h⟩
          | none =>
            cases h
            refine ⟨hgrown, fun _ q hq hself hne => ?_⟩
            cases hq
            obtain ⟨place, hl, hn⟩ := FileSystem.isDirectory_iff.mp (hfirst rfl _ hself hne)
            exact FileSystem.pathExists_iff.mpr ⟨place, hl, by rw [hn]; rfl⟩

/-- A file that could not be saved leaves at most directories on the way to it. -/
theorem saved_error {files after : FileSystem} {p : Path} {content : List UInt8}
    {failure : Failure} (h : saved files p content = (after, .error failure)) :
    FileSystem.Grown (p.parent?.elim [] Path.ancestors) files after := by
  unfold saved at h
  cases hp : placed files p with
  | mk made result =>
    have hgrown := (placed_grown hp).1
    rw [hp] at h
    cases result with
    | error misplacement =>
      cases h
      exact hgrown
    | ok _ =>
      cases hw : made.write p content with
      | error cause =>
        simp only [hw] at h
        cases h
        exact hgrown
      | ok written =>
        simp only [hw] at h
        cases h

/-- A file that was saved was written after way was made for it. -/
theorem saved_ok {files after : FileSystem} {p : Path} {content : List UInt8}
    (h : saved files p content = (after, .ok ())) :
    ∃ made, placed files p = (made, .ok ()) ∧ made.write p content = .ok after := by
  unfold saved at h
  cases hp : placed files p with
  | mk made result =>
    rw [hp] at h
    cases result with
    | error misplacement => cases h
    | ok _ =>
      cases hw : made.write p content with
      | error cause =>
        simp only [hw] at h
        cases h
      | ok written =>
        simp only [hw] at h
        cases h
        exact ⟨made, rfl, hw⟩

/-- What was saved is held by a file, unless a device stands there and nothing holds it; and
nothing else is changed but for directories on the way. -/
theorem saved_changed {files after : FileSystem} {p : Path} {content : List UInt8}
    (h : saved files p content = (after, .ok ())) :
    (∃ place, after.Holds p place content ∧
        FileSystem.Changed (p.parent?.elim [] Path.ancestors) [place] files after) ∨
      (FileSystem.Changed (p.parent?.elim [] Path.ancestors) [] files after ∧
        ∃ place device, after.locate p = .ok place ∧
          after.node? place = some (.device device)) := by
  obtain ⟨made, hplaced, hwrite⟩ := saved_ok h
  have hmade := (placed_grown hplaced).1.changed []
  obtain ⟨place, hwritten⟩ | ⟨rfl, hdevice⟩ := FileSystem.write_written hwrite
  · exact .inl ⟨place, hwritten.holds, hmade.trans (hwritten.changed _)⟩
  · exact .inr ⟨hmade, hdevice⟩

/-- What was saved is read back, unless a device stands there. -/
theorem saved_read {files after : FileSystem} {p : Path} {content : List UInt8}
    (h : saved files p content = (after, .ok ())) :
    after.read p = .ok content ∨ ∃ device, after.find? p = some (.device device) := by
  obtain ⟨place, hholds, -⟩ | ⟨-, place, device, hl, hn⟩ := saved_changed h
  · exact .inl hholds.read
  · exact .inr ⟨device, by simp only [FileSystem.find?, hl, hn]⟩

/-- What was saved where no device stands is read back. -/
theorem saved_kept {files after : FileSystem} {p : Path} {content : List UInt8}
    (h : saved files p content = (after, .ok ()))
    (hkeeps : ∀ device, after.find? p ≠ some (.device device)) : after.read p = .ok content :=
  (saved_read h).resolve_right fun ⟨device, hdevice⟩ => hkeeps device hdevice

/-- A directory with a device in it that takes everything and keeps nothing. -/
def blackHole : FileSystem where
  nodes :=
    [([Text.encode "dev"], .directory),
      ([Text.encode "null", Text.encode "dev"], .device .null)]
  here := []

end FlameFold.Output
