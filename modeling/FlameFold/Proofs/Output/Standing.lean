import FlameFold.Proofs.FileSystem.Filling
import FlameFold.Proofs.Output.Listing
import FlameFold.Proofs.Output.Saving

/-!
# Saving in a directory that stands

Where a directory stands, a file that is joined to it is saved without making any directory.
Whether it can be saved depends on its path and on what stands in its way, and on nothing that
plain files hold; and if so it is the only file that is filled.
-/

namespace FlameFold.FileSystem

variable {fs : FileSystem} {p first : Path} {place : Location}

theorem walk_singleton (fs : FileSystem) (place : Location) (name : Name) :
    fs.walk place [name] = fs.step place name := by
  simp [walk]

/-- A walk with a name in it reaches a directory before that name. -/
theorem walk_middle {names rest : List Name} {name : Name} {start : Location}
    (h : fs.walk start (names ++ name :: rest) = .ok place) :
    ∃ middle, fs.walk start names = .ok middle ∧ fs.node? middle = some .directory := by
  cases hw : fs.walk start names with
  | error fault =>
    rw [walk, List.foldlM_append, ← walk, hw] at h
    cases h
  | ok middle =>
    rw [walk_append _ hw, walk, List.foldlM_cons] at h
    cases hs : fs.step middle name with
    | error fault => simp [hs, bind, Except.bind] at h
    | ok next => exact ⟨middle, rfl, (step_cases hs).1⟩

/-- What stands before a slash of a path that leads somewhere leads to a directory. -/
theorem isDirectory_of_append {behind : List Char} (h : fs.locate p = .ok place)
    (htext : p.text.toList = first.text.toList ++ '/' :: behind) (hfirst : first.text ≠ "") :
    fs.isDirectory first = true := by
  obtain ⟨hcheck, hwalk⟩ := locate_iff.mp h
  obtain ⟨piece, more, hbehind⟩ := List.exists_cons_of_ne_nil (List.splitOn_ne_nil '/' behind)
  rw [start_of_append htext hfirst, names, Path.pieces, htext, List.splitOn_append_cons_self,
    hbehind, List.map_append, List.map_cons] at hwalk
  obtain ⟨middle, hw, hn⟩ := walk_middle hwalk
  have hlocate := locate_iff.mpr ⟨checkText_of_append htext hfirst hcheck, hw⟩
  exact isDirectory_iff.mpr ⟨middle, hlocate, hn⟩

/-- The root is a directory. -/
theorem isDirectory_root (h : p.text.toList = ['/']) : fs.isDirectory p = true := by
  obtain ⟨text⟩ := p
  obtain rfl : text = "/" := String.toList_inj.mp h
  rfl

/-- The first of the paths above a directory that stands leads to a directory, if it has any
text. -/
theorem isDirectory_ancestor (h : fs.isDirectory p = true)
    (hfirst : p.ancestors.head? = some first) (hne : first.text ≠ "") :
    fs.isDirectory first = true := by
  obtain ⟨place, hl, -⟩ := isDirectory_iff.mp h
  cases hp : p.head with
  | mk start body =>
    obtain ⟨htext, hbegins⟩ := Path.head_eq_iff.mp hp
    have hall := Path.ancestors_eq hp
    rw [← Path.climb_dropWhile] at hall
    cases hkept : (body.splitOn '/').reverse.dropWhile Path.isIdle with
    | nil =>
      -- nothing but the start of the path says something
      rw [hkept, Path.climb] at hall
      rw [hall] at hfirst
      obtain rfl : ⟨String.ofList start⟩ = first := by simpa using hfirst
      rcases hbegins with rfl | ⟨rfl, rfl | hslash⟩ | ⟨rfl, -⟩
      · exact isDirectory_root (String.toList_ofList ..)
      · rw [List.append_nil] at htext
        rwa [← htext, String.ofList_toList]
      · obtain ⟨behind, rfl⟩ := List.head?_eq_some_iff.mp hslash
        exact isDirectory_of_append hl (by rw [htext, String.toList_ofList]) hne
      · simp at hne
    | cons piece rest =>
      have hkeeps := Path.kept_begins hkept (List.cons_ne_nil _ _)
      have hpiece : Path.isIdle piece = false := by
        have hhead := List.head?_dropWhile_not Path.isIdle (body.splitOn '/').reverse
        rwa [hkept] at hhead
      rw [hkept, Path.climb, if_neg (by simp [hpiece])] at hall
      rw [hall] at hfirst
      obtain rfl : Path.ofReversedPieces start (piece :: rest) = first := by simpa using hfirst
      rcases hkeeps with hbody | ⟨behind, hbody⟩
      · rw [Path.ofReversedPieces, hbody, ← htext, String.ofList_toList]
        exact h
      · have hcut : p.text.toList =
            (Path.ofReversedPieces start (piece :: rest)).text.toList ++ '/' :: behind := by
          rw [htext, Path.ofReversedPieces, String.toList_ofList, List.append_assoc, ← hbody]
        exact isDirectory_of_append hl hcut hne

end FlameFold.FileSystem

namespace FlameFold.Path

open FileSystem

variable {fs : FileSystem} {name : List Char} {directory : Path} {out place : Location}

/-- A joined path has a text. -/
theorem join_ne_empty (h : IsName name) (directory : Path) :
    (directory.join ⟨String.ofList name⟩).text ≠ "" := by
  intro hempty
  have htext := join_text h directory
  rw [hempty] at htext
  unfold glue at htext
  split at htext <;> simp [h.ne_nil] at htext

/-- The names of a joined path but for the last one lead to the directory. -/
theorem walk_join (h : IsName name) (hl : fs.locate directory = .ok out) :
    ∃ base, names (directory.join ⟨String.ofList name⟩) =
        base ++ [name.flatMap String.utf8EncodeChar] ∧
      fs.walk (fs.start (directory.join ⟨String.ofList name⟩)) base = .ok out := by
  have hwalk := (locate_iff.mp hl).2
  obtain ⟨base, hglue, hbase⟩ := splitOn_glue h.whole directory.text.toList
  refine ⟨base.map fun piece => piece.flatMap String.utf8EncodeChar, ?_, ?_⟩
  · rw [names, pieces, join_text h, hglue, List.map_append]
    rfl
  rw [start_join fs h.whole]
  rw [names, pieces] at hwalk
  obtain hb | hb := hbase
  · rwa [hb] at hwalk
  · rw [hb, List.map_append] at hwalk
    obtain ⟨last, hw, hs⟩ := walk_concat hwalk
    obtain ⟨-, ⟨-, rfl⟩ | ⟨hup, -⟩ | ⟨hidle, -⟩⟩ := step_cases hs
    · exact hw
    · exact absurd hup (by decide)
    · exact absurd (.inl rfl) hidle

end FlameFold.Path

namespace FlameFold.FileSystem

variable {fs : FileSystem} {p directory : Path} {name : Name} {out place : Location}

/-- The path ends in a name of its own, and its file has a place in a directory that stands. -/
structure Berth (fs : FileSystem) (p : Path) (name : Name) (out : Location) : Prop where
  /-- The path has a text. -/
  text : p.text ≠ ""
  /-- The directory that the path names is there, if the path names any. -/
  parent : ∀ parent ∈ p.parent?, parent.text ≠ "" → fs.pathExists parent = true
  /-- The last name of the path has its place in the directory. -/
  slot : checkText p = .ok () → fs.slot p = .ok (.named out name false)
  /-- The path leads to what stands there. -/
  leads : ∀ place, fs.locate p = .ok place ↔
    checkText p = .ok () ∧ name.length ≤ nameLimit ∧ (fs.node? (name :: out)).isSome ∧
      place = name :: out

namespace Berth

/-- The path leads to a directory only if one stands at the place of the file. -/
theorem isDirectory_iff (h : fs.Berth p name out) : fs.isDirectory p = true ↔
    checkText p = .ok () ∧ name.length ≤ nameLimit ∧ fs.node? (name :: out) = some .directory := by
  rw [FileSystem.isDirectory_iff]
  constructor
  · rintro ⟨place, hl, hn⟩
    obtain ⟨hcheck, hlength, -, rfl⟩ := (h.leads place).mp hl
    exact ⟨hcheck, hlength, hn⟩
  · rintro ⟨hcheck, hlength, hn⟩
    exact ⟨_, (h.leads _).mpr ⟨hcheck, hlength, by rw [hn]; rfl, rfl⟩, hn⟩

/-- Where a file stands, it is read. -/
theorem read (h : fs.Berth p name out) (hcheck : checkText p = .ok ())
    (hlength : name.length ≤ nameLimit) {node : Node} (hn : fs.node? (name :: out) = some node) :
    fs.read p = match node with
      | .file content _ => .ok content
      | .directory => .error .isADirectory
      | .device device => device.content := by
  have hl := (h.leads _).mpr ⟨hcheck, hlength, by rw [hn]; rfl, rfl⟩
  rw [FileSystem.read, hl]
  simp only [bind, Except.bind, hn]
  cases node <;> rfl

end Berth

end FlameFold.FileSystem

namespace FlameFold.Path

open FileSystem

variable {fs : FileSystem} {name : List Char} {directory : Path} {out place : Location}

/-- Where a path joined to a directory that stands leads. -/
theorem locate_join_iff (h : IsName name) (hl : fs.locate directory = .ok out)
    (hn : fs.node? out = some .directory) :
    fs.locate (directory.join ⟨String.ofList name⟩) = .ok place ↔
      checkText (directory.join ⟨String.ofList name⟩) = .ok () ∧
        (name.flatMap String.utf8EncodeChar).length ≤ nameLimit ∧
        (fs.node? (name.flatMap String.utf8EncodeChar :: out)).isSome ∧
        place = name.flatMap String.utf8EncodeChar :: out := by
  obtain ⟨base, hnames, hwalk⟩ := walk_join h hl
  rw [locate_iff, hnames, walk_append _ hwalk, walk_singleton]
  refine and_congr_right fun _ => ?_
  constructor
  · intro hs
    obtain ⟨-, ⟨hidle, -⟩ | ⟨hup, -⟩ | ⟨-, -, hlength, hthere, rfl⟩⟩ := step_cases hs
    · exact absurd hidle h.own.1
    · exact absurd hup h.own.2
    · exact ⟨hlength, hthere, rfl⟩
  · rintro ⟨hlength, hthere, rfl⟩
    exact step_down hn h.own.1 h.own.2 hlength hthere

/-- The last name of a path joined to a directory that stands has its place in there. -/
theorem slot_join (h : IsName name) (hl : fs.locate directory = .ok out)
    (hn : fs.node? out = some .directory)
    (hcheck : checkText (directory.join ⟨String.ofList name⟩) = .ok ()) :
    fs.slot (directory.join ⟨String.ofList name⟩) =
      .ok (.named out (name.flatMap String.utf8EncodeChar) false) := by
  obtain ⟨base, hnames, hwalk⟩ := walk_join h hl
  have hne : name.flatMap String.utf8EncodeChar ≠ [] := fun hnil => h.own.1 (.inl hnil)
  have hdots : ¬(name.flatMap String.utf8EncodeChar = dot ∨
      name.flatMap String.utf8EncodeChar = dots) :=
    fun hd => hd.elim (fun hd => h.own.1 (.inr hd)) h.own.2
  unfold slot
  rw [hcheck, hnames, List.reverse_append, List.reverse_singleton, List.singleton_append,
    List.dropWhile_cons_of_neg (by simpa using hne)]
  simp only [bind, Except.bind, List.reverse_reverse, hwalk, if_neg hdots,
    step_idle hn (.inr rfl), List.getLast?_append, List.getLast?_singleton, Option.some_or,
    Option.some.injEq, decide_eq_false hne]

/-- A name that is joined to a directory that stands has its place there. -/
theorem berth_join (h : IsName name) (hl : fs.locate directory = .ok out)
    (hn : fs.node? out = some .directory) :
    fs.Berth (directory.join ⟨String.ofList name⟩) (name.flatMap String.utf8EncodeChar) out where
  text := join_ne_empty h directory
  parent parent hparent hne := by
    rw [parent?_join h] at hparent
    have hd := isDirectory_iff.mpr ⟨out, hl, hn⟩
    obtain ⟨place, hl', hn'⟩ := isDirectory_iff.mp (isDirectory_ancestor hd hparent hne)
    exact pathExists_iff.mpr ⟨place, hl', by rw [hn']; rfl⟩
  slot := slot_join h hl hn
  leads _ := locate_join_iff h hl hn

end FlameFold.Path

namespace FlameFold.Output

open FileSystem

/-- What saving a file comes to in a directory that stands. -/
structure Filing where
  /-- The file that is filled, if any. -/
  writings : List Writing
  /-- Whether the content was saved. -/
  result : Except Failure Unit

/-- What saving a content at a path comes to, by the name and the directory of its file and by
what stands in its way there. -/
def filing (p : Path) (name : Name) (out : Location) (content : List UInt8) :
    Option Node → Filing := fun obstacle? =>
  match checkText p with
  | .error fault => ⟨[], .error (.notWritten fault)⟩
  | .ok () =>
    if nameLimit < name.length then ⟨[], .error (.notWritten .nameTooLong)⟩
    else match obstacle? with
      | some (.device device) => ⟨[], (device.accept content).mapError .notWritten⟩
      | some _ => ⟨[], .error (.badPath (Misplacement.directory p).reason)⟩
      | none => ⟨[⟨name :: out, content⟩], .ok ()⟩

/-- What is read where a content was saved. -/
def readBack (content : List UInt8) : Option Node → Except SystemFault (List UInt8)
  | some (.device device) => device.content
  | _ => .ok content

variable {fs : FileSystem} {p : Path} {name : Name} {out : Location} {content : List UInt8}
  {obstacle : Option Node}

/-- At most the file is filled, and only where nothing stands in its way. -/
theorem filing_writings (fs : FileSystem) (p : Path) (name : Name) (out : Location)
    (content : List UInt8) :
    fs.Takes (filing p name out content (fs.obstacle? (name :: out))).writings ∧
      ((filing p name out content (fs.obstacle? (name :: out))).writings.map Writing.place).Sublist
        [name :: out] := by
  unfold filing
  split
  · simp [Takes]
  · split
    · simp [Takes]
    · split
      · simp [Takes]
      · simp [Takes]
      · next hfree => simpa [Takes] using hfree

/-- What was saved is read where it was saved, unless a device took it. -/
theorem read_filing (hobstacle : fs.obstacle? (name :: out) = obstacle)
    (hok : (filing p name out content obstacle).result = .ok ())
    (h : (fs.fillAll (filing p name out content obstacle).writings).Berth p name out) :
    (fs.fillAll (filing p name out content obstacle).writings).read p =
      readBack content obstacle := by
  unfold filing at hok h ⊢
  cases hcheck : checkText p with
  | error fault => simp [hcheck] at hok
  | ok _ =>
    by_cases hlong : nameLimit < name.length
    · simp [hcheck, hlong] at hok
    have hlength := Nat.le_of_not_lt hlong
    cases obstacle with
    | none =>
      simp only [hcheck, if_neg hlong, fillAll_cons, fillAll_nil] at h ⊢
      rw [h.read hcheck hlength ((node?_fill fs content (ne_root hobstacle) _).trans (if_pos rfl))]
      rfl
    | some node =>
      obtain ⟨hn, hplain⟩ := obstacle?_eq_some_iff.mp hobstacle
      cases node with
      | file found executable => exact absurd rfl (hplain found executable)
      | directory => simp [hcheck, hlong] at hok
      | device device =>
        simp only [hcheck, if_neg hlong, fillAll_nil] at h ⊢
        rw [h.read hcheck hlength hn]
        rfl

/-- A path that leads to no directory is placed without a change. -/
theorem placed_berth (h : fs.Berth p name out) (hplain : fs.isDirectory p = false) :
    placed fs p = (fs, .ok ()) := by
  rw [placed, if_neg (by simpa using h.text), if_neg (by simp [hplain])]
  cases hparent : p.parent? with
  | none => rfl
  | some parent =>
    by_cases htext : parent.text = ""
    · simp [htext]
    · simp [h.parent parent hparent htext]

/-- Saving a file in a directory that stands fills at most this file, and comes to what its path
and what stands in its way make of it. -/
theorem saved_berth (h : fs.Berth p name out)
    (hobstacle : fs.obstacle? (name :: out) = obstacle) (content : List UInt8) :
    saved fs p content = (fs.fillAll (filing p name out content obstacle).writings,
      (filing p name out content obstacle).result) := by
  by_cases hdirectory : fs.isDirectory p = true
  · obtain ⟨hcheck, hlength, hn⟩ := h.isDirectory_iff.mp hdirectory
    obtain rfl := (obstacle?_eq_directory_iff.mpr hn).symm.trans hobstacle
    rw [saved, placed, if_neg (by simpa using h.text), if_pos hdirectory]
    simp [filing, hcheck, Nat.not_lt.mpr hlength]
  rw [saved, placed_berth h (by simpa using hdirectory)]
  cases hcheck : checkText p with
  | error fault => simp [write, FileSystem.slot, filing, hcheck, bind, Except.bind]
  | ok _ =>
    have hslot := h.slot hcheck
    by_cases hlong : nameLimit < name.length
    · simp [write, hslot, filing, hcheck, hlong, bind, Except.bind]
    dsimp only
    rw [write_named hslot (Nat.le_of_not_lt hlong), hobstacle]
    cases obstacle with
    | none => simp [filing, hcheck, hlong]
    | some node =>
      obtain ⟨hn, hplain⟩ := obstacle?_eq_some_iff.mp hobstacle
      cases node with
      | file found executable => exact absurd rfl (hplain found executable)
      | directory =>
        exact absurd (h.isDirectory_iff.mpr ⟨hcheck, Nat.le_of_not_lt hlong, hn⟩) hdirectory
      | device device =>
        cases haccept : device.accept content <;>
          simp [filing, hcheck, hlong, haccept, bind, Except.bind, Except.mapError]

/-- Where plain files come and change, saving a content in a directory that stands does the same
throughout, and the same is read where it was saved. -/
theorem saved_filled {base : FileSystem} (hberth : ∀ fs, base.Filled fs → fs.Berth p name out)
    (content : List UInt8) : ∃ filing : Filing, base.Takes filing.writings ∧
      (filing.writings.map Writing.place).Sublist [name :: out] ∧
      (∀ fs, base.Filled fs →
        saved fs p content = (fs.fillAll filing.writings, filing.result)) ∧
      (filing.result = .ok () → ∃ input, ∀ fs, base.Filled fs →
        (fs.fillAll filing.writings).read p = input) := by
  obtain ⟨htakes, hplaces⟩ := filing_writings base p name out content
  refine ⟨_, htakes, hplaces, fun fs hfs => saved_berth (hberth fs hfs) (hfs.obstacle _) content,
    fun hok => ⟨_, fun fs hfs => read_filing (hfs.obstacle _) hok (hberth _ (hfs.fillAll htakes))⟩⟩

end FlameFold.Output
