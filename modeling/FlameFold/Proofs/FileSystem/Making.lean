import FlameFold.Proofs.FileSystem.Growth

/-!
# What making and writing leave behind

Making directories lets the file system grow, whether or not it comes to an end, and where
it does the path leads to a directory. Writing a file changes what stands at one location,
to which the path leads afterwards.
-/

namespace FlameFold.FileSystem

/-- What is left of names without the empty ones before it. -/
theorem dropWhile_empty {names rest : List Name} {name : Name}
    (h : names.dropWhile (· = []) = name :: rest) :
    ∃ before, names = before ++ name :: rest ∧ (∀ empty ∈ before, empty = []) ∧ name ≠ [] := by
  induction names with
  | nil => simp at h
  | cons first more ih =>
    by_cases hf : first = []
    · rw [List.dropWhile_cons_of_pos (by simpa using hf)] at h
      obtain ⟨before, hmore, hempty, hname⟩ := ih h
      refine ⟨first :: before, by rw [hmore]; rfl, ?_, hname⟩
      intro empty hmem
      rcases List.mem_cons.mp hmem with rfl | hmem
      · exact hf
      · exact hempty empty hmem
    · rw [List.dropWhile_cons_of_neg (by simpa using hf)] at h
      cases h
      exact ⟨[], rfl, by simp, hf⟩

/-- The last name of a path and what the names before and after it do: those before it lead
to a directory, and those after it are empty. -/
structure SlotNames (fs : FileSystem) (p : Path) (directory : Location) (name : Name)
    (slashed : Bool) : Prop where
  /-- The text can be a path. -/
  text : checkText p = .ok ()
  /-- The names before the last one lead to the directory. -/
  names : ∃ above behind, names p = above ++ name :: behind ∧ (∀ empty ∈ behind, empty = []) ∧
    (slashed = false → behind = []) ∧ fs.walk (fs.start p) above = .ok directory
  /-- A directory stands there. -/
  directory : fs.node? directory = some .directory
  /-- The last name is one of its own. -/
  own : ¬(name = [] ∨ name = dot) ∧ name ≠ dots

/-- A slot says where the names of its path lead. -/
theorem slot_named {fs : FileSystem} {p : Path} {directory : Location} {name : Name}
    {slashed : Bool} (h : fs.slot p = .ok (.named directory name slashed)) :
    fs.SlotNames p directory name slashed := by
  unfold slot at h
  cases hc : checkText p with
  | error fault => simp [hc, bind, Except.bind] at h
  | ok _ =>
    simp only [hc, bind, Except.bind] at h
    cases hn : (FileSystem.names p).reverse.dropWhile (· = []) with
    | nil => simp [hn] at h
    | cons last above =>
      simp only [hn] at h
      cases hw : fs.walk (fs.start p) above.reverse with
      | error fault => simp [hw] at h
      | ok place =>
        simp only [hw] at h
        split_ifs at h with hdots
        · cases hs : fs.step place last <;> simp [hs] at h
        · cases hs : fs.step place dot with
          | error fault => simp [hs] at h
          | ok here =>
            simp only [hs, Except.ok.injEq, Slot.named.injEq] at h
            obtain ⟨rfl, rfl, rfl⟩ := h
            obtain ⟨behind, hnames, hempty, hlast⟩ := dropWhile_empty hn
            have hp : FileSystem.names p = above.reverse ++ last :: behind.reverse := by
              rw [← List.reverse_reverse (FileSystem.names p), hnames]
              simp
            refine ⟨hc, ⟨above.reverse, behind.reverse, hp, by simpa using hempty, ?_, hw⟩,
              (step_cases hs).1, ?_⟩
            · intro hslash
              cases behind with
              | nil => rfl
              | cons empty rest =>
                have hl : (FileSystem.names p).getLast? = some [] := by
                  rw [← List.head?_reverse, hnames, hempty empty List.mem_cons_self]
                  rfl
                simp [hl] at hslash
            · exact ⟨fun h => h.elim hlast fun h => hdots (.inl h), fun h => hdots (.inr h)⟩

/-- Empty names lead nowhere else from a directory. -/
theorem walk_empty {fs : FileSystem} {place : Location} {names : List Name}
    (hn : fs.node? place = some .directory) (hempty : ∀ empty ∈ names, empty = []) :
    fs.walk place names = .ok place := by
  induction names with
  | nil => rfl
  | cons name rest ih =>
    have hidle : name = [] ∨ name = dot := .inl (hempty name List.mem_cons_self)
    rw [walk, List.foldlM_cons, step_idle hn hidle]
    exact ih fun empty h => hempty empty (List.mem_cons_of_mem name h)

/-- Names are followed one part after the other. -/
theorem walk_append {fs : FileSystem} {place next : Location} {names : List Name}
    (more : List Name) (h : fs.walk place names = .ok next) :
    fs.walk place (names ++ more) = fs.walk next more := by
  rw [walk, List.foldlM_append, ← walk, h]
  rfl

/-- Where names lead, the names before the last one lead first. -/
theorem walk_concat {fs : FileSystem} {place next : Location} {above : List Name} {name : Name}
    (h : fs.walk place (above ++ [name]) = .ok next) :
    ∃ directory, fs.walk place above = .ok directory ∧ fs.step directory name = .ok next := by
  cases hw : fs.walk place above with
  | error fault =>
    rw [walk, List.foldlM_append, ← walk, hw] at h
    cases h
  | ok directory =>
    rw [walk_append _ hw, walk, List.foldlM_cons] at h
    cases hs : fs.step directory name with
    | error fault => simp [hs, bind, Except.bind] at h
    | ok found =>
      rw [hs] at h
      exact ⟨directory, rfl, hs.trans h⟩

/-- Once something stands in the slot of a path, the path leads to it. -/
theorem SlotNames.locate {before after : FileSystem} {p : Path} {directory : Location}
    {name : Name} {slashed : Bool} {node : Node}
    (h : before.SlotNames p directory name slashed) (hp : before.Persists after)
    (hlength : name.length ≤ nameLimit) (hnode : after.node? (name :: directory) = some node)
    (hslash : slashed = true → node = .directory) :
    after.locate p = .ok (name :: directory) := by
  obtain ⟨above, behind, hnames, hempty, hclean, hw⟩ := h.names
  have hdown : after.step directory name = .ok (name :: directory) :=
    step_down (hp.directory _ h.directory) h.own.1 h.own.2 hlength (by rw [hnode]; rfl)
  have hbehind : after.walk (name :: directory) behind = .ok (name :: directory) := by
    cases slashed with
    | false =>
      rw [hclean rfl]
      rfl
    | true =>
      rw [hslash rfl] at hnode
      exact walk_empty hnode hempty
  rw [FileSystem.locate, h.text, hp.start, hnames]
  change after.walk (before.start p) (above ++ name :: behind) = _
  rw [walk_append _ (hp.walk hw), walk, List.foldlM_cons, hdown]
  exact hbehind

/-- Making a directory adds it where its path leads, and nothing else. -/
theorem makeDirectory_grown {fs made : FileSystem} {p : Path}
    (h : fs.makeDirectory p = .ok made) :
    Grown [p] fs made ∧ made.isDirectory p = true := by
  unfold makeDirectory at h
  cases hs : fs.slot p with
  | error fault => simp [hs, bind, Except.bind] at h
  | ok slot =>
    cases slot with
    | standing => simp [hs, bind, Except.bind] at h
    | named directory name slashed =>
      simp only [hs, bind, Except.bind] at h
      split_ifs at h with hlong hthere
      have hmade : fs.put (name :: directory) .directory = made := Except.ok.inj h
      have hfree : fs.node? (name :: directory) = none := by simpa using hthere
      have hnode : made.node? (name :: directory) = some .directory := by
        rw [← hmade, node?_put fs _ (List.cons_ne_nil _ _), if_pos rfl]
      have hpersists : fs.Persists made := by
        rw [← hmade]
        exact persists_put _ (List.cons_ne_nil _ _) (by simp [hfree])
      have hl : made.locate p = .ok (name :: directory) :=
        (slot_named hs).locate hpersists (Nat.le_of_not_lt hlong) hnode fun _ => rfl
      refine ⟨⟨hpersists.here, fun q => ?_⟩, isDirectory_iff.mpr ⟨_, hl, hnode⟩⟩
      by_cases hq : q = name :: directory
      · rw [hq]
        exact .inr ⟨hfree, hnode, p, List.mem_singleton.mpr rfl, hl⟩
      · left
        rw [← hmade, node?_put fs _ (List.cons_ne_nil _ _), if_neg hq]

/-- Settling on a directory makes at most this one; without a fault it is there. -/
theorem settle_grown {fs made : FileSystem} {p : Path} {fault? : Option SystemFault}
    (h : fs.settle p = (made, fault?)) :
    Grown [p] fs made ∧ (fault? = none → made.isDirectory p = true) := by
  unfold settle at h
  cases hm : fs.makeDirectory p with
  | ok grown =>
    rw [hm] at h
    cases h
    exact ⟨(makeDirectory_grown hm).1, fun _ => (makeDirectory_grown hm).2⟩
  | error fault =>
    simp only [hm] at h
    split_ifs at h with hd
    · cases h
      exact ⟨.refl _ _, fun _ => hd⟩
    · cases h
      exact ⟨.refl _ _, fun hnone => by cases hnone⟩

/-- Making the directories on the way makes at most the paths given; without a fault the
first of them is there. -/
theorem makeFrom_grown {fs made : FileSystem} {paths : List Path} {fault? : Option SystemFault}
    (h : fs.makeFrom paths = (made, fault?)) :
    Grown paths fs made ∧
      (fault? = none → ∀ p ∈ paths.head?, p.text.isEmpty = false → made.isDirectory p = true) := by
  induction paths generalizing made fault? with
  | nil =>
    cases h
    exact ⟨.refl _ _, by simp⟩
  | cons p above ih =>
    unfold makeFrom at h
    split_ifs at h with hempty
    · cases h
      exact ⟨.refl _ _, by simp_all⟩
    · cases hs : fs.settle p with
      | mk grown found =>
        have hfirst := settle_grown hs
        rw [hs] at h
        cases found with
        | none =>
          cases h
          exact ⟨hfirst.1.mono (by simp), by simpa using fun _ => hfirst.2⟩
        | some fault =>
          simp only at h
          split_ifs at h with hmissing
          · cases hm : fs.makeFrom above with
            | mk higher failed =>
              have habove := (ih hm).1.mono (List.subset_cons_self p above)
              rw [hm] at h
              cases failed with
              | none =>
                have hlast := settle_grown h
                exact ⟨habove.trans (hlast.1.mono (by simp)), by simpa using fun h _ => hlast.2 h⟩
              | some fault' =>
                cases h
                exact ⟨habove, by simp⟩
          · cases h
            exact ⟨.refl _ _, by simp⟩

/-- No device stands anywhere. -/
def Plain (fs : FileSystem) : Prop := ∀ place device, fs.node? place ≠ some (.device device)

/-- Where no entry is a device, none stands anywhere. -/
theorem plain_of_nodes {fs : FileSystem}
    (h : ∀ entry ∈ fs.nodes, ∀ device, entry.2 ≠ .device device) : fs.Plain := by
  intro place device hn
  unfold node? at hn
  split at hn
  · cases hn
  · obtain ⟨before, after, hnodes, -⟩ := List.lookup_eq_some_iff.mp hn
    exact h (place, .device device) (by rw [hnodes]; simp) device rfl

/-- Writing goes to the slot of the path, where it replaces a file or makes one; or a
device takes the content. -/
theorem write_cases {fs after : FileSystem} {p : Path} {content : List UInt8}
    (h : fs.write p content = .ok after) :
    ∃ directory name, fs.SlotNames p directory name false ∧ name.length ≤ nameLimit ∧
      ((fs.node? (name :: directory) ≠ some .directory ∧ ∃ executable,
          after = fs.put (name :: directory) (.file content executable)) ∨
        (∃ device, fs.node? (name :: directory) = some (.device device) ∧ after = fs)) := by
  unfold write at h
  cases hs : fs.slot p with
  | error fault => simp [hs, bind, Except.bind] at h
  | ok slot =>
    cases slot with
    | standing => simp [hs, bind, Except.bind] at h
    | named directory name slashed =>
      simp only [hs, bind, Except.bind] at h
      split_ifs at h with hslash hlong
      have hslot := slot_named hs
      rw [Bool.not_eq_true slashed |>.mp hslash] at hslot
      refine ⟨directory, name, hslot, Nat.le_of_not_lt hlong, ?_⟩
      cases hn : fs.node? (name :: directory) with
      | none =>
        simp only [hn] at h
        exact .inl ⟨by simp, false, (Except.ok.inj h).symm⟩
      | some node =>
        cases node with
        | directory => simp [hn] at h
        | file old executable =>
          simp only [hn] at h
          exact .inl ⟨by simp, executable, (Except.ok.inj h).symm⟩
        | device device =>
          simp only [hn] at h
          cases ha : device.accept content with
          | error fault => simp [ha] at h
          | ok _ =>
            rw [ha] at h
            exact .inr ⟨device, rfl, (Except.ok.inj h).symm⟩

/-- The path leads to a file at `place` with the content. -/
structure Holds (fs : FileSystem) (p : Path) (place : Location) (content : List UInt8) :
    Prop where
  /-- The path leads to the place. -/
  located : fs.locate p = .ok place
  /-- The file there has the content. -/
  node : ∃ executable, fs.node? place = some (.file content executable)

/-- What a file holds is what is read. -/
theorem Holds.read {fs : FileSystem} {p : Path} {place : Location} {content : List UInt8}
    (h : fs.Holds p place content) : fs.read p = .ok content := by
  obtain ⟨executable, hn⟩ := h.node
  simp [FileSystem.read, h.located, hn, bind, Except.bind]

/-- A file at `place`, to which the path leads, has been given the content, and nothing
else has changed. -/
structure Written (p : Path) (content : List UInt8) (place : Location)
    (before after : FileSystem) : Prop where
  /-- The file is there with the content. -/
  holds : after.Holds p place content
  /-- No directory has given way to the file. -/
  free : before.node? place ≠ some .directory
  /-- Relative paths start from the same directory. -/
  here : after.here = before.here
  /-- Everything else stands as it was. -/
  rest : ∀ q, q ≠ place → after.node? q = before.node? q

namespace Written

variable {before after : FileSystem} {p : Path} {content : List UInt8} {place : Location}

/-- Writing takes nothing away. -/
theorem persists (h : Written p content place before after) : before.Persists after where
  here := h.here
  directory q hq := by
    have hne : q ≠ place := by
      rintro rfl
      exact h.free hq
    rw [h.rest q hne]
    exact hq
  there q hq := by
    obtain ⟨executable, hn⟩ := h.holds.node
    by_cases hne : q = place
    · rw [hne, hn]
      rfl
    · rw [h.rest q hne]
      exact hq

/-- Writing a file brings no device. -/
theorem device_of_device (h : Written p content place before after) {q : Location}
    {device : Device} (hd : after.node? q = some (.device device)) :
    before.node? q = some (.device device) := by
  obtain ⟨executable, hn⟩ := h.holds.node
  by_cases hne : q = place
  · rw [hne, hn] at hd
    cases hd
  · exact h.rest q hne ▸ hd

end Written

/-- What can be written is written where the path leads, unless a device stands there. -/
theorem write_written {fs after : FileSystem} {p : Path} {content : List UInt8}
    (h : fs.write p content = .ok after) :
    (∃ place, Written p content place fs after) ∨
      (after = fs ∧ ∃ place device, fs.locate p = .ok place ∧
        fs.node? place = some (.device device)) := by
  obtain ⟨directory, name, hslot, hlength, ⟨hfree, executable, rfl⟩ | ⟨device, hn, rfl⟩⟩ :=
    write_cases h
  · have hne : name :: directory ≠ [] := List.cons_ne_nil _ _
    have hnode := node?_put fs (.file content executable) hne
    refine .inl ⟨name :: directory, ⟨?_, executable, ?_⟩, hfree, here_put _ _ _, ?_⟩
    · exact hslot.locate (persists_put _ hne hfree) hlength (by rw [hnode, if_pos rfl]) (by simp)
    · rw [hnode, if_pos rfl]
    · intro q hq
      rw [hnode, if_neg hq]
  · exact .inr ⟨rfl, _, device, hslot.locate (.refl after) hlength hn (by simp), hn⟩

end FlameFold.FileSystem
