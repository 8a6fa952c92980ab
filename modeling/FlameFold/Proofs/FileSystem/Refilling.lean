import FlameFold.Proofs.FileSystem.Filling
import Mathlib.Data.List.Induction
import Mathlib.Data.List.Perm.Basic

/-!
# Filling files again and in another order

Of two contents for the same file the last one counts, and contents for different files do not
meet. So filling the same files again changes nothing, and files at different places may be
filled in any order; then only the order in which new files are entered differs.
-/

namespace FlameFold.FileSystem

variable {fs other third : FileSystem} {place q : Location} {node next : Node}
  {content found : List UInt8} {writing : Writing} {writings others : List Writing}

/-- Put a node in the place of what is entered at a location. -/
def replaced (nodes : List (Location × Node)) (place : Location) (node : Node) :
    List (Location × Node) :=
  nodes.map fun entry => if entry.1 = place then (place, node) else entry

/-- Something is entered where something stands. -/
theorem lookup_eq_node? (hplace : place ≠ []) : fs.nodes.lookup place = fs.node? place :=
  (if_neg hplace).symm

theorem put_present (h : (fs.nodes.lookup place).isSome) :
    fs.put place node = { fs with nodes := replaced fs.nodes place node } := if_pos h

theorem put_absent (h : fs.nodes.lookup place = none) :
    fs.put place node = { fs with nodes := fs.nodes ++ [(place, node)] } :=
  if_neg (by simp [h])

/-- An entry at the end shows at its own location only. -/
theorem lookup_entered (h : q ≠ place) (nodes : List (Location × Node)) (node : Node) :
    (nodes ++ [(place, node)]).lookup q = nodes.lookup q := by
  rw [List.lookup_append, List.lookup_cons, beq_false_of_ne h]
  exact Option.or_none

/-- Nothing is replaced where nothing is entered. -/
theorem replaced_absent {nodes : List (Location × Node)} (h : nodes.lookup place = none)
    (node : Node) : replaced nodes place node = nodes := by
  refine (List.map_congr_left fun entry hentry => if_neg fun heq => ?_).trans (List.map_id _)
  have hne := List.lookup_eq_none_iff.mp h entry hentry
  simp [heq] at hne

/-- What replaces something can be replaced itself. -/
theorem replaced_replaced (nodes : List (Location × Node)) (place : Location) (node next : Node) :
    replaced (replaced nodes place node) place next = replaced nodes place next := by
  unfold replaced
  rw [List.map_map]
  refine List.map_congr_left fun entry _ => ?_
  by_cases h : entry.1 = place <;> simp [h]

/-- At different locations it does not matter what is replaced first. -/
theorem replaced_comm (h : place ≠ q) (nodes : List (Location × Node)) (node next : Node) :
    replaced (replaced nodes place node) q next = replaced (replaced nodes q next) place node := by
  unfold replaced
  rw [List.map_map, List.map_map]
  refine List.map_congr_left fun entry _ => ?_
  by_cases hp : entry.1 = place
  · simp [hp, h]
  · by_cases hq : entry.1 = q <;> simp [hp, hq, h.symm]

/-- Of two nodes that are put at a location the last one counts. -/
theorem put_put (fs : FileSystem) (place : Location) (node next : Node) :
    (fs.put place node).put place next = fs.put place next := by
  cases h : fs.nodes.lookup place with
  | some old =>
    have hthere : (fs.nodes.lookup place).isSome := by rw [h]; rfl
    rw [put_present hthere, put_present hthere, put_present, replaced_replaced]
    simp [replaced, lookup_replace, h]
  | none =>
    rw [put_absent h, put_absent h, put_present]
    · simp only [replaced, List.map_append]
      rw [← replaced, replaced_absent h]
      simp
    · simp [List.lookup_append, h]

/-- A node that is put where something is entered does not meet one that is put elsewhere. -/
theorem put_comm (h : place ≠ q) (hthere : (fs.nodes.lookup q).isSome) (node next : Node) :
    (fs.put place node).put q next = (fs.put q next).put place node := by
  cases hp : fs.nodes.lookup place with
  | some old =>
    have hplace : (fs.nodes.lookup place).isSome := by rw [hp]; rfl
    rw [put_present hplace, put_present hthere, put_present, put_present, replaced_comm h]
    · simp [replaced, lookup_replace, h, hp]
    · simp [replaced, lookup_replace, h.symm, hthere]
  | none =>
    have hafter : (replaced fs.nodes q next).lookup place = none := by
      simp [replaced, lookup_replace, h, hp]
    rw [put_absent hp, put_present hthere, put_present, put_absent hafter]
    · simp [replaced, h]
    · rwa [lookup_entered h.symm]

/-- Filling two files puts two nodes. -/
theorem fill_eq_put (hplace : place ≠ []) (content found : List UInt8) :
    (fs.fill place content).fill q found =
      (fs.put place (.file content (fs.executableAt place))).put q
        (.file found (fs.executableAt q)) := by
  rw [fill, executableAt_fill fs content hplace, fill]

/-- Of two contents for the same file the last one counts. -/
theorem fill_fill (hplace : place ≠ []) (content found : List UInt8) :
    (fs.fill place content).fill place found = fs.fill place found := by
  rw [fill_eq_put hplace, put_put, ← fill]

/-- The content for a file that is there does not meet that for another file. -/
theorem fill_comm (h : place ≠ q) (hplace : place ≠ []) (hq : q ≠ [])
    (hthere : (fs.node? q).isSome) (content found : List UInt8) :
    (fs.fill place content).fill q found = (fs.fill q found).fill place content := by
  rw [fill_eq_put hplace, fill_eq_put hq, put_comm h (by rwa [lookup_eq_node? hq])]

/-- A content that is replaced at the end is not missed at the beginning. -/
theorem fill_fillAll (hplace : place ≠ []) (hw : fs.Takes writings)
    (hthere : ∀ writing ∈ writings, (fs.node? writing.place).isSome)
    (content found : List UInt8) :
    ((fs.fill place content).fillAll writings).fill place found =
      (fs.fillAll writings).fill place found := by
  induction writings generalizing fs with
  | nil => exact fill_fill hplace content found
  | cons writing rest ih =>
    obtain ⟨hfirst, hrest⟩ := List.forall_mem_cons.mp hw
    obtain ⟨hpresent, hothers⟩ := List.forall_mem_cons.mp hthere
    have hfilled := filled_fill hfirst writing.content
    rw [fillAll_cons, fillAll_cons]
    by_cases heq : place = writing.place
    · rw [heq, fill_fill (ne_root hfirst)]
    · rw [fill_comm heq hplace (ne_root hfirst) hpresent]
      exact ih (hfilled.takes hrest) fun other hmem => hfilled.there _ (hothers other hmem)

/-- Filling the same files again changes nothing. -/
theorem fillAll_fillAll (hw : fs.Takes writings) :
    (fs.fillAll writings).fillAll writings = fs.fillAll writings := by
  -- from the last content on: it hides whatever was put before it at the same place
  induction writings using List.reverseRecOn with
  | nil => rfl
  | append_singleton earlier last ih =>
    have hearlier : fs.Takes earlier := fun writing h => hw writing (List.mem_append_left _ h)
    have hplace := ne_root (hw last (by simp))
    have hfilled := (Filled.refl fs).fillAll hearlier
    rw [fillAll_append, fillAll_append]
    simp only [fillAll_cons, fillAll_nil]
    rw [fill_fillAll hplace (hfilled.takes hearlier) (fun _ h => fillAll_there hearlier h),
      ih hearlier]

/-- The same stands everywhere, though it may be entered in another order. -/
structure Same (fs other : FileSystem) : Prop where
  /-- Relative paths start from the same directory. -/
  here : fs.here = other.here
  /-- The same is entered. -/
  nodes : fs.nodes.Perm other.nodes
  /-- The same stands at each location. -/
  node? : ∀ place, fs.node? place = other.node? place

namespace Same

theorem refl (fs : FileSystem) : fs.Same fs := ⟨rfl, .refl _, fun _ => rfl⟩

theorem trans (h : fs.Same other) (h' : other.Same third) : fs.Same third :=
  ⟨h.here.trans h'.here, h.nodes.trans h'.nodes,
    fun place => (h.node? place).trans (h'.node? place)⟩

/-- The same content makes the same of a file. -/
theorem fill (h : fs.Same other) (hplace : place ≠ []) (content : List UInt8) :
    (fs.fill place content).Same (other.fill place content) where
  here := by rw [here_fill, here_fill, h.here]
  nodes := by
    have hlookup : fs.nodes.lookup place = other.nodes.lookup place := by
      rw [lookup_eq_node? hplace, lookup_eq_node? hplace, h.node?]
    have hexecutable : fs.executableAt place = other.executableAt place := by
      rw [executableAt, executableAt, h.node?]
    rw [FileSystem.fill, FileSystem.fill, hexecutable]
    cases hl : fs.nodes.lookup place with
    | some old =>
      rw [put_present (by rw [hl]; rfl), put_present (by rw [← hlookup, hl]; rfl)]
      exact h.nodes.map _
    | none =>
      rw [put_absent hl, put_absent (hlookup.symm.trans hl)]
      exact h.nodes.append_right _
  node? q := by
    rw [node?_fill fs content hplace, node?_fill other content hplace, h.node?, executableAt,
      executableAt, h.node?]

/-- The same contents make the same of files. -/
theorem fillAll (h : fs.Same other) (hw : ∀ writing ∈ writings, writing.place ≠ []) :
    (fs.fillAll writings).Same (other.fillAll writings) := by
  induction writings generalizing fs other with
  | nil => exact h
  | cons writing rest ih =>
    obtain ⟨hfirst, hrest⟩ := List.forall_mem_cons.mp hw
    exact ih (h.fill hfirst _) hrest

/-- Every name leads to the same location. -/
theorem step (h : fs.Same other) : fs.step = other.step := by
  funext place name
  simp only [FileSystem.step, h.node?]

/-- Every path leads to the same location. -/
theorem locate (h : fs.Same other) (p : Path) : fs.locate p = other.locate p := by
  simp only [FileSystem.locate, FileSystem.start, FileSystem.walk, h.here, h.step]

/-- The same paths lead to directories. -/
theorem isDirectory (h : fs.Same other) (p : Path) : fs.isDirectory p = other.isDirectory p := by
  simp only [FileSystem.isDirectory, FileSystem.find?, h.locate, h.node?]

/-- The same paths lead to plain files. -/
theorem isFile (h : fs.Same other) (p : Path) : fs.isFile p = other.isFile p := by
  simp only [FileSystem.isFile, FileSystem.find?, h.locate, h.node?]

/-- A directory has the same entries. -/
theorem entries (h : fs.Same other) (place : Location) :
    (fs.entries place).Perm (other.entries place) := h.nodes.filterMap _

end Same

/-- Which of two different files is filled first shows only in the order of new files. -/
theorem fill_swap (h : place ≠ q) (hplace : place ≠ []) (hq : q ≠ []) (fs : FileSystem)
    (content found : List UInt8) : ((fs.fill place content).fill q found).Same
      ((fs.fill q found).fill place content) := by
  by_cases hthere : (fs.node? q).isSome
  · rw [fill_comm h hplace hq hthere]
    exact .refl _
  by_cases hthere' : (fs.node? place).isSome
  · rw [fill_comm h.symm hq hplace hthere']
    exact .refl _
  have habsent : fs.nodes.lookup q = none := by
    rw [lookup_eq_node? hq]
    simpa using hthere
  have habsent' : fs.nodes.lookup place = none := by
    rw [lookup_eq_node? hplace]
    simpa using hthere'
  refine ⟨by simp only [here_fill], ?_, fun r => ?_⟩
  · rw [fill_eq_put hplace, fill_eq_put hq, put_absent habsent', put_absent habsent,
      put_absent ((lookup_entered h.symm ..).trans habsent),
      put_absent ((lookup_entered h ..).trans habsent')]
    simp only [List.append_assoc]
    exact (List.Perm.swap ..).append_left _
  · rw [node?_fill _ _ hq, node?_fill _ _ hplace, node?_fill _ _ hplace, node?_fill _ _ hq,
      executableAt_fill fs content hplace, executableAt_fill fs found hq]
    by_cases hr : r = q
    · simp [hr, h.symm]
    · simp [hr]

/-- Files at different places may be filled in any order. -/
theorem fillAll_perm (h : writings.Perm others)
    (hapart : writings.Pairwise fun writing other => writing.place ≠ other.place)
    (hw : ∀ writing ∈ writings, writing.place ≠ []) :
    (fs.fillAll writings).Same (fs.fillAll others) := by
  induction h generalizing fs with
  | nil => exact .refl fs
  | cons writing _ ih =>
    exact ih hapart.of_cons (List.forall_mem_cons.mp hw).2
  | swap first second rest =>
    obtain ⟨hsecond, hfirst, hrest⟩ := by simpa only [List.forall_mem_cons] using hw
    have hne : second.place ≠ first.place := List.rel_of_pairwise_cons hapart List.mem_cons_self
    exact (fill_swap hne hsecond hfirst fs _ _).fillAll hrest
  | trans h _ ih ih' =>
    exact (ih hapart hw).trans
      (ih' (h.pairwise hapart Ne.symm) fun writing hmem => hw writing (h.mem_iff.mpr hmem))

end FlameFold.FileSystem
