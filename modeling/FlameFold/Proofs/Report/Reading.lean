import FlameFold.Proofs.Json.Reading
import FlameFold.Report.Printer
import FlameFold.Report.Reader

/-!
# A printed report is read back

Every field of a report and of its entries is printed once, under its key and in a shape that
the reader takes. A field that an entry does not have is left out, and a field that is left
out is one that the entry does not have.
-/

namespace FlameFold

namespace Json

/-- The values of trees that are made from a list. -/
theorem Tree.values_map (print : α → Tree) (list : List α) :
    values (list.map print) = list.map fun x => (print x).value := by
  induction list with
  | nil => rfl
  | cons first rest ih => rw [List.map_cons, values, ih, List.map_cons]

/-- The numbers of trees that are made from a list fit if each tree's do. -/
theorem Tree.allFit_map {print : α → Tree} {list : List α} (h : ∀ x ∈ list, (print x).Fits) :
    AllFit (list.map print) := by
  induction list with
  | nil => trivial
  | cons first rest ih =>
    exact ⟨h first List.mem_cons_self, ih fun x hx => h x (List.mem_cons_of_mem first hx)⟩

/-- The numbers of two lists of members after each other. -/
theorem Tree.membersFit_append {members more : List (String × Tree)} :
    MembersFit (members ++ more) ↔ MembersFit members ∧ MembersFit more := by
  induction members with
  | nil => simp [MembersFit]
  | cons member rest ih =>
    obtain ⟨key, tree⟩ := member
    simp [MembersFit, ih, and_assoc]

/-- A list is read if each of its printed elements is. -/
theorem Value.asList_map {print : α → Tree} {read : Value → Except Fault α} {list : List α}
    (h : ∀ x ∈ list, read (print x).value = .ok x) :
    (Tree.array (list.map print)).value.asList read = .ok list := by
  have hread : (list.map fun x => (print x).value).mapM read = .ok list := by
    induction list with
    | nil => rfl
    | cons first rest ih =>
      have hfirst := h first List.mem_cons_self
      have hrest := ih fun x hx => h x (List.mem_cons_of_mem first hx)
      simp [hfirst, hrest]
      rfl
  rw [Tree.value, Tree.values_map, Value.asList, hread]
  rfl

/-- Set the fields of a draft from members of an object, in their order. -/
def setMembers (set : α → String → Value → Except Fault α) (draft : α)
    (members : List (String × Tree)) : Except Fault α :=
  (Tree.memberValues members).foldlM (fun draft (key?, value) =>
    match key? with
    | some key => set draft key value
    | none => .error .syntaxError) draft

variable {set : α → String → Value → Except Fault α} {draft next : α}

/-- The fields that an object gives are those that its members set. -/
theorem readFields_object (fields : List String) (expected : String)
    (members : List (String × Tree)) :
    readFields fields expected set draft (Tree.object members).value =
      setMembers set draft members := by
  rw [Tree.value, readFields]
  exact bind_pure _

/-- The first member is set before the others. -/
theorem setMembers_cons {key : String} {tree : Tree} (h : set draft key tree.value = .ok next)
    (rest : List (String × Tree)) :
    setMembers set draft ((key, tree) :: rest) = setMembers set next rest := by
  rw [setMembers, Tree.memberValues, List.foldlM_cons]
  simp only [h]
  rfl

end Json

namespace Report

open Json (Fault Tree required setMembers setMembers_cons)

/-- A member that is only printed where there is a value sets a field that is unset without
it. -/
theorem EntryDraft.setMembers_member {key : String} {print : β → Tree}
    (field : Option (Option β) → EntryDraft)
    (h : ∀ x, EntryDraft.set (field none) key (print x).value = .ok (field (some (some x))))
    (given : Option β) (rest : List (String × Tree)) :
    setMembers EntryDraft.set (field none) (member key (given.map print) ++ rest) =
      setMembers EntryDraft.set (field (given.map some)) rest := by
  cases given with
  | none => rfl
  | some x => exact setMembers_cons (h x) rest

/-- The numbers of a member that is only printed where there is a value. -/
theorem membersFit_member {key : String} {print : β → Tree} {given : Option β}
    (h : ∀ x, (print x).Fits) : Tree.MembersFit (member key (given.map print)) := by
  cases given with
  | none => trivial
  | some x => exact ⟨h x, trivial⟩

/-- An entry whose paths are texts can be printed. -/
theorem Entry.tree_fits (entry : Entry Path) : (entry.tree Path.spell).Fits := by
  have hnumber (n : UInt64) : (Tree.number n.toNat).Fits := n.toNat_lt
  have hpath (p : Path) : (pathTree Path.spell p).Fits := trivial
  have htext (content : String) : (Tree.text content).Fits := trivial
  simp only [Entry.tree, Tree.Fits, Tree.membersFit_append, membersFit_member hnumber,
    membersFit_member hpath, membersFit_member htext, and_true]
  exact ⟨trivial, trivial, trivial, trivial⟩

/-- A printed entry is read back. -/
theorem Entry.ofValue_tree (entry : Entry Path) :
    Entry.ofValue (entry.tree Path.spell).value = .ok entry := by
  obtain ⟨label, recording, outcome, uniqueStacks, totalSamples, collapsed, graphic, error⟩ := entry
  -- the draft with the three fields that are always given, and the others as far as they are set
  let draft := EntryDraft.mk (some label) (some recording) (some outcome)
  let unique := uniqueStacks.map some
  let samples := totalSamples.map some
  have hstacks (n : UInt64) : (draft none none none none none).set "unique_stacks"
      (Tree.number n.toNat).value = .ok (draft (some (some n)) none none none none) :=
    congrArg (fun m => (.ok (draft (some (some m)) none none none none) : Except Fault EntryDraft))
      (UInt64.ofNat_toNat (x := n))
  have hsamples (n : UInt64) : (draft unique none none none none).set "total_samples"
      (Tree.number n.toNat).value = .ok (draft unique (some (some n)) none none none) :=
    congrArg (fun m => (.ok (draft unique (some (some m)) none none none) :
      Except Fault EntryDraft)) (UInt64.ofNat_toNat (x := n))
  have hset : setMembers EntryDraft.set .empty
      (("label", .text label) :: ("recording", pathTree Path.spell recording) ::
        ("outcome", .text outcome) ::
        (member "unique_stacks" (uniqueStacks.map fun n => .number n.toNat) ++
        (member "total_samples" (totalSamples.map fun n => .number n.toNat) ++
        (member "collapsed" (collapsed.map (pathTree Path.spell)) ++
        (member "svg" (graphic.map (pathTree Path.spell)) ++
        (member "error" (error.map .text) ++ [])))))) =
      .ok (draft unique samples (collapsed.map some) (graphic.map some) (error.map some)) := by
    refine Eq.trans (setMembers_cons rfl _) ?_
    refine Eq.trans (setMembers_cons rfl _) ?_
    refine Eq.trans (setMembers_cons rfl _) ?_
    refine Eq.trans (EntryDraft.setMembers_member
      (fun x => draft x none none none none) hstacks _ _) ?_
    refine Eq.trans (EntryDraft.setMembers_member
      (fun x => draft unique x none none none) hsamples _ _) ?_
    refine Eq.trans (EntryDraft.setMembers_member
      (fun x => draft unique samples x none none) (fun p => rfl) _ _) ?_
    refine Eq.trans (EntryDraft.setMembers_member
      (fun x => draft unique samples (collapsed.map some) x none) (fun p => rfl) _ _) ?_
    exact EntryDraft.setMembers_member
      (fun x => draft unique samples (collapsed.map some) (graphic.map some) x)
      (fun content => rfl) _ _
  have hfinish : EntryDraft.finish
      (draft unique samples (collapsed.map some) (graphic.map some) (error.map some)) =
      .ok ⟨label, recording, outcome, unique.join, samples.join, (collapsed.map some).join,
        (graphic.map some).join, (error.map some).join⟩ := rfl
  have hjoin {γ : Type} (given : Option γ) : (given.map some).join = given := by
    cases given <;> rfl
  rw [Entry.ofValue, Entry.tree, Json.readFields_object]
  simp only [List.append_assoc, List.cons_append, List.nil_append, List.append_nil] at hset ⊢
  rw [hset]
  refine Eq.trans hfinish ?_
  simp only [unique, samples, hjoin]

/-- A report whose paths are texts can be printed. -/
theorem tree_fits (report : Report Path) : (report.tree Path.spell).Fits := by
  have hentries : Tree.AllFit (report.recordings.map (Entry.tree Path.spell)) :=
    Tree.allFit_map fun entry _ => entry.tree_fits
  have hgraphics : Tree.AllFit (report.graphics.map (pathTree Path.spell)) :=
    Tree.allFit_map fun p _ => trivial
  exact ⟨trivial, trivial, hentries, hgraphics, trivial⟩

/-- A report is read back from the value that it is printed as. -/
theorem ofValue_tree (report : Report Path) :
    ofValue (report.tree Path.spell).value = .ok report := by
  obtain ⟨version, generatedAt, recordings, graphics⟩ := report
  have hentries : (Tree.array (recordings.map (Entry.tree Path.spell))).value.asList Entry.ofValue =
      .ok recordings :=
    Json.Value.asList_map fun entry _ => entry.ofValue_tree
  have hgraphics : (Tree.array (graphics.map (pathTree Path.spell))).value.asList
      (·.asPath) = .ok graphics :=
    Json.Value.asList_map fun p _ => rfl
  have hrecordings : Draft.set ⟨some version, some generatedAt, none, none⟩ "recordings"
      (Tree.array (recordings.map (Entry.tree Path.spell))).value =
        .ok ⟨some version, some generatedAt, some recordings, none⟩ := by
    simp only [Draft.set, hentries]
    rfl
  have hlisted : Draft.set ⟨some version, some generatedAt, some recordings, none⟩ "flamegraphs"
      (Tree.array (graphics.map (pathTree Path.spell))).value =
        .ok ⟨some version, some generatedAt, some recordings, some graphics⟩ := by
    simp only [Draft.set, hgraphics]
    rfl
  have hset : setMembers Draft.set .empty
      [("version", .text version), ("generated_at", .text generatedAt),
        ("recordings", .array (recordings.map (Entry.tree Path.spell))),
        ("flamegraphs", .array (graphics.map (pathTree Path.spell)))] =
      .ok ⟨some version, some generatedAt, some recordings, some graphics⟩ := by
    refine Eq.trans (setMembers_cons rfl _) ?_
    refine Eq.trans (setMembers_cons rfl _) ?_
    exact Eq.trans (setMembers_cons hrecordings _) (setMembers_cons hlisted _)
  rw [ofValue, tree, Json.readFields_object, hset]
  rfl

/-- A report is read back from its text. -/
theorem parse_render (report : Report Path) : parse report.render = .ok report := by
  rw [parse, render, Json.parse_render report.tree_fits]
  simp [ofValue_tree]

end Report

end FlameFold
