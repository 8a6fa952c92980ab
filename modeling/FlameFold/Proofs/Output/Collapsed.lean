import FlameFold.Output.Collapsed
import FlameFold.Proofs.Stack.Reading
import FlameFold.Proofs.Stack.Sorting
import FlameFold.Proofs.Text.Pieces

/-!
# The collapsed form of a dump

The file of collapsed stacks of a dump has one line for each of its distinct stacks, with
the number of samples that have it, and the most frequent stack comes first. No entry of
a folded dump is left out, and no stack is broken over several lines.
-/

namespace FlameFold.Stack

/-- Texts without newlines make a signature without newlines. -/
theorem newline_notMem_signature {frames : List String}
    (h : ∀ frame ∈ frames, '\n' ∉ frame.toList) : '\n' ∉ (signature frames).toList := by
  induction frames with
  | nil => simp [signature]
  | cons frame rest ih =>
    have hframe := h frame List.mem_cons_self
    have hrest := ih fun other hother => h other (List.mem_cons_of_mem _ hother)
    rw [signature] at hrest ⊢
    cases rest with
    | nil =>
      rw [String.intercalate_singleton]
      exact hframe
    | cons next more =>
      rw [String.intercalate_cons_cons, String.toList_append, String.toList_append,
        List.mem_append, List.mem_append, not_or, not_or]
      exact ⟨⟨hframe, by decide⟩, hrest⟩

/-- Each signature of a dump stands on one line. -/
theorem newline_notMem_of_mem_signatures {text event s : String}
    (h : s ∈ signatures (lineKinds text event)) : '\n' ∉ s.toList := by
  obtain ⟨frames, hframes, rfl⟩ := List.mem_map.mp h
  apply newline_notMem_signature
  intro frame hframe
  obtain ⟨line, hline, hkind⟩ := exists_line_of_mem_sample hframes (List.mem_reverse.mp hframe)
  rw [(LineKind.of_frame hkind).1]
  exact fun hmem => Text.notMem_of_mem_pieces hline (Text.trim_subset line hmem)

/-- A count has no newline, so an entry stands on one line if its signature does. -/
theorem Entry.newline_notMem_line {entry : Entry} (h : '\n' ∉ entry.signature.toList) :
    '\n' ∉ entry.line.toList := by
  have hcount : '\n' ∉ Nat.toDigits 10 entry.count := fun hmem =>
    absurd (Nat.isDigit_of_mem_toDigits (by decide) (by decide) hmem) (by decide)
  simp [Entry.line, h, hcount]

/-- The entries of a folded dump have signatures of its samples. -/
theorem mem_signatures_of_mem_fold {text event : String} {entry : Entry}
    (h : entry ∈ (fold text event).table.toList) :
    entry.signature ∈ signatures (lineKinds text event) := by
  rw [(fold_tallies text event).entries, tally] at h
  obtain ⟨s, hs, rfl⟩ := List.mem_map.mp h
  exact List.mem_eraseDups.mp hs

end FlameFold.Stack

namespace FlameFold.Output

/-- A text is the collapsed form of a dump, with `unique` stacks and `total` samples. -/
structure CollapsedForm (dump event text : String) (unique total : Nat) : Prop where
  /-- The entries of the folded dump are written in their order, each on a line. -/
  text_eq : text = String.join ((Stack.fold dump event).table.sorted.map fun entry =>
    entry.line ++ "\n")
  /-- The lines of the text are these lines and no others. -/
  lines : Text.pieces text = (Stack.fold dump event).table.sorted.map Stack.Entry.line ++ [""]
  /-- The entries are the distinct stacks of the dump with the numbers of their samples. -/
  entries : (Stack.fold dump event).table.sorted.Perm
    (Stack.tally (Stack.signatures (Stack.lineKinds dump event)))
  /-- More frequent stacks come first. -/
  order : (Stack.fold dump event).table.sorted.Pairwise fun a b => b.count ≤ a.count
  /-- There are as many lines as stacks. -/
  unique : (Stack.fold dump event).table.sorted.length = unique
  /-- The counts come to the number of samples. -/
  total : ((Stack.fold dump event).table.sorted.map Stack.Entry.count).sum = total

/-- Every entry of a folded dump is written. -/
theorem writtenEntries_fold (dump event : String) :
    writtenEntries (Stack.fold dump event).table = (Stack.fold dump event).table.sorted := by
  apply List.filter_eq_self.mpr
  intro entry hentry
  have hmem := Stack.mem_signatures_of_mem_fold
    ((Stack.CountTable.sorted_perm _).mem_iff.mp hentry)
  rw [← Stack.signatures_filter] at hmem
  exact (List.mem_filter.mp hmem).2

/-- The text that is written for a folded dump is its collapsed form. -/
theorem collapsedText_fold (dump event : String) :
    CollapsedForm dump event (collapsedText (Stack.fold dump event).table)
      (Stack.fold dump event).table.size (Stack.fold dump event).table.totalSamples := by
  have htext : collapsedText (Stack.fold dump event).table =
      String.join ((Stack.fold dump event).table.sorted.map fun entry => entry.line ++ "\n") := by
    rw [collapsedText, writtenEntries_fold]
  refine ⟨htext, ?_, ?_, Stack.CountTable.sorted_pairwise _, Stack.CountTable.length_sorted _,
    Stack.CountTable.sum_sorted _⟩
  · have hlines : ∀ line ∈ (Stack.fold dump event).table.sorted.map Stack.Entry.line,
        '\n' ∉ line.toList := by
      intro line hline
      obtain ⟨entry, hentry, rfl⟩ := List.mem_map.mp hline
      have hmem := (Stack.CountTable.sorted_perm _).mem_iff.mp hentry
      exact Stack.Entry.newline_notMem_line
        (Stack.newline_notMem_of_mem_signatures (Stack.mem_signatures_of_mem_fold hmem))
    rw [htext, ← Text.pieces_join hlines, List.map_map]
    rfl
  · rw [← (Stack.fold_tallies dump event).entries]
    exact Stack.CountTable.sorted_perm _

end FlameFold.Output
