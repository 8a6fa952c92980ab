import FlameFold.Proofs.Stack.Tally

/-!
# The order in which stacks are written

The entries of a table are written by descending count, and entries with the same count stay
in the order in which they were first seen. First seen at different times, no two entries can
change places without breaking one of the two rules, so there is no other such listing.
-/

namespace FlameFold.Stack

variable {entries listing other : List Entry} {first : Entry → Nat} {a b : Entry}

/-- One entry stands somewhere before the other. -/
def Precedes (entries : List Entry) (a b : Entry) : Prop := [a, b].Sublist entries

/-- A listing has entries by descending count, and those with the same count as they stood. -/
structure Arranges (listing entries : List Entry) : Prop where
  /-- No entry is lost, doubled or changed. -/
  perm : listing.Perm entries
  /-- No entry stands after one with fewer samples. -/
  descending : listing.Pairwise fun a b => b.count ≤ a.count
  /-- Entries with the same count have kept their order. -/
  stable : ∀ a b, a.count = b.count → (Precedes listing a b ↔ Precedes entries a b)

/-- What an entry stands before in a listing: entries with fewer samples, and of those with
as many the ones first seen later. -/
def Leads (first : Entry → Nat) (a b : Entry) : Prop :=
  b.count < a.count ∨ (a.count = b.count ∧ first a < first b)

/-- Where entries stand in the order in which they were first seen, this order says which one
stands before the other. -/
theorem precedes_iff (h : entries.Pairwise fun a b => first a < first b) :
    Precedes entries a b ↔ a ∈ entries ∧ b ∈ entries ∧ first a < first b := by
  constructor
  · intro hpair
    have hseen := List.pairwise_iff_forall_sublist.mp h hpair
    exact ⟨hpair.subset (by simp), hpair.subset (by simp), hseen⟩
  · rintro ⟨ha, hb, hseen⟩
    induction entries with
    | nil => cases ha
    | cons head tail ih =>
      obtain ⟨hhead, htail⟩ := List.pairwise_cons.mp h
      rcases List.mem_cons.mp ha with rfl | ha
      · have hb : b ∈ tail := (List.mem_cons.mp hb).resolve_left fun heq =>
          absurd hseen (by rw [heq]; exact lt_irrefl _)
        exact (List.singleton_sublist.mpr hb).cons_cons a
      · rcases List.mem_cons.mp hb with heq | hb
        · exact absurd hseen (heq ▸ (hhead a ha).le.not_gt)
        · exact (ih htail ha hb).cons head

/-- Whether one of two entries with the same count stands before the other is seen among the
entries with that count. -/
theorem precedes_filter (h : a.count = b.count) (entries : List Entry) :
    Precedes (entries.filter fun entry => entry.count = a.count) a b ↔ Precedes entries a b := by
  refine ⟨fun hpair => hpair.trans List.filter_sublist, fun hpair => ?_⟩
  have hkept := hpair.filter fun entry => entry.count = a.count
  rwa [List.filter_eq_self.mpr (by simp [h])] at hkept

/-- In a listing of entries first seen at different times each entry leads those after it. -/
theorem Arranges.leads (h : Arranges listing entries)
    (hfirst : entries.Pairwise fun a b => first a < first b) :
    listing.Pairwise (Leads first) := by
  refine List.pairwise_iff_forall_sublist.mpr fun {a b} hpair => ?_
  have hcount : b.count ≤ a.count := List.pairwise_iff_forall_sublist.mp h.descending hpair
  rcases hcount.lt_or_eq with hless | hsame
  · exact .inl hless
  · have hkept := (h.stable a b hsame.symm).mp hpair
    exact .inr ⟨hsame.symm, ((precedes_iff hfirst).mp hkept).2.2⟩

/-- Entries first seen at different times are arranged in one way only. -/
theorem Arranges.unique (h : Arranges listing entries) (h' : Arranges other entries)
    (hfirst : entries.Pairwise fun a b => first a < first b) : listing = other := by
  refine List.Perm.eq_of_pairwise (fun a b _ _ hab hba => ?_) (h.leads hfirst)
    (h'.leads hfirst) (h.perm.trans h'.perm.symm)
  unfold Leads at hab hba
  omega

/-- The distinct signatures stand in the order in which they first occur. -/
theorem eraseDups_firstSeen (signatures : List String) :
    signatures.eraseDups.Pairwise fun s t => signatures.idxOf s < signatures.idxOf t := by
  induction signatures using List.reverseRecOn with
  | nil => simp
  | append_singleton earlier last ih =>
    have hkept : ∀ s ∈ earlier.eraseDups, (earlier ++ [last]).idxOf s = earlier.idxOf s :=
      fun s hs => List.idxOf_append_of_mem (List.mem_eraseDups.mp hs)
    have hearlier : earlier.eraseDups.Pairwise fun s t =>
        (earlier ++ [last]).idxOf s < (earlier ++ [last]).idxOf t :=
      ih.imp_of_mem fun hs ht hlt => by rwa [hkept _ hs, hkept _ ht]
    rw [eraseDups_concat]
    split
    · exact hearlier
    · next hnew =>
      refine List.pairwise_append.mpr ⟨hearlier, List.pairwise_singleton _ _, fun s hs t ht => ?_⟩
      rw [List.mem_singleton.mp ht, hkept s hs, List.idxOf_append_of_notMem hnew]
      exact Nat.lt_add_right _ (List.idxOf_lt_length_of_mem (List.mem_eraseDups.mp hs))

namespace CountTable

/-- Sorting keeps all entries. -/
theorem sorted_perm (table : CountTable) : table.sorted.Perm table.toList :=
  List.mergeSort_perm _ _

/-- What sorts before a second entry sorts before all that the second one sorts before. -/
theorem descending_trans (a b c : Entry) (hab : decide (b.count ≤ a.count) = true)
    (hbc : decide (c.count ≤ b.count) = true) : decide (c.count ≤ a.count) = true := by
  simp only [decide_eq_true_eq] at hab hbc ⊢
  exact le_trans hbc hab

theorem descending_total (a b : Entry) :
    (decide (b.count ≤ a.count) || decide (a.count ≤ b.count)) = true := by
  simp only [Bool.or_eq_true, decide_eq_true_eq]
  exact le_total b.count a.count

/-- No entry stands after one with fewer samples. -/
theorem sorted_pairwise (table : CountTable) :
    table.sorted.Pairwise fun a b => b.count ≤ a.count := by
  have hsorted := List.pairwise_mergeSort descending_trans descending_total table.toList
  exact hsorted.imp fun h => of_decide_eq_true h

theorem length_sorted (table : CountTable) : table.sorted.length = table.size :=
  table.sorted_perm.length_eq.trans Array.length_toList

theorem sum_sorted (table : CountTable) :
    (table.sorted.map Entry.count).sum = table.totalSamples := by
  rw [totalSamples_eq_sum]
  exact (table.sorted_perm.map _).sum_eq

/-- Sorting leaves the entries with one and the same count as they stood. -/
theorem sorted_filter (table : CountTable) (n : Nat) :
    (table.sorted.filter fun entry => entry.count = n) =
      table.toList.filter fun entry => entry.count = n := by
  have hequal : (table.toList.filter fun entry => entry.count = n).Pairwise
      fun a b => decide (b.count ≤ a.count) = true := by
    refine List.pairwise_iff_forall_sublist.mpr fun {a b} hpair => ?_
    have hcount : ∀ entry ∈ [a, b], entry.count = n := fun entry hentry => by
      simpa using (List.mem_filter.mp (hpair.subset hentry)).2
    rw [hcount a (by simp), hcount b (by simp)]
    exact decide_eq_true le_rfl
  have hkept := List.sublist_mergeSort descending_trans descending_total hequal
    List.filter_sublist
  have hsame := hkept.filter fun entry => entry.count = n
  rw [List.filter_filter] at hsame
  simp only [Bool.and_self] at hsame
  exact (hsame.eq_of_length (table.sorted_perm.filter _).length_eq.symm).symm

/-- Sorting arranges the entries of a table. -/
theorem sorted_arranges (table : CountTable) : Arranges table.sorted table.toList where
  perm := table.sorted_perm
  descending := table.sorted_pairwise
  stable a b hcount := by
    rw [← precedes_filter hcount, sorted_filter, precedes_filter hcount]

/-- Counting signatures in turn, from nothing, enters them in the order in which they first
occur. -/
theorem incrementAll_firstSeen (signatures : List String) :
    (empty.incrementAll signatures).toList.Pairwise fun a b =>
      signatures.idxOf a.signature < signatures.idxOf b.signature := by
  rw [(incrementAll_tallies signatures).entries, tally, eraseDups_filter]
  exact List.pairwise_map.mpr ((eraseDups_firstSeen signatures).sublist List.filter_sublist)

/-- No signature is entered twice. -/
theorem Tallies.nodup {table : CountTable} {signatures : List String}
    (h : table.Tallies signatures) : (table.toList.map Entry.signature).Nodup := by
  have hnames : (tally signatures).map Entry.signature = signatures.eraseDups := by
    rw [tally, List.map_map]
    exact List.map_id _
  rw [h.entries, hnames]
  exact eraseDups_nodup signatures

/-- Whatever signatures are counted in turn, from nothing, the sorted listing has each of the
distinct ones in a single entry, and it is the only listing that has the entries of the table,
each as it is, by descending count and those with the same count in the order of the table. In
the table one entry stands before another exactly if its signature was counted first. -/
theorem incrementAll_sorted (signatures : List String) :
    let table := empty.incrementAll signatures
    (table.sorted.map Entry.signature).Nodup ∧
      (∀ listing, Arranges listing table.toList ↔ listing = table.sorted) ∧
      ∀ a b, Precedes table.toList a b ↔ a ∈ table.toList ∧ b ∈ table.toList ∧
        signatures.idxOf a.signature < signatures.idxOf b.signature := by
  intro table
  have hfirst := incrementAll_firstSeen signatures
  have hnodup := (incrementAll_tallies signatures).nodup
  refine ⟨?_, fun listing => ⟨fun h => ?_, fun h => ?_⟩, fun a b => precedes_iff hfirst⟩
  · exact (table.sorted_perm.map Entry.signature).nodup_iff.mpr hnodup
  · exact h.unique table.sorted_arranges hfirst
  · rw [h]
    exact table.sorted_arranges

/-- Of the two stacks with one sample the one seen first is written first. -/
example : (empty.incrementAll ["b", "a", "c", "c"]).sorted = [⟨"c", 2⟩, ⟨"b", 1⟩, ⟨"a", 1⟩] := by
  rw [sorted, (incrementAll_tallies _).entries]
  cbv

end CountTable

end FlameFold.Stack
