import FlameFold.Stack.CountTable
import Mathlib.Algebra.BigOperators.Group.List.Lemmas
import Mathlib.Algebra.GroupWithZero.Nat
import Mathlib.Data.Finset.Card
import Mathlib.Data.List.Dedup
import Mathlib.Data.List.Induction
import Mathlib.Data.List.Nodup
import Std.Data.HashMap.Lemmas

/-!
# What a table of counted stacks holds

A table built by counting samples in turn holds the distinct signatures in the
order of their first samples, each with the number of its samples, and its index
gives the place of every signature and of no other.
-/

namespace FlameFold.Stack

/-- The distinct signatures in the order of their first occurrences, each with the
number of its occurrences. -/
def tally (signatures : List String) : List Entry :=
  signatures.eraseDups.map fun signature => ⟨signature, signatures.count signature⟩

/-- A further element is distinct from those before it, or changes nothing. -/
theorem eraseDups_concat (earlier : List String) (last : String) :
    (earlier ++ [last]).eraseDups =
      if last ∈ earlier then earlier.eraseDups else earlier.eraseDups ++ [last] := by
  rw [List.eraseDups_append]
  by_cases h : last ∈ earlier
  · have hr : [last].removeAll earlier = [] := by simp [List.removeAll, h]
    rw [hr, if_pos h, List.eraseDups_nil, List.append_nil]
  · have hr : [last].removeAll earlier = [last] := by simp [List.removeAll, h]
    rw [hr, if_neg h]
    simp [List.eraseDups_cons]

/-- No signature is kept twice. -/
theorem eraseDups_nodup (signatures : List String) : signatures.eraseDups.Nodup := by
  induction signatures using List.reverseRecOn with
  | nil => simp
  | append_singleton earlier last ih =>
    rw [eraseDups_concat]
    split
    · exact ih
    · next h =>
      apply List.nodup_append.mpr
      refine ⟨ih, List.nodup_singleton last, ?_⟩
      intro a ha b hb hab
      rw [List.mem_singleton.mp hb] at hab
      exact h (List.mem_eraseDups.mp (hab ▸ ha))

/-- Leaving elements out keeps the order in which the others first occur. -/
theorem eraseDups_filter (keep : String → Bool) (signatures : List String) :
    (signatures.filter keep).eraseDups = signatures.eraseDups.filter keep := by
  induction signatures using List.reverseRecOn with
  | nil => simp
  | append_singleton earlier last ih =>
    rw [eraseDups_concat, List.filter_append]
    cases hkeep : keep last with
    | true =>
      have hlast : [last].filter keep = [last] := by simp [hkeep]
      rw [hlast, eraseDups_concat]
      by_cases hmem : last ∈ earlier
      · rw [if_pos hmem, if_pos (List.mem_filter.mpr ⟨hmem, hkeep⟩), ih]
      · rw [if_neg hmem, if_neg fun h => hmem (List.mem_filter.mp h).1, ih, List.filter_append,
          hlast]
    | false =>
      have hlast : [last].filter keep = [] := by simp [hkeep]
      rw [hlast, List.append_nil, ih]
      split
      · rfl
      · rw [List.filter_append, hlast, List.append_nil]

/-- A known signature counts once more in its own place. -/
theorem tally_concat_of_mem {earlier : List String} {last : String} {place : Nat}
    (hplace : earlier.eraseDups[place]? = some last) :
    tally (earlier ++ [last]) = (tally earlier).modify place Entry.more := by
  have hmem : last ∈ earlier := List.mem_eraseDups.mp (List.mem_of_getElem? hplace)
  have hnodup := eraseDups_nodup earlier
  apply List.ext_getElem?
  intro j
  rw [List.getElem?_modify]
  simp only [tally, eraseDups_concat, if_pos hmem, List.getElem?_map]
  cases hj : earlier.eraseDups[j]? with
  | none => simp
  | some signature =>
    by_cases hp : place = j
    · have hs : signature = last := by
        rw [hp, hj] at hplace
        exact Option.some.inj hplace
      simp [hp, hs, Entry.more]
    · have hs : signature ≠ last := by
        intro h
        rw [h, ← hplace] at hj
        obtain ⟨hlt, -⟩ := List.getElem?_eq_some_iff.mp hplace
        exact hp ((List.getElem?_inj hlt hnodup).mp hj.symm)
      simp [hp, Ne.symm hs]

/-- A new signature takes the place after all others, with one sample. -/
theorem tally_concat_of_notMem {earlier : List String} {last : String}
    (hnew : last ∉ earlier) : tally (earlier ++ [last]) = tally earlier ++ [⟨last, 1⟩] := by
  have hcount : earlier.count last = 0 := List.count_eq_zero_of_not_mem hnew
  have hkeep : ∀ s ∈ earlier.eraseDups, (earlier ++ [last]).count s = earlier.count s := by
    intro s hs
    have hne : last ≠ s := fun h => hnew (h ▸ List.mem_eraseDups.mp hs)
    simp [hne]
  simp only [tally, eraseDups_concat, if_neg hnew, List.map_append, List.map_cons, List.map_nil]
  congr 1
  · exact List.map_congr_left fun s hs => by rw [hkeep s hs]
  · simp [hcount]

/-- The counts of a tally come to the number of samples. -/
theorem sum_tally (signatures : List String) :
    ((tally signatures).map Entry.count).sum = signatures.length := by
  have hperm : signatures.eraseDups.Perm signatures.dedup :=
    (List.perm_ext_iff_of_nodup (eraseDups_nodup signatures) signatures.nodup_dedup).mpr
      fun s => by rw [List.mem_eraseDups, List.mem_dedup]
  rw [tally, List.map_map]
  exact (hperm.map fun s => signatures.count s).sum_eq.trans
    (List.sum_map_count_dedup_eq_length signatures)

namespace CountTable

/-- The number of all samples is the sum of the counts. -/
theorem totalSamples_eq_sum (table : CountTable) :
    table.totalSamples = (table.toList.map Entry.count).sum := by
  rw [totalSamples, List.sum_eq_foldl_nat, List.foldl_map]

/-- The table holds what counting the signatures in turn comes to. -/
structure Tallies (table : CountTable) (signatures : List String) : Prop where
  /-- The entries are the distinct signatures with their numbers. -/
  entries : table.toList = tally signatures
  /-- The index holds the place of every distinct signature and nothing else. -/
  index : ∀ (signature : String) (place : Nat), table.index[signature]? = some place ↔
    signatures.eraseDups[place]? = some signature

/-- The empty table has counted nothing. -/
theorem empty_tallies : empty.Tallies [] where
  entries := rfl
  index := by simp [empty]

/-- An entry for each distinct signature. -/
theorem Tallies.size_eq {table : CountTable} {signatures : List String}
    (h : table.Tallies signatures) : table.entries.size = signatures.eraseDups.length := by
  have hl := congrArg List.length h.entries
  simpa [toList, tally] using hl

/-- Every counted sample is among the samples of the stacks. -/
theorem Tallies.totalSamples_eq {table : CountTable} {signatures : List String}
    (h : table.Tallies signatures) : table.totalSamples = signatures.length := by
  rw [totalSamples_eq_sum, h.entries, sum_tally]

/-- A signature that the index lacks has not been counted. -/
theorem Tallies.notMem {table : CountTable} {signatures : List String} {signature : String}
    (h : table.Tallies signatures) (hnone : table.index[signature]? = none) :
    signature ∉ signatures := by
  intro hmem
  obtain ⟨place, hplace⟩ := List.getElem?_of_mem (List.mem_eraseDups.mpr hmem)
  rw [(h.index signature place).mpr hplace] at hnone
  cases hnone

/-- A table finds the number of samples of each counted signature, and no other. -/
theorem Tallies.get?_eq {table : CountTable} {signatures : List String}
    (h : table.Tallies signatures) (signature : String) :
    table.get? signature =
      if signature ∈ signatures then some (signatures.count signature) else none := by
  cases hi : table.index[signature]? with
  | none =>
    rw [if_neg (h.notMem hi), get?, hi]
    rfl
  | some place =>
    have hplace := (h.index signature place).mp hi
    have hmem := List.mem_eraseDups.mp (List.mem_of_getElem? hplace)
    have hentry : table.entries[place]? = some ⟨signature, signatures.count signature⟩ := by
      rw [← Array.getElem?_toList, ← toList, h.entries, tally, List.getElem?_map, hplace]
      rfl
    rw [if_pos hmem, get?, hi]
    simp only [hentry, bind, Option.bind_some, pure]

/-- The index gives the places of the entries: a signature has a place exactly if the entry
there has this signature. -/
theorem Tallies.index_iff {table : CountTable} {signatures : List String}
    (h : table.Tallies signatures) (signature : String) (place : Nat) :
    table.index[signature]? = some place ↔
      ∃ hplace : place < table.entries.size, table.entries[place].signature = signature := by
  have hentry : table.entries[place]?.map Entry.signature = signatures.eraseDups[place]? := by
    rw [← Array.getElem?_toList, ← toList, h.entries, tally, List.getElem?_map, Option.map_map]
    exact Option.map_id_apply
  rw [h.index, ← hentry, Option.map_eq_some_iff]
  constructor
  · rintro ⟨entry, hfound, rfl⟩
    obtain ⟨hplace, rfl⟩ := Array.getElem?_eq_some_iff.mp hfound
    exact ⟨hplace, rfl⟩
  · rintro ⟨hplace, rfl⟩
    exact ⟨_, Array.getElem?_eq_getElem hplace, rfl⟩

/-- The index has the counted signatures and no others. -/
theorem Tallies.isSome_index {table : CountTable} {signatures : List String}
    (h : table.Tallies signatures) (signature : String) :
    table.index[signature]?.isSome = true ↔ signature ∈ signatures := by
  constructor
  · intro hsome
    obtain ⟨place, hplace⟩ := Option.isSome_iff_exists.mp hsome
    exact List.mem_eraseDups.mp (List.mem_of_getElem? ((h.index signature place).mp hplace))
  · intro hmem
    by_contra hnone
    exact h.notMem (Option.not_isSome_iff_eq_none.mp hnone) hmem

/-- Every entry has a sample, and no entry has more samples than there are. -/
theorem Tallies.count_bounds {table : CountTable} {signatures : List String} {entry : Entry}
    (h : table.Tallies signatures) (hentry : entry ∈ table.toList) :
    0 < entry.count ∧ entry.count ≤ signatures.length := by
  rw [h.entries] at hentry
  obtain ⟨signature, hmem, rfl⟩ := List.mem_map.mp hentry
  exact ⟨List.count_pos_iff.mpr (List.mem_eraseDups.mp hmem), List.count_le_length⟩

/-- There are as many entries as distinct signatures. -/
theorem Tallies.size_eq_card {table : CountTable} {signatures : List String}
    (h : table.Tallies signatures) : table.size = signatures.toFinset.card := by
  have hdistinct : signatures.eraseDups.toFinset = signatures.toFinset := by
    ext signature
    simp
  rw [size, h.size_eq, ← hdistinct, List.toFinset_card_of_nodup (eraseDups_nodup signatures)]

/-- Counting a sample without frames is no counting. -/
theorem increment_of_isEmpty {signature : String} (table : CountTable)
    (h : signature.isEmpty = true) : table.increment signature = table := by
  rw [increment, if_pos h]

/-- A further element has the place after all others. -/
theorem getElem?_concat_eq_some {earlier : List String} {last s : String} {place : Nat} :
    (earlier ++ [last])[place]? = some s ↔
      earlier[place]? = some s ∨ (place = earlier.length ∧ last = s) := by
  rw [List.getElem?_append]
  split
  · next hlt =>
    have hne : place ≠ earlier.length := Nat.ne_of_lt hlt
    simp [hne]
  · next hge =>
    have hout : earlier[place]? = none := List.getElem?_eq_none (Nat.le_of_not_lt hge)
    rw [hout, List.getElem?_singleton]
    split <;> simp <;> omega

/-- Counting one more sample appends it to what has been counted. -/
theorem Tallies.increment {table : CountTable} {signatures : List String} {signature : String}
    (h : table.Tallies signatures) (hne : ¬signature.isEmpty = true) :
    (table.increment signature).Tallies (signatures ++ [signature]) := by
  rw [CountTable.increment, if_neg hne]
  cases hi : table.index[signature]? with
  | some place =>
    have hplace := (h.index signature place).mp hi
    have hmem := List.mem_eraseDups.mp (List.mem_of_getElem? hplace)
    constructor
    · rw [tally_concat_of_mem hplace, ← h.entries]
      exact Array.toList_modify
    · intro s p
      rw [eraseDups_concat, if_pos hmem]
      exact h.index s p
  | none =>
    have hnew := h.notMem hi
    constructor
    · rw [tally_concat_of_notMem hnew, ← h.entries]
      exact Array.toList_push
    · intro s p
      rw [eraseDups_concat, if_neg hnew, getElem?_concat_eq_some, h.size_eq,
        Std.HashMap.getElem?_insert]
      by_cases hs : signature = s
      · have hlast : signatures.eraseDups[p]? ≠ some s := fun hp =>
          hnew (hs ▸ List.mem_eraseDups.mp (List.mem_of_getElem? hp))
        rw [if_pos (beq_iff_eq.mpr hs), Option.some.injEq]
        simp [hlast, hs, eq_comm]
      · rw [if_neg (by simpa using hs), h.index s p]
        simp [hs]

/-- Counting several samples appends those that have frames. -/
theorem Tallies.incrementAll {table : CountTable} {signatures : List String}
    (h : table.Tallies signatures) (more : List String) :
    (table.incrementAll more).Tallies (signatures ++ more.filter fun s => !s.isEmpty) := by
  induction more generalizing table signatures with
  | nil => simpa [CountTable.incrementAll] using h
  | cons s rest ih =>
    rw [CountTable.incrementAll, List.foldl_cons]
    by_cases hs : s.isEmpty = true
    · rw [increment_of_isEmpty table hs, List.filter_cons_of_neg (by simp [hs])]
      exact ih h
    · rw [List.filter_cons_of_pos (by simpa using hs), ← List.singleton_append,
        ← List.append_assoc]
      exact ih (h.increment hs)

/-- Counting samples from nothing tallies those that have frames. -/
theorem incrementAll_tallies (signatures : List String) :
    (empty.incrementAll signatures).Tallies (signatures.filter fun s => !s.isEmpty) :=
  empty_tallies.incrementAll signatures

/-- What counting signatures in turn, from nothing, comes to. The empty ones are left out. The
entries are the others in the order of their first occurrences, each with the number of its
occurrences. The index has these signatures and no others, each with the place of its entry,
so no place that is looked up lies outside the entries. A signature is found with its number
exactly if it is not empty and has been counted. There are as many entries as distinct
signatures, and their counts come to the number of all that were counted; no count is 0, and
none is above the number of the signatures. -/
theorem incrementAll_counts (signatures : List String) :
    let counted := signatures.filter fun signature => !signature.isEmpty
    let table := empty.incrementAll signatures
    table.toList =
        (counted.eraseDups.map fun signature => ⟨signature, signatures.count signature⟩) ∧
      (∀ signature place, table.index[signature]? = some place ↔
        ∃ hplace : place < table.entries.size, table.entries[place].signature = signature) ∧
      (∀ signature, table.index[signature]?.isSome = true ↔
        signature ∈ signatures ∧ signature ≠ "") ∧
      (∀ signature, table.get? signature =
        if signature ∈ signatures ∧ signature ≠ "" then some (signatures.count signature)
        else none) ∧
      table.size = counted.toFinset.card ∧
      (table.isEmpty = true ↔ table.size = 0) ∧
      table.totalSamples = counted.length ∧
      (∀ entry ∈ table.toList, 0 < entry.count ∧ entry.count ≤ signatures.length) := by
  intro counted table
  have h : table.Tallies counted := incrementAll_tallies signatures
  have hmem : ∀ signature, signature ∈ counted ↔ signature ∈ signatures ∧ signature ≠ "" := by
    intro signature
    simp [counted]
  have hcount : ∀ signature ∈ counted, counted.count signature = signatures.count signature := by
    intro signature hsignature
    exact List.count_filter (List.mem_filter.mp hsignature).2
  refine ⟨?_, h.index_iff, fun signature => ?_, fun signature => ?_, h.size_eq_card, ?_,
    h.totalSamples_eq, fun entry hentry => ?_⟩
  · rw [h.entries, tally]
    refine List.map_congr_left fun signature hsignature => ?_
    rw [hcount signature (List.mem_eraseDups.mp hsignature)]
  · rw [h.isSome_index, hmem]
  · rw [h.get?_eq]
    by_cases hs : signature ∈ counted
    · rw [if_pos hs, if_pos ((hmem signature).mp hs), hcount signature hs]
    · rw [if_neg hs, if_neg fun hsignature => hs ((hmem signature).mpr hsignature)]
  · rw [isEmpty, size, Array.isEmpty_iff_size_eq_zero]
  · obtain ⟨hpos, hle⟩ := h.count_bounds hentry
    exact ⟨hpos, hle.trans (List.length_filter_le _ signatures)⟩

/-- Of these four signatures one is empty and one comes twice: two entries hold three samples. -/
theorem incrementAll_counts_repeated :
    let table := empty.incrementAll ["b", "a", "", "b"]
    table.toList = [⟨"b", 2⟩, ⟨"a", 1⟩] ∧ ⟨"b", 2⟩ ∈ table.toList ∧
      (0 < (⟨"b", 2⟩ : Entry).count ∧ (⟨"b", 2⟩ : Entry).count ≤ 4) ∧
      table.index["a"]?.isSome = true ∧ table.index[""]?.isSome = false ∧
      table.get? "b" = some 2 ∧ table.get? "" = none ∧ table.size = 2 ∧
      table.isEmpty = false ∧ table.totalSamples = 3 := by
  obtain ⟨hentries, -, hindex, hget, hsize, hempty, htotal, hbounds⟩ :=
    incrementAll_counts ["b", "a", "", "b"]
  have hlist : (empty.incrementAll ["b", "a", "", "b"]).toList = [⟨"b", 2⟩, ⟨"a", 1⟩] :=
    hentries.trans (by decide +kernel)
  have hmem : ⟨"b", 2⟩ ∈ (empty.incrementAll ["b", "a", "", "b"]).toList := by simp [hlist]
  have htwo : (empty.incrementAll ["b", "a", "", "b"]).size = 2 := hsize.trans (by decide +kernel)
  refine ⟨hlist, hmem, hbounds _ hmem, (hindex "a").mpr (by decide), ?_, ?_, ?_, htwo, ?_,
    htotal.trans (by decide +kernel)⟩
  · exact Bool.eq_false_iff.mpr fun hsome => ((hindex "").mp hsome).2 rfl
  · rw [hget]
    decide +kernel
  · rw [hget]
    decide +kernel
  · refine Bool.eq_false_iff.mpr fun hnone => ?_
    rw [htwo] at hempty
    exact absurd (hempty.mp hnone) (by decide)

end CountTable

end FlameFold.Stack
