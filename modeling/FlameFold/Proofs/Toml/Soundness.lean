import FlameFold.Toml.Document

/-!
# Sound documents

A document that has been read is sound: no table in it has a key twice, and its whole numbers
have 64 bits. Each value is sound when it is read, and each line keeps the tables sound.
-/

namespace FlameFold.Toml

namespace Entries

variable {entries : Entries} {key other : String} {value : Value}

/-- The keys of a table, in order. -/
def keys (entries : Entries) : List String := entries.map Prod.fst

/-- The first entry with a key counts. -/
theorem get?_cons (entry : String × Value) (rest : Entries) :
    get? (entry :: rest) key = if key = entry.1 then some entry.2 else rest.get? key := by
  obtain ⟨first, found⟩ := entry
  by_cases h : key = first
  · simp [get?, h]
  · have hne : (key == first) = false := by simpa using h
    simp [get?, List.lookup_cons, h, hne]

/-- A key has no value where it does not stand. -/
theorem get?_eq_none : entries.get? key = none ↔ key ∉ entries.keys := by
  rw [get?, List.lookup_eq_none_iff, keys, List.mem_map]
  constructor
  · rintro h ⟨entry, hentry, rfl⟩
    simpa using h entry hentry
  · intro h entry hentry
    have hne : key ≠ entry.1 := fun heq => h ⟨entry, hentry, heq.symm⟩
    simpa using hne

/-- A key with a value stands there. -/
theorem mem_keys (h : entries.get? key = some value) : key ∈ entries.keys := by
  refine Decidable.byContradiction fun hnone => ?_
  rw [get?_eq_none.mpr hnone] at h
  cases h

/-- The value under a key stands there with it. -/
theorem mem_of_get? (h : entries.get? key = some value) : (key, value) ∈ entries := by
  obtain ⟨earlier, later, rfl, -⟩ := List.lookup_eq_some_iff.mp h
  simp

/-- Where no key stands twice, each of them has the value that stands with it. -/
theorem get?_of_mem (hkeys : entries.keys.Nodup) (h : (key, value) ∈ entries) :
    entries.get? key = some value := by
  induction entries with
  | nil => cases h
  | cons entry rest ih =>
    obtain ⟨hnew, hrest⟩ := List.nodup_cons.mp hkeys
    rw [get?_cons]
    rcases List.mem_cons.mp h with rfl | hmem
    · exact if_pos rfl
    · have hne : key ≠ entry.1 := by
        rintro rfl
        exact hnew (List.mem_map.mpr ⟨_, hmem, rfl⟩)
      rw [if_neg hne]
      exact ih hrest hmem

theorem keys_append : (entries.append key value).keys = entries.keys ++ [key] := by
  simp [keys, append]

theorem keys_replace : (entries.replace key value).keys = entries.keys := by
  simp only [keys, replace, List.map_map]
  apply List.map_congr_left
  intro entry _
  simp only [Function.comp]
  split
  · next h => exact h.symm
  · rfl

theorem keys_erase : (entries.erase key).keys = entries.keys.filter (· ≠ key) := by
  simp [keys, erase, List.filter_map, Function.comp_def]

theorem get?_append (h : other ≠ key) :
    (entries.append key value).get? other = entries.get? other := by
  have hne : (other == key) = false := by simpa using h
  simp only [get?, append, List.lookup_append, List.lookup_cons, hne]
  simp

theorem get?_append_self (h : entries.get? key = none) :
    (entries.append key value).get? key = some value := by
  simp only [get?] at h
  simp [get?, append, List.lookup_append, h]

theorem get?_replace (h : other ≠ key) :
    (entries.replace key value).get? other = entries.get? other := by
  induction entries with
  | nil => rfl
  | cons entry rest ih =>
    simp only [replace, List.map_cons] at ih ⊢
    rw [get?_cons, get?_cons, ih]
    by_cases hentry : entry.1 = key
    · rw [if_pos hentry, if_neg h, if_neg (by rwa [hentry])]
    · rw [if_neg hentry]

theorem get?_replace_self (h : (entries.get? key).isSome) :
    (entries.replace key value).get? key = some value := by
  induction entries with
  | nil => cases h
  | cons entry rest ih =>
    simp only [replace, List.map_cons] at ih ⊢
    rw [get?_cons] at h ⊢
    by_cases hentry : entry.1 = key
    · rw [if_pos hentry, if_pos rfl]
    · rw [if_neg hentry, if_neg (Ne.symm hentry)]
      rw [if_neg (Ne.symm hentry)] at h
      exact ih h

theorem get?_erase (h : other ≠ key) : (entries.erase key).get? other = entries.get? other := by
  induction entries with
  | nil => rfl
  | cons entry rest ih =>
    unfold erase at ih ⊢
    rw [get?_cons]
    by_cases hentry : entry.1 = key
    · rw [List.filter_cons_of_neg (by simpa using hentry), if_neg (by rwa [hentry]), ih]
    · rw [List.filter_cons_of_pos (by simpa using hentry), get?_cons, ih]

theorem get?_erase_self : (entries.erase key).get? key = none := by
  rw [get?_eq_none, keys_erase]
  simp

end Entries

/-- No table in the value has a key twice, and whole numbers have 64 bits. -/
inductive Value.Sound : Value → Prop
  | text (content : String) : Sound (.text content)
  | integer {number : Int} (h : Number.inRange number = true) : Sound (.integer number)
  | float (number : Decimal.Binary64) : Sound (.float number)
  | boolean (truth : Bool) : Sound (.boolean truth)
  | moment (written : String) : Sound (.moment written)
  | array {elements : List Value} (h : ∀ value ∈ elements, Sound value) : Sound (.array elements)
  | tables {elements : List (List (String × Value))}
      (hkeys : ∀ table ∈ elements, (Entries.keys table).Nodup)
      (h : ∀ table ∈ elements, ∀ entry ∈ table, Sound entry.2) : Sound (.tables elements)
  | table {origin : Origin} {entries : List (String × Value)}
      (hkeys : (Entries.keys entries).Nodup) (h : ∀ entry ∈ entries, Sound entry.2) :
      Sound (.table origin entries)

/-- A table that has no key twice, with sound values. -/
structure Entries.Sound (entries : Entries) : Prop where
  /-- No key stands twice. -/
  keys : entries.keys.Nodup
  /-- All values are sound. -/
  values : ∀ entry ∈ entries, entry.2.Sound

theorem Value.sound_table {origin : Origin} {entries : Entries} :
    (Value.table origin entries).Sound ↔ entries.Sound := by
  constructor
  · rintro (_ | _ | _ | _ | _ | _ | _ | ⟨hkeys, hvalues⟩)
    exact ⟨hkeys, hvalues⟩
  · rintro ⟨hkeys, hvalues⟩
    exact .table hkeys hvalues

theorem Value.sound_tables {elements : List Entries} :
    (Value.tables elements).Sound ↔ ∀ table ∈ elements, table.Sound := by
  constructor
  · rintro (_ | _ | _ | _ | _ | _ | ⟨hkeys, hvalues⟩ | _) table htable
    exact ⟨hkeys table htable, hvalues table htable⟩
  · intro h
    exact .tables (fun table htable => (h table htable).keys)
      fun table htable => (h table htable).values

namespace Entries

variable {entries after : Entries} {key : String} {value : Value}

theorem sound_nil : Sound [] := ⟨List.nodup_nil, by simp⟩

/-- The values of a sound table are sound. -/
theorem Sound.get? (h : entries.Sound) (hvalue : entries.get? key = some value) : value.Sound :=
  h.values _ (mem_of_get? hvalue)

/-- A sound table takes a sound value under a new key. -/
theorem Sound.append (h : entries.Sound) (hnew : entries.get? key = none)
    (hvalue : value.Sound) : (entries.append key value).Sound := by
  constructor
  · rw [keys_append]
    have hnotMem := get?_eq_none.mp hnew
    exact List.nodup_append.mpr ⟨h.keys, by simp, fun a ha b hb => by
      rw [List.mem_singleton.mp hb]
      rintro rfl
      exact hnotMem ha⟩
  · intro entry hentry
    rcases List.mem_append.mp hentry with hentry | hentry
    · exact h.values entry hentry
    · rw [List.mem_singleton.mp hentry]
      exact hvalue

/-- A sound table takes a sound value in the place of another. -/
theorem Sound.replace (h : entries.Sound) (hvalue : value.Sound) :
    (entries.replace key value).Sound := by
  constructor
  · rw [keys_replace]
    exact h.keys
  · intro entry hentry
    obtain ⟨old, hold, rfl⟩ := List.mem_map.mp hentry
    split
    · exact hvalue
    · exact h.values old hold

/-- A sound table stays sound without one of its values. -/
theorem Sound.erase (h : entries.Sound) (key : String) : (entries.erase key).Sound := by
  constructor
  · rw [keys_erase]
    exact h.keys.filter _
  · intro entry hentry
    exact h.values entry (List.mem_filter.mp hentry).1

/-- Changing the table that a path leads to keeps a table sound, if the change does. -/
theorem Sound.amend {dotted : Bool} {change : Origin → Entries → Option Entries}
    (hchange : ∀ origin inner changed, Sound inner → change origin inner = some changed →
      changed.Sound)
    {path : List String} {origin : Origin} (h : entries.Sound)
    (hafter : entries.amend dotted change path origin = some after) : after.Sound := by
  induction path generalizing origin entries after with
  | nil => exact hchange origin entries after h hafter
  | cons key path ih =>
    unfold Entries.amend at hafter
    cases hget : entries.get? key with
    | none =>
      simp only [hget, Option.bind_eq_bind, Option.bind_eq_some_iff] at hafter
      obtain ⟨inner, hinner, hsome⟩ := hafter
      cases hsome
      exact h.append hget (Value.sound_table.mpr (ih sound_nil hinner))
    | some found =>
      have hfound := h.get? hget
      cases found with
      | table origin inner =>
        simp only [hget] at hafter
        split at hafter
        · cases hafter
        · obtain ⟨changed, hchanged, hsome⟩ := Option.bind_eq_some_iff.mp hafter
          cases hsome
          exact h.replace (Value.sound_table.mpr (ih (Value.sound_table.mp hfound) hchanged))
      | tables elements =>
        simp only [hget] at hafter
        split at hafter
        · cases hafter
        · next last hlast =>
          obtain ⟨changed, hchanged, hsome⟩ := Option.bind_eq_some_iff.mp hafter
          cases hsome
          have helements := Value.sound_tables.mp hfound
          have hmem := List.mem_of_getLast? hlast
          refine h.replace (Value.sound_tables.mpr fun table htable => ?_)
          rcases List.mem_append.mp htable with htable | htable
          · exact helements table (List.dropLast_subset _ htable)
          · rw [List.mem_singleton.mp htable]
            exact ih (helements last hmem) hchanged
      | _ =>
        simp only [hget] at hafter
        cases hafter

/-- Adding a sound value keeps a table sound. -/
theorem Sound.set {path : List String} (h : entries.Sound) (hvalue : value.Sound)
    (hafter : entries.set path key value = some after) : after.Sound := by
  refine h.amend (fun origin inner changed hinner hchanged => ?_) hafter
  split at hchanged
  · cases hchanged
  · split at hchanged
    · cases hchanged
    · next hnew =>
      cases hchanged
      exact hinner.append (by simpa using hnew) hvalue

/-- Opening a table keeps a table sound. -/
theorem Sound.openTable {path : List String} (h : entries.Sound)
    (hafter : entries.openTable path key = some after) : after.Sound := by
  refine h.amend (fun origin inner changed hinner hchanged => ?_) hafter
  split at hchanged
  · next hnew =>
    cases hchanged
    exact hinner.append hnew (Value.sound_table.mpr sound_nil)
  · next content hcontent =>
    cases hchanged
    refine (hinner.erase key).append get?_erase_self ?_
    exact Value.sound_table.mpr (Value.sound_table.mp (hinner.get? hcontent))
  · cases hchanged

/-- Opening one more of the tables that share a header keeps a table sound. -/
theorem Sound.openElement {path : List String} (h : entries.Sound)
    (hafter : entries.openElement path key = some after) : after.Sound := by
  refine h.amend (fun origin inner changed hinner hchanged => ?_) hafter
  split at hchanged
  · next hnew =>
    cases hchanged
    exact hinner.append hnew (Value.sound_tables.mpr (by simp [sound_nil]))
  · next elements helements =>
    cases hchanged
    have hall := Value.sound_tables.mp (hinner.get? helements)
    refine hinner.replace (Value.sound_tables.mpr fun table htable => ?_)
    rcases List.mem_append.mp htable with htable | htable
    · exact hall table htable
    · rw [List.mem_singleton.mp htable]
      exact sound_nil
  · cases hchanged

/-- Adding a sound value under a header keeps a table sound. -/
theorem Sound.setUnder {header path : List String} (h : entries.Sound) (hvalue : value.Sound)
    (hafter : entries.setUnder header path key value = some after) : after.Sound :=
  h.amend (fun _ _ _ hinner hchanged => hinner.set hvalue hchanged) hafter

end Entries

/-! ## Reading -/

/-- The whole numbers that are read have 64 bits. -/
theorem Number.integer_inRange {cs rest : List Char} {number : Int}
    (h : integer cs = some (number, rest)) : inRange number = true := by
  have hranged : ∀ {n : Int} {after : List Char}, ranged n after = some (number, rest) →
      inRange number = true := by
    intro n after hn
    unfold ranged at hn
    split at hn
    · next hrange =>
      cases hn
      exact hrange
    · cases hn
  unfold integer at h
  split at h <;>
  · obtain ⟨_, -, hn⟩ := Option.bind_eq_some_iff.mp h
    exact hranged hn

namespace Value

/-- Values without others in them are sound. -/
theorem readScalar_sound {cs rest : List Char} {value : Value}
    (h : readScalar cs = some (value, rest)) : value.Sound := by
  unfold readScalar at h
  split at h
  · obtain ⟨_, -, hread⟩ := Option.map_eq_some_iff.mp h
    cases hread
    exact .text _
  · obtain ⟨_, -, hread⟩ := Option.map_eq_some_iff.mp h
    cases hread
    exact .text _
  · cases h
    exact .boolean true
  · cases h
    exact .boolean false
  · split at h
    · cases h
      exact .moment _
    · split at h
      · cases h
        exact .float _
      · obtain ⟨⟨number, after⟩, hnumber, hread⟩ := Option.map_eq_some_iff.mp h
        cases hread
        exact .integer (Number.integer_inRange hnumber)

section

variable {readOne : List Char → Option (Value × List Char)}
  (hone : ∀ cs value rest, readOne cs = some (value, rest) → value.Sound)
include hone

/-- The values of an array are sound, if each of them is read so. -/
theorem readElements_sound {fuel : Nat} {cs rest : List Char} {elements : List Value}
    (h : readElements readOne fuel cs = some (elements, rest)) :
    ∀ value ∈ elements, value.Sound := by
  induction fuel generalizing cs elements rest with
  | zero => cases h
  | succ fuel ih =>
    unfold readElements at h
    split at h
    · cases h
      simp
    · obtain ⟨⟨first, after⟩, hfirst, hmore⟩ := Option.bind_eq_some_iff.mp h
      have hsound := hone _ _ _ hfirst
      dsimp only at hmore
      split at hmore
      · obtain ⟨⟨others, last⟩, hothers, hread⟩ := Option.bind_eq_some_iff.mp hmore
        cases hread
        exact List.forall_mem_cons.mpr ⟨hsound, ih hothers⟩
      · cases hmore
        exact List.forall_mem_cons.mpr ⟨hsound, by simp⟩
      · cases hmore

/-- The table between braces is sound, if each of its values is read so. -/
theorem readPairs_sound {fuel : Nat} {before after : Entries} {cs rest : List Char}
    (hbefore : before.Sound) (h : readPairs readOne fuel before cs = some (after, rest)) :
    after.Sound := by
  induction fuel generalizing before cs with
  | zero => cases h
  | succ fuel ih =>
    unfold readPairs at h
    obtain ⟨⟨⟨path, key⟩, afterKey⟩, -, hvalue⟩ := Option.bind_eq_some_iff.mp h
    dsimp only at hvalue
    split at hvalue
    · obtain ⟨⟨value, afterValue⟩, hread, hset⟩ := Option.bind_eq_some_iff.mp hvalue
      obtain ⟨entries, hentries, hmore⟩ := Option.bind_eq_some_iff.mp hset
      have hsound := hbefore.set (hone _ _ _ hread) hentries
      split at hmore
      · exact ih hsound hmore
      · cases hmore
        exact hsound
      · cases hmore
    · cases hvalue

end

/-- Values are sound, however deep they nest. -/
theorem readNested_sound {size depth : Nat} {cs rest : List Char} {value : Value}
    (h : readNested size depth cs = some (value, rest)) : value.Sound := by
  induction depth generalizing cs value rest with
  | zero => exact readScalar_sound h
  | succ depth ih =>
    have hone : ∀ cs value rest, readNested size depth cs = some (value, rest) → value.Sound :=
      fun _ _ _ => ih
    unfold readNested at h
    split at h
    · obtain ⟨⟨elements, after⟩, helements, hread⟩ := Option.map_eq_some_iff.mp h
      cases hread
      exact .array (readElements_sound hone helements)
    · split at h
      · cases h
        exact sound_table.mpr Entries.sound_nil
      · obtain ⟨⟨entries, after⟩, hentries, hread⟩ := Option.map_eq_some_iff.mp h
        cases hread
        exact sound_table.mpr (readPairs_sound hone Entries.sound_nil hentries)
    · exact readScalar_sound h

/-- Every value that is read is sound. -/
theorem read_sound {cs rest : List Char} {value : Value} (h : read cs = some (value, rest)) :
    value.Sound := by
  unfold read at h
  split at h
  · exact readNested_sound h
  · exact readNested_sound h
  · exact readScalar_sound h

end Value

end FlameFold.Toml
