import FlameFold.Proofs.Toml.Statements

/-!
# The order of the keys

The keys of a document stand in the order in which its lines first name them, with one
exception. A table that is named on the way to others, and opened by a header of its own
later, moves to the end: its key counts from that header.
-/

namespace FlameFold.Toml

/-- How a line names a key of the whole document. -/
structure Mention where
  /-- The key. -/
  key : String
  /-- The line is the header of the table under the key. -/
  own : Bool

namespace Mention

variable {mentions : List Mention} {mention : Mention} {key : String}

/-- Where a key is named first; after all mentions, if it is not named. -/
def first (mentions : List Mention) (key : String) : Nat :=
  mentions.findIdx fun mention => mention.key == key

/-- Where the header of the table under a key stands, if there is one. -/
def header? (mentions : List Mention) (key : String) : Option Nat :=
  mentions.findIdx? fun mention => mention.own && mention.key == key

/-- Where a key counts from: the header of its table or, without one, its first mention. -/
def place (mentions : List Mention) (key : String) : Nat :=
  (header? mentions key).getD (first mentions key)

theorem first_append (h : key ∈ mentions.map Mention.key) :
    first (mentions ++ [mention]) key = first mentions key := by
  obtain ⟨earlier, hearlier, hkey⟩ := List.mem_map.mp h
  have hlt : first mentions key < mentions.length :=
    List.findIdx_lt_length_of_exists ⟨earlier, hearlier, by simpa using hkey⟩
  unfold first at hlt ⊢
  rw [List.findIdx_append, if_pos hlt]

theorem first_append_new (h : mention.key ∉ mentions.map Mention.key) :
    first (mentions ++ [mention]) mention.key = mentions.length := by
  have hnone : first mentions mention.key = mentions.length := by
    refine List.findIdx_eq_length.mpr fun earlier hearlier => ?_
    have hne : earlier.key ≠ mention.key := fun heq => h (List.mem_map.mpr ⟨_, hearlier, heq⟩)
    simpa using hne
  unfold first at hnone ⊢
  rw [List.findIdx_append, hnone, if_neg (Nat.lt_irrefl _)]
  simp

theorem header?_append :
    header? (mentions ++ [mention]) key = (header? mentions key).or
      (if mention.own = true ∧ mention.key = key then some mentions.length else none) := by
  unfold header?
  rw [List.findIdx?_append]
  congr 1
  by_cases hown : mention.own = true ∧ mention.key = key <;>
    simp [List.findIdx?_cons, hown]

theorem header?_eq_none :
    header? mentions key = none ↔
      ∀ mention ∈ mentions, mention.own = true → mention.key ≠ key := by
  simp [header?, List.findIdx?_eq_none_iff]

/-- A key that is named counts from before the end. -/
theorem place_lt (h : key ∈ mentions.map Mention.key) : place mentions key < mentions.length := by
  unfold place
  cases hheader : header? mentions key with
  | none =>
    obtain ⟨mention, hmention, hkey⟩ := List.mem_map.mp h
    exact List.findIdx_lt_length_of_exists ⟨mention, hmention, by simpa using hkey⟩
  | some position =>
    obtain ⟨hlt, -⟩ := List.findIdx?_eq_some_iff_getElem.mp hheader
    exact hlt

/-- A key that is named counts from where it did, unless a header opens its table. -/
theorem place_append (h : key ∈ mentions.map Mention.key)
    (hother : mention.own = true → mention.key ≠ key) :
    place (mentions ++ [mention]) key = place mentions key := by
  have hnot : ¬(mention.own = true ∧ mention.key = key) := fun ⟨hown, hkey⟩ => hother hown hkey
  unfold place
  rw [header?_append, if_neg hnot, Option.or_none, first_append h]

/-- A key that is named for the first time counts from there. -/
theorem place_append_new (h : mention.key ∉ mentions.map Mention.key) :
    place (mentions ++ [mention]) mention.key = mentions.length := by
  have hnone : header? mentions mention.key = none :=
    header?_eq_none.mpr fun earlier hearlier _ heq => h (List.mem_map.mpr ⟨_, hearlier, heq⟩)
  unfold place
  rw [header?_append, hnone, Option.none_or, first_append_new h]
  split <;> rfl

/-- A key whose table is opened by its header counts from there. -/
theorem place_append_own (hown : mention.own = true)
    (h : ∀ earlier ∈ mentions, earlier.own = true → earlier.key ≠ mention.key) :
    place (mentions ++ [mention]) mention.key = mentions.length := by
  have hnone : header? mentions mention.key = none := header?_eq_none.mpr h
  unfold place
  rw [header?_append, hnone, Option.none_or, if_pos ⟨hown, rfl⟩]
  rfl

end Mention

/-! ## What a line does to the order -/

/-- What naming a key does to a table. -/
inductive Entries.Turn (entries : Entries) : Mention → Entries → Prop
  /-- A new key stands after the others. -/
  | added {key : String} {own : Bool} {value : Value} (hnew : entries.get? key = none)
      (hown : own = true → ∃ inner, value = .table .header inner) :
      Turn entries ⟨key, own⟩ (entries.append key value)
  /-- A key stays in its place, and its table stays opened. -/
  | kept {key : String} {value : Value} (hold : (entries.get? key).isSome = true)
      (hopened : ∀ inner, entries.get? key = some (.table .header inner) →
        ∃ changed, value = .table .header changed) :
      Turn entries ⟨key, false⟩ (entries.replace key value)
  /-- A table that its own header opens moves to the end. -/
  | moved {key : String} {inner : Entries}
      (hold : entries.get? key = some (.table .implied inner)) :
      Turn entries ⟨key, true⟩ ((entries.erase key).append key (.table .header inner))

namespace Entries

variable {entries after : Entries} {key : String} {value : Value}

/-- A change further in names the key that leads to it. -/
theorem turn_amend {dotted : Bool} {change : Origin → Entries → Option Entries}
    {path : List String} {origin : Origin}
    (h : entries.amend dotted change (key :: path) origin = some after) :
    Turn entries ⟨key, false⟩ after := by
  unfold amend at h
  cases hget : entries.get? key with
  | none =>
    simp only [hget, Option.bind_eq_bind, Option.bind_eq_some_iff] at h
    obtain ⟨inner, -, hsome⟩ := h
    cases hsome
    exact .added hget (by simp)
  | some found =>
    have hold : (entries.get? key).isSome = true := by rw [hget]; rfl
    cases found with
    | table origin inner =>
      simp only [hget] at h
      split at h
      · cases h
      · obtain ⟨changed, -, hsome⟩ := Option.bind_eq_some_iff.mp h
        cases hsome
        refine .kept hold fun content hcontent => ⟨changed, ?_⟩
        rw [hget] at hcontent
        cases hcontent
        rfl
    | tables elements =>
      simp only [hget] at h
      split at h
      · cases h
      · obtain ⟨changed, -, hsome⟩ := Option.bind_eq_some_iff.mp h
        cases hsome
        refine .kept hold fun content hcontent => ?_
        rw [hget] at hcontent
        cases hcontent
    | _ =>
      simp only [hget] at h
      cases h

/-- The header of a table names the first part of its path. -/
theorem turn_openTable {path : List String} (h : entries.openTable path key = some after) :
    Turn entries ⟨path.headD key, path.isEmpty⟩ after := by
  cases path with
  | cons outer path => exact turn_amend h
  | nil =>
    unfold openTable amend at h
    split at h
    · next hnew =>
      cases h
      exact .added hnew fun _ => ⟨[], rfl⟩
    · next inner hinner =>
      cases h
      exact .moved hinner
    · cases h

/-- The header of one more table names the first part of its path. -/
theorem turn_openElement {path : List String} (h : entries.openElement path key = some after) :
    Turn entries ⟨path.headD key, false⟩ after := by
  cases path with
  | cons outer path => exact turn_amend h
  | nil =>
    unfold openElement amend at h
    split at h
    · next hnew =>
      cases h
      exact .added hnew (by simp)
    · next elements helements =>
      cases h
      have hold : (entries.get? key).isSome = true := by rw [helements]; rfl
      refine .kept hold fun content hcontent => ?_
      change entries.get? key = _ at hcontent
      rw [helements] at hcontent
      cases hcontent
    · cases h

/-- A key under a header names the first part of the two together. -/
theorem turn_setUnder {header path : List String}
    (h : entries.setUnder header path key value = some after) :
    Turn entries ⟨(header ++ path).headD key, false⟩ after := by
  match header, path with
  | outer :: header, path => exact turn_amend h
  | [], outer :: path =>
    have hset : entries.set (outer :: path) key value = some after := h
    exact turn_amend hset
  | [], [] =>
    unfold setUnder amend set amend at h
    split at h
    · cases h
    · split at h
      · cases h
      · next hnew =>
        cases h
        exact .added (by simpa using hnew) (by simp)

/-- The keys of a table are those that have been named, in the order of the places from which
they count. -/
structure Ordered (mentions : List Mention) (entries : Entries) : Prop where
  /-- The keys are those that have been named. -/
  named : ∀ key, key ∈ entries.keys ↔ key ∈ mentions.map Mention.key
  /-- The tables whose headers have been read are opened. -/
  opened : ∀ mention ∈ mentions, mention.own = true →
    ∃ inner, entries.get? mention.key = some (.table .header inner)
  /-- A key stands before those that count from a later place. -/
  ascending : entries.keys.Pairwise fun key other =>
    Mention.place mentions key < Mention.place mentions other

theorem ordered_nil : Ordered [] [] where
  named := by simp [keys]
  opened := by simp
  ascending := List.Pairwise.nil

section

variable {mentions : List Mention} {mention : Mention}

/-- Keys that are there still stand in order after one more mention, unless it opens one of
them. -/
theorem Ordered.ascending_append (h : Ordered mentions entries) (mention : Mention)
    {others : List String} (hothers : others.Sublist entries.keys)
    (hown : mention.own = true → mention.key ∉ others) :
    (∀ key ∈ others, Mention.place (mentions ++ [mention]) key < mentions.length) ∧
      others.Pairwise fun key other => Mention.place (mentions ++ [mention]) key <
        Mention.place (mentions ++ [mention]) other := by
  have hnamed : ∀ key ∈ others, key ∈ mentions.map Mention.key := fun key hkey =>
    (h.named key).mp (hothers.subset hkey)
  have hplace : ∀ key ∈ others,
      Mention.place (mentions ++ [mention]) key = Mention.place mentions key := by
    intro key hkey
    refine Mention.place_append (hnamed key hkey) fun hopens heq => ?_
    exact hown hopens (heq ▸ hkey)
  constructor
  · intro key hkey
    rw [hplace key hkey]
    exact Mention.place_lt (hnamed key hkey)
  · refine (h.ascending.sublist hothers).imp_of_mem fun {key other} hkey hother hlt => ?_
    rw [hplace key hkey, hplace other hother]
    exact hlt

/-- A key that counts from the last mention stands after those that are there. -/
theorem Ordered.ascending_last (h : Ordered mentions entries) (mention : Mention)
    {others : List String} (hothers : others.Sublist entries.keys) (hnot : mention.key ∉ others)
    (hlast : Mention.place (mentions ++ [mention]) mention.key = mentions.length) :
    (others ++ [mention.key]).Pairwise fun key other =>
      Mention.place (mentions ++ [mention]) key <
        Mention.place (mentions ++ [mention]) other := by
  obtain ⟨hbefore, hpairs⟩ := h.ascending_append mention hothers fun _ => hnot
  refine List.pairwise_append.mpr ⟨hpairs, List.pairwise_singleton _ _, ?_⟩
  intro key hkey other hother
  rw [List.mem_singleton.mp hother, hlast]
  exact hbefore key hkey

/-- Naming a key keeps the keys in order. -/
theorem Ordered.turn (h : Ordered mentions entries) (hturn : Turn entries mention after) :
    Ordered (mentions ++ [mention]) after := by
  cases hturn with
  | @added key own value hnew hown =>
    have hnot : key ∉ entries.keys := get?_eq_none.mp hnew
    have hunnamed : key ∉ mentions.map Mention.key := fun hmem => hnot ((h.named key).mpr hmem)
    refine ⟨fun name => ?_, fun mention hmention hopens => ?_, ?_⟩
    · rw [keys_append]
      simp [h.named name]
    · rcases List.mem_append.mp hmention with hearlier | hlast
      · have hne : mention.key ≠ key := by
          rintro rfl
          exact hunnamed (List.mem_map_of_mem hearlier)
        rw [get?_append hne]
        exact h.opened mention hearlier hopens
      · obtain rfl := List.mem_singleton.mp hlast
        obtain ⟨inner, rfl⟩ := hown hopens
        exact ⟨inner, get?_append_self hnew⟩
    · rw [keys_append]
      have hlast : Mention.place (mentions ++ [⟨key, own⟩]) key = mentions.length :=
        Mention.place_append_new hunnamed
      exact h.ascending_last ⟨key, own⟩ (List.Sublist.refl _) hnot hlast
  | @kept key value hold hopened =>
    obtain ⟨found, hfound⟩ := Option.isSome_iff_exists.mp hold
    have hnamed : key ∈ mentions.map Mention.key := (h.named key).mp (mem_keys hfound)
    refine ⟨fun name => ?_, fun mention hmention hopens => ?_, ?_⟩
    · rw [keys_replace, h.named name, List.map_append, List.mem_append]
      constructor
      · exact .inl
      · rintro (hname | hname)
        · exact hname
        · rw [List.mem_singleton.mp hname]
          exact hnamed
    · rcases List.mem_append.mp hmention with hearlier | hlast
      · obtain ⟨inner, hinner⟩ := h.opened mention hearlier hopens
        by_cases hkey : mention.key = key
        · rw [hkey] at hinner ⊢
          obtain ⟨changed, rfl⟩ := hopened inner hinner
          exact ⟨changed, get?_replace_self hold⟩
        · rw [get?_replace hkey]
          exact ⟨inner, hinner⟩
      · rw [List.mem_singleton.mp hlast] at hopens
        cases hopens
    · rw [keys_replace]
      exact (h.ascending_append ⟨key, false⟩ (List.Sublist.refl _) (by simp)).2
  | @moved key inner hold =>
    -- no header has opened the table before: it would not be implied any more
    have hfirst : ∀ mention ∈ mentions, mention.own = true → mention.key ≠ key := by
      rintro mention hmention hopens rfl
      obtain ⟨content, hcontent⟩ := h.opened mention hmention hopens
      rw [hold] at hcontent
      cases hcontent
    have hnamed : key ∈ mentions.map Mention.key := (h.named key).mp (mem_keys hold)
    refine ⟨fun name => ?_, fun mention hmention hopens => ?_, ?_⟩
    · by_cases hname : name = key
      · simp [keys_append, hname]
      · simp [keys_append, keys_erase, h.named name, hname]
    · rcases List.mem_append.mp hmention with hearlier | hlast
      · have hne := hfirst mention hearlier hopens
        rw [get?_append hne, get?_erase hne]
        exact h.opened mention hearlier hopens
      · obtain rfl := List.mem_singleton.mp hlast
        exact ⟨inner, get?_append_self get?_erase_self⟩
    · rw [keys_append]
      have hothers : (entries.erase key).keys.Sublist entries.keys := by
        rw [keys_erase]
        exact List.filter_sublist
      have hlast : Mention.place (mentions ++ [⟨key, true⟩]) key = mentions.length :=
        Mention.place_append_own rfl hfirst
      exact h.ascending_last ⟨key, true⟩ hothers (get?_eq_none.mp get?_erase_self) hlast

end

end Entries

/-! ## The order of a document -/

namespace Statement

/-- The key of the document that a statement under a header names, if it names one. -/
def mention? (header : List String) : Statement → Option Mention
  | .blank => none
  | .opens path key => some ⟨path.headD key, path.isEmpty⟩
  | .adds path key => some ⟨path.headD key, false⟩
  | .gives path key _ => some ⟨(header ++ path).headD key, false⟩

/-- The header after a statement. -/
def headerAfter (header : List String) : Statement → List String
  | .opens path key => path ++ [key]
  | .adds path key => path ++ [key]
  | _ => header

/-- The keys that statements name, in their order. -/
def mentions : List String → List Statement → List Mention
  | _, [] => []
  | header, statement :: rest =>
    (statement.mention? header).toList ++ mentions (statement.headerAfter header) rest

variable {document after : Document}

/-- Carrying out a statement leaves the header that it says. -/
theorem apply_header {statement : Statement} (h : statement.apply document = some after) :
    after.header = statement.headerAfter document.header := by
  cases statement with
  | blank =>
    cases h
    rfl
  | opens path key =>
    obtain ⟨entries, -, rfl⟩ := Option.map_eq_some_iff.mp h
    rfl
  | adds path key =>
    obtain ⟨entries, -, rfl⟩ := Option.map_eq_some_iff.mp h
    rfl
  | gives path key value =>
    obtain ⟨entries, -, rfl⟩ := Option.map_eq_some_iff.mp h
    rfl

/-- Carrying out a statement keeps the keys of the document in order. -/
theorem apply_ordered {statement : Statement} {before : List Mention}
    (hbefore : Entries.Ordered before document.entries)
    (h : statement.apply document = some after) :
    Entries.Ordered (before ++ (statement.mention? document.header).toList) after.entries := by
  cases statement with
  | blank =>
    cases h
    simpa [mention?] using hbefore
  | opens path key =>
    obtain ⟨entries, hentries, rfl⟩ := Option.map_eq_some_iff.mp h
    exact hbefore.turn (Entries.turn_openTable hentries)
  | adds path key =>
    obtain ⟨entries, hentries, rfl⟩ := Option.map_eq_some_iff.mp h
    exact hbefore.turn (Entries.turn_openElement hentries)
  | gives path key value =>
    obtain ⟨entries, hentries, rfl⟩ := Option.map_eq_some_iff.mp h
    exact hbefore.turn (Entries.turn_setUnder hentries)

/-- Carrying out statements in turn keeps the keys of the document in order. -/
theorem foldlM_apply_ordered {statements : List Statement} {before : List Mention}
    (hbefore : Entries.Ordered before document.entries)
    (h : statements.foldlM apply document = some after) :
    Entries.Ordered (before ++ mentions document.header statements) after.entries := by
  induction statements generalizing document before with
  | nil =>
    cases h
    simpa [mentions] using hbefore
  | cons statement rest ih =>
    obtain ⟨middle, hmiddle, hmore⟩ := Option.bind_eq_some_iff.mp h
    have hrest := ih (apply_ordered hbefore hmiddle) hmore
    rw [apply_header hmiddle, List.append_assoc] at hrest
    exact hrest

end Statement

namespace Document

/-- The keys that the lines of a text name, in their order. -/
def mentions (text : String) : List Mention :=
  ((statements? text).map (Statement.mentions [])).getD []

/-- The keys of a document stand in the order of the places from which they count. -/
theorem parse?_ordered {text : String} {entries : Entries} (h : parse? text = some entries) :
    Entries.Ordered (mentions text) entries := by
  obtain ⟨statements, after, hstatements, hafter, rfl⟩ := exists_statements h
  have hall := Statement.foldlM_apply_ordered Entries.ordered_nil hafter
  unfold mentions
  rw [hstatements]
  exact hall

end Document

end FlameFold.Toml
