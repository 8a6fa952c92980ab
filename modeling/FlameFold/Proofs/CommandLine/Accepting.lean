import FlameFold.Proofs.CommandLine.Spelling

/-!
# Every line that is read is spelled

The words of a level that are read to their end, without a command among them, give values to keys
of the level: each word is one of the ways to write an option, or the value of the key in the word
before it.
-/

namespace FlameFold.CommandLine

variable {level : Level} {key : Key} {switch : Switch} {letter : Char} {name word : String}

/-! ## Words by what they look like -/

namespace Shape

/-- Two dashes look like nothing else. -/
theorem word_of_dashes (h : ofWord word = .dashes) : word = "--" := by
  unfold ofWord at h
  split at h
  · next hdashes => exact String.toList_inj.mp hdashes
  · split at h <;> cases h
  · cases h
  · cases h

/-- A word with a name and perhaps a value, cut at its first equals sign. -/
theorem word_of_long {value? : Option String} (h : ofWord word = .long name value?) :
    word = "--" ++ name ++ (value?.map fun value => "=" ++ value).getD "" := by
  unfold ofWord at h
  split at h
  · cases h
  · next cs _ hcs =>
    rw [← String.toList_inj, hcs]
    by_cases hequals : '=' ∈ cs
    · obtain ⟨front, back, rfl, hfront⟩ := List.eq_append_cons_of_mem hequals
      simp only [Text.span_separator hfront] at h
      cases h
      simp
    · simp only [Text.span_whole hequals] at h
      cases h
      simp
  · cases h
  · cases h

/-- A word with letters after one dash. -/
theorem word_of_letters {cs : List Char} (h : ofWord word = .letters cs) :
    word = String.ofList ('-' :: cs) := by
  unfold ofWord at h
  split at h
  · cases h
  · split at h <;> cases h
  · next hcs =>
    cases h
    rw [← String.toList_inj, hcs, String.toList_ofList]
  · cases h

end Shape

namespace Level

/-- An option that is found is a key or a switch. -/
theorem mark_found {keys : List Key} {switches : List Switch} {ofKey : Key → Bool}
    {ofSwitch : Switch → Bool} {mark : Mark}
    (h : ((keys.find? ofKey).map Mark.key).or ((switches.find? ofSwitch).map Mark.switch) =
      some mark) :
    (∃ key ∈ keys, ofKey key = true ∧ mark = .key key) ∨
      ∃ switch, ofSwitch switch = true ∧ mark = .switch switch := by
  rcases Option.or_eq_some_iff.mp h with hkey | ⟨-, hswitch⟩
  · obtain ⟨key, hfound, rfl⟩ := Option.map_eq_some_iff.mp hkey
    exact .inl ⟨key, List.mem_of_find?_eq_some hfound, List.find?_some hfound, rfl⟩
  · obtain ⟨switch, hfound, rfl⟩ := Option.map_eq_some_iff.mp hswitch
    exact .inr ⟨switch, List.find?_some hfound, rfl⟩

/-- A key that a level has by its name. -/
theorem key_of_named? (h : level.named? name = some (.key key)) :
    key ∈ level.keys ∧ key.name = name := by
  rcases mark_found h with ⟨found, hmem, hname, heq⟩ | ⟨found, -, heq⟩ <;> cases heq
  exact ⟨hmem, by simpa using hname⟩

/-- A switch that a level has by its name. -/
theorem switch_of_named? (h : level.named? name = some (.switch switch)) :
    switch.name = name := by
  rcases mark_found h with ⟨found, -, -, heq⟩ | ⟨found, hname, heq⟩ <;> cases heq
  simpa using hname

/-- A key that a level has by its letter. -/
theorem key_of_lettered? (h : level.lettered? letter = some (.key key)) :
    key ∈ level.keys ∧ key.letter? = some letter := by
  rcases mark_found h with ⟨found, hmem, hletter, heq⟩ | ⟨found, -, heq⟩ <;> cases heq
  exact ⟨hmem, by simpa using hletter⟩

/-- A switch that a level has by its letter. -/
theorem switch_of_lettered? (h : level.lettered? letter = some (.switch switch)) :
    switch.letter = letter := by
  rcases mark_found h with ⟨found, -, -, heq⟩ | ⟨found, hletter, heq⟩ <;> cases heq
  simpa using hletter

end Level

/-- One more letter that asks for more of the log. -/
theorem cluster_succ (loud : Nat) (rest : List Char) :
    cluster (loud + 1) rest = cluster loud (Switch.verbose.letter :: rest) := by
  unfold cluster
  rw [List.replicate_succ', List.append_assoc, List.singleton_append]

namespace Reading

variable {reading next done : Reading}

/-- The only switch that does not end the reading asks for more of the log. -/
theorem verbose_of_turn (h : reading.turn level switch = .ok next) : switch = .verbose := by
  obtain ⟨settled, -, hturn⟩ := ok_of_bind h
  cases switch with
  | verbose => rfl
  | help => cases hturn
  | version => cases hturn

/-- What a word that is read can be where an option can stand. -/
inductive Takes (level : Level) (word : String) (next : Reading) : Prop
  /-- It asks for more of the log. -/
  | asks {loud : Nat} (hword : Asks loud word) (hready : next.Ready)
  /-- It gives a key its value. -/
  | attaches {key : Key} {value : String} {loud : Nat} (hkey : key ∈ level.keys)
      (hword : Attaches key value loud word) (hready : next.Ready)
  /-- It names a key. -/
  | names {key : Key} {loud : Nat} (hkey : key ∈ level.keys) (hword : Names key loud word)
      (hawaits : next.Awaits key)
  /-- It ends the options. -/
  | closes (hword : word = "--") (hclosed : next.closed = true)

/-- Letters that are read after one dash, where some have asked for more of the log. -/
theorem takes_of_readLetters {cs : List Char} {loud : Nat} (hready : reading.Ready)
    (hletters : loud ≠ 0 ∨ cs ≠ []) (h : reading.readLetters level word cs = .ok next) :
    Takes level (cluster loud cs) next := by
  induction cs generalizing loud reading with
  | nil =>
    cases h
    obtain ⟨loud, rfl⟩ := Nat.exists_eq_succ_of_ne_zero (hletters.resolve_right (by simp))
    exact .asks (.lettered loud) hready
  | cons c cs ih =>
    rw [readLetters] at h
    split at h
    · cases h
    · next switch hswitch =>
      obtain ⟨turned, hturn, hrest⟩ := ok_of_bind h
      obtain rfl := verbose_of_turn hturn
      obtain rfl := Level.switch_of_lettered? hswitch
      rw [← cluster_succ]
      exact ih (hready.turn hturn) (.inl (Nat.succ_ne_zero loud)) hrest
    · next key hkey =>
      obtain ⟨hmem, hletter⟩ := Level.key_of_lettered? hkey
      split at h
      · exact .names hmem (.lettered hletter loud) (hready.await h)
      · next value =>
        have hword : Attaches key (String.ofList value) loud
            (cluster loud (c :: '=' :: value)) := by
          have hequals : Attaches key (String.ofList value) loud _ := .equals hletter loud
          rwa [String.toList_ofList] at hequals
        exact .attaches hmem hword (hready.giveAttached h)
      · next hnil hequals =>
        obtain ⟨first, others, rfl⟩ := List.exists_cons_of_ne_nil hnil
        have hfirst : first ≠ '=' := fun heq => hequals others (by rw [heq])
        have hword : Attaches key (String.ofList (first :: others)) loud
            (cluster loud (c :: first :: others)) := by
          have hlettered : Attaches key (String.ofList (first :: others)) loud _ :=
            .lettered hletter String.toList_ofList hfirst loud
          rwa [String.toList_ofList] at hlettered
        exact .attaches hmem hword (hready.giveAttached h)

/-- A word that is read where an option can stand is an option, or ends the options. -/
theorem takes_of_readWord (hready : reading.Ready) (h : reading.readWord level word = .ok next) :
    Takes level word next := by
  unfold readWord at h
  rw [if_neg (by simp [hready.undivided])] at h
  split at h
  · next hshape =>
    cases h
    exact .closes (Shape.word_of_dashes hshape) rfl
  · next name value? hshape =>
    obtain rfl := Shape.word_of_long hshape
    split at h
    · next key value hmark =>
      obtain ⟨hmem, rfl⟩ := Level.key_of_named? hmark
      have hword : "--" ++ key.name ++ ("=" ++ value) = attached key value := by
        rw [attached, String.append_assoc, String.append_assoc, String.append_assoc]
      have hattached : Attaches key value 0 ("--" ++ key.name ++ ("=" ++ value)) := by
        rw [hword]
        exact .named
      exact .attaches hmem hattached (hready.giveAttached h)
    · next key hmark =>
      obtain ⟨hmem, rfl⟩ := Level.key_of_named? hmark
      have hnamed : Names key 0 ("--" ++ key.name ++ "") := by
        rw [String.append_empty]
        exact .named
      exact .names hmem hnamed (hready.await h)
    · next switch hmark =>
      obtain rfl := Level.switch_of_named? hmark
      obtain rfl := verbose_of_turn h
      have hnamed : Asks 1 ("--" ++ Switch.verbose.name ++ "") := by
        rw [String.append_empty]
        exact .named
      exact .asks hnamed (hready.turn h)
    · cases h
  · next cs hshape =>
    rw [Shape.word_of_letters hshape]
    have hletters : 0 ≠ 0 ∨ cs ≠ [] := .inr (Shape.letters_ne_nil hshape)
    exact takes_of_readLetters hready hletters h
  · split at h
    · next key hawaited => exact absurd hawaited (hready.unawaited key)
    · cases h

/-- Only the program itself has commands. -/
theorem command_of_readWords {words rest : List String} {command : Level}
    (h : reading.readWords level words = .ok (next, some (command, rest))) :
    level = .program ∧ command ∈ Level.commands := by
  induction words generalizing reading with
  | nil => cases h
  | cons word others ih =>
    rw [readWords] at h
    split at h
    · next found hfound =>
      cases h
      unfold command? at hfound
      split_ifs at hfound with hprogram
      exact ⟨hprogram.1, List.mem_of_find?_eq_some hfound⟩
    · obtain ⟨middle, -, hrest⟩ := ok_of_bind h
      exact ih hrest

/-- Words that are read to their end with no command among them are spelled, and so are those that
a key waits for after its value. -/
theorem exists_spells {words : List String}
    (hread : reading.readWords level words = .ok (next, none)) (hdone : next.settle = .ok done) :
    (reading.Ready → ∃ given, Spells level.keys given words) ∧
    ∀ key, reading.Awaits key → ∃ value given rest,
      words = value :: rest ∧ Spells level.keys given rest := by
  -- a key and its value are two words, so both states between words go along the induction
  induction words generalizing reading with
  | nil =>
    cases hread
    refine ⟨fun _ => ⟨[], .nil⟩, fun key hawaits => ?_⟩
    rw [settle_awaited hawaits.awaited] at hdone
    cases hdone
  | cons word rest ih =>
    refine ⟨fun hready => ?_, fun key hawaits => ?_⟩
    · rw [readWords] at hread
      split at hread
      · cases hread
      · obtain ⟨middle, hword, hrest⟩ := ok_of_bind hread
        obtain ⟨hspells, hwaiting⟩ := ih hrest
        cases takes_of_readWord hready hword with
        | asks hasks hnext =>
          obtain ⟨given, hgiven⟩ := hspells hnext
          exact ⟨given, .loud hasks hgiven⟩
        | @attaches key value loud hkey hattaches hnext =>
          obtain ⟨given, hgiven⟩ := hspells hnext
          exact ⟨(key, value) :: given, .attached hkey hattaches hgiven⟩
        | @names key loud hkey hnames hawaits =>
          obtain ⟨value, given, others, rfl, hgiven⟩ := hwaiting key hawaits
          exact ⟨(key, value) :: given, .detached hkey hnames hgiven⟩
        | closes hclosing hclosed =>
          cases rest with
          | nil => exact ⟨[], hclosing ▸ .closed⟩
          | cons other others =>
            rw [readWords_after hclosed] at hrest
            cases hrest
    · by_cases hvalue : Shape.ofWord word = .plain
      · rw [hawaits.readWords hvalue] at hread
        obtain ⟨given, hgiven⟩ := (ih hread).1 (hawaits.ready word)
        exact ⟨word, given, rest, rfl, hgiven⟩
      · rcases hawaits.refuses hvalue rest with ⟨fault, hfault⟩ | ⟨read, fault, hok, hfault⟩
        · rw [hfault] at hread
          cases hread
        · rw [hok] at hread
          cases hread
          rw [hfault] at hdone
          cases hdone

end Reading

end FlameFold.CommandLine
