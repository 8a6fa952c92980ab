import FlameFold.Proofs.CommandLine.Words

/-!
# How options are written

A key is written with two dashes and its name or with one dash and its letter, and its value
follows in the same word or in the next one. The letter that asks for more of the log may stand
before the letter of a key. Each of these words does the same at every level that has the option;
only a value in a word of its own that looks like an option is read as one, and then the line is
refused.
-/

namespace FlameFold.CommandLine

/-- Letters after one dash: the one that asks for more of the log some times, and then others. -/
def cluster (loud : Nat) (rest : List Char) : String :=
  String.ofList ('-' :: (List.replicate loud Switch.verbose.letter ++ rest))

/-- The word asks for more of the log, and for nothing else. -/
inductive Asks : Nat → String → Prop
  /-- By the name of the switch. -/
  | named : Asks 1 ("--" ++ Switch.verbose.name)
  /-- By its letter. -/
  | lettered (loud : Nat) : Asks (loud + 1) (cluster (loud + 1) [])

/-- The word names a key, whose value is the next word; before that it asks for more of the log
some times. -/
inductive Names (key : Key) : Nat → String → Prop
  /-- By the name of the key. -/
  | named : Names key 0 ("--" ++ key.name)
  /-- By its letter. -/
  | lettered {letter : Char} (hletter : key.letter? = some letter) (loud : Nat) :
      Names key loud (cluster loud [letter])

/-- The word gives a key its value; before that it asks for more of the log some times. -/
inductive Attaches (key : Key) (value : String) : Nat → String → Prop
  /-- After the name of the key and an equals sign. -/
  | named : Attaches key value 0 (attached key value)
  /-- After its letter and an equals sign. -/
  | equals {letter : Char} (hletter : key.letter? = some letter) (loud : Nat) :
      Attaches key value loud (cluster loud (letter :: '=' :: value.toList))
  /-- After its letter alone. -/
  | lettered {letter first : Char} {others : List Char} (hletter : key.letter? = some letter)
      (hvalue : value.toList = first :: others) (hfirst : first ≠ '=') (loud : Nat) :
      Attaches key value loud (cluster loud (letter :: value.toList))

/-- The words give these values to these keys, in this order, and ask for more of the log any
number of times. Two dashes may end them. -/
inductive Spells (keys : List Key) : List (Key × String) → List String → Prop
  /-- No word. -/
  | nil : Spells keys [] []
  /-- Two dashes, after which there are no options. -/
  | closed : Spells keys [] ["--"]
  /-- A word that asks for more of the log. -/
  | loud {loud : Nat} {word : String} {given : List (Key × String)} {rest : List String}
      (hword : Asks loud word) (hrest : Spells keys given rest) : Spells keys given (word :: rest)
  /-- A word with a key and its value. -/
  | attached {key : Key} {value word : String} {loud : Nat} {given : List (Key × String)}
      {rest : List String} (hkey : key ∈ keys) (hword : Attaches key value loud word)
      (hrest : Spells keys given rest) : Spells keys ((key, value) :: given) (word :: rest)
  /-- A word with a key, and its value after it. -/
  | detached {key : Key} {value word : String} {loud : Nat} {given : List (Key × String)}
      {rest : List String} (hkey : key ∈ keys) (hword : Names key loud word)
      (hrest : Spells keys given rest) :
      Spells keys ((key, value) :: given) (word :: value :: rest)

/-- Letters after one dash begin with it. -/
theorem cluster_dash (loud : Nat) (rest : List Char) :
    ∃ cs, (cluster loud rest).toList = '-' :: cs :=
  ⟨_, String.toList_ofList⟩

/-- A word that asks for more of the log begins with a dash. -/
theorem Asks.dash {loud : Nat} {word : String} (h : Asks loud word) :
    ∃ cs, word.toList = '-' :: cs := by
  cases h with
  | named => exact ⟨'-' :: Switch.verbose.name.toList, by simp⟩
  | lettered loud => exact cluster_dash _ _

/-- A word that names a key begins with a dash. -/
theorem Names.dash {key : Key} {loud : Nat} {word : String} (h : Names key loud word) :
    ∃ cs, word.toList = '-' :: cs := by
  cases h with
  | named => exact ⟨'-' :: key.name.toList, by simp⟩
  | lettered => exact cluster_dash _ _

/-- A word that gives a key its value begins with a dash. -/
theorem Attaches.dash {key : Key} {value word : String} {loud : Nat}
    (h : Attaches key value loud word) : ∃ cs, word.toList = '-' :: cs := by
  cases h with
  | named => exact ⟨'-' :: (key.name.toList ++ '=' :: value.toList), by simp [attached]⟩
  | equals => exact cluster_dash _ _
  | lettered => exact cluster_dash _ _

namespace Level

variable {level : Level} {key : Key} {letter : Char}

/-- No command begins with a dash. -/
theorem ofName?_dash {word : String} {cs : List Char} (h : word.toList = '-' :: cs) :
    ofName? word = none := by
  have hnames : ∀ command ∈ commands, command.name.toList.head? ≠ some '-' := by decide
  unfold ofName?
  rw [List.find?_eq_none]
  intro command hcommand hname
  obtain rfl : command.name = word := by simpa using hname
  exact hnames command hcommand (by rw [h]; rfl)

/-- Every level with options knows the switch that asks for more of the log. -/
theorem named?_verbose (hlevel : level ≠ .help) :
    level.named? Switch.verbose.name = some (.switch .verbose) := by
  cases level <;> first | rfl | exact absurd rfl hlevel

/-- Every level with options knows the letter that asks for more of the log. -/
theorem lettered?_verbose (hlevel : level ≠ .help) :
    level.lettered? Switch.verbose.letter = some (.switch .verbose) := by
  cases level <;> first | rfl | exact absurd rfl hlevel

/-- A level knows its keys by their letters. -/
theorem lettered?_letter (hkey : key ∈ level.keys) (hletter : key.letter? = some letter) :
    level.lettered? letter = some (.key key) := by
  cases level <;> cases key <;>
    first | exact absurd hkey (by decide) | (cases hletter <;> rfl)

/-- The letter of a key is no dash. -/
theorem letter_ne_dash (hletter : key.letter? = some letter) : letter ≠ '-' := by
  cases key <;> cases hletter <;> decide

end Level

/-- Letters after one dash look like what they are. -/
theorem Shape.ofWord_cluster {loud : Nat} {rest : List Char} {first : Char} {others : List Char}
    (hletters : List.replicate loud Switch.verbose.letter ++ rest = first :: others)
    (hfirst : first ≠ '-') :
    Shape.ofWord (cluster loud rest) = .letters (first :: others) := by
  rw [Shape.ofWord, cluster, String.toList_ofList, hletters]
  split
  · next heq => exact absurd (List.cons.inj (List.cons.inj heq).2).1 hfirst
  · next heq => exact absurd (List.cons.inj (List.cons.inj heq).2).1 hfirst
  · next heq =>
    obtain ⟨rfl, rfl⟩ := List.cons.inj (List.cons.inj heq).2
    rfl
  · next hother => exact absurd rfl (hother first others)

/-- A word with the name of an option and no value looks like what it is. -/
theorem Shape.ofWord_named {name : String} (hname : '=' ∉ name.toList) (hne : name ≠ "") :
    Shape.ofWord ("--" ++ name) = .long name none := by
  have hword : ("--" ++ name).toList = '-' :: '-' :: name.toList := by simp
  rw [Shape.ofWord, hword]
  split
  · next heq => simp [hne] at heq
  · next cs _ heq =>
    obtain rfl : name.toList = cs := (List.cons.inj (List.cons.inj heq).2).2
    simp only [Text.span_whole hname, String.ofList_toList]
  · next hdashes hletters =>
    obtain ⟨rfl, -⟩ := List.cons.inj (List.cons.inj hletters).2
    exact absurd rfl hdashes
  · next hother _ => exact (hother _ rfl).elim

/-- After one dash there is at least one letter. -/
theorem Shape.letters_ne_nil {word : String} {cs : List Char} (h : ofWord word = .letters cs) :
    cs ≠ [] := by
  unfold ofWord at h
  split at h
  · cases h
  · split at h <;> cases h
  · cases h
    exact List.cons_ne_nil _ _
  · cases h

namespace Options

variable {options next : Options} {key : Key} {word : String}

/-- The options without what they say about the log. -/
def quiet (options : Options) : Options := { options with verbose := false }

/-- Set what keys of the command line say, one after another. -/
def giveAll (options : Options) : List (Key × String) → Except Fault Options
  | [] => .ok options
  | (key, word) :: given => do giveAll (← options.give key word) given

/-- The first of several keys is set before the others. -/
theorem giveAll_cons (h : options.give key word = .ok next) (given : List (Key × String)) :
    options.giveAll ((key, word) :: given) = next.giveAll given := by
  rw [giveAll, h]
  rfl

/-- Asking for more of the log sets nothing else. -/
theorem quiet_giveVerbose (h : options.giveVerbose = .ok next) : next.quiet = options.quiet := by
  unfold giveVerbose at h
  split at h
  · cases h
  · cases h
    rfl

/-- What a key says has nothing to do with the log. -/
theorem assign_quiet (options : Options) (key : Key) (word : String) :
    options.quiet.assign key word = (options.assign key word).map quiet := by
  cases key <;> unfold assign <;> first
    | rfl
    | (dsimp only; cases readPath _ word <;> rfl)
    | (dsimp only; cases readDepth word <;> rfl)
    | (dsimp only; cases readSeconds word <;> rfl)
    | (dsimp only; cases readRecording word <;> rfl)

/-- Whether a key has been given has nothing to do with the log. -/
theorem isGiven_quiet (options : Options) (key : Key) :
    options.quiet.isGiven key = options.isGiven key := by
  cases key <;> rfl

/-- A key that is set is also set where nothing is said about the log. -/
theorem give_quiet (h : options.give key word = .ok next) :
    options.quiet.give key word = .ok next.quiet := by
  unfold give at h ⊢
  rw [isGiven_quiet, assign_quiet]
  split_ifs at h ⊢
  rw [h]
  rfl

end Options

namespace Reading

variable {level other : Level} {reading next done : Reading} {key : Key} {value word : String}
  {loud : Nat}

/-- Ask for more of the log some times. -/
def louder : Nat → Reading → Except Stop Reading
  | 0, reading => .ok reading
  | loud + 1, reading => do louder loud (← reading.turn .program .verbose)

/-- What asks for more of the log does the same at every level. -/
theorem turn_verbose (level : Level) (reading : Reading) :
    reading.turn level .verbose = reading.turn .program .verbose := rfl

/-- The letters that ask for more of the log are read before the others. -/
theorem readLetters_louder (hlevel : level ≠ .help) (word : String) (loud : Nat)
    (rest : List Char) (reading : Reading) :
    reading.readLetters level word (List.replicate loud Switch.verbose.letter ++ rest) = (do
      readLetters level word (← reading.louder loud) rest) := by
  induction loud generalizing reading with
  | zero => rfl
  | succ loud ih =>
    rw [List.replicate_succ, List.cons_append, readLetters, Level.lettered?_verbose hlevel]
    simp only [turn_verbose level, louder]
    cases reading.turn .program .verbose with
    | error stop => rfl
    | ok turned => exact ih turned

/-- Letters after one dash are read from the left; the first ones ask for more of the log. -/
theorem readWord_cluster (hlevel : level ≠ .help) (hopen : reading.closed = false) {first : Char}
    {rest others : List Char}
    (hletters : List.replicate loud Switch.verbose.letter ++ rest = first :: others)
    (hfirst : first ≠ '-') :
    reading.readWord level (cluster loud rest) = (do
      readLetters level (cluster loud rest) (← reading.louder loud) rest) := by
  simp only [readWord, hopen, Shape.ofWord_cluster hletters hfirst]
  rw [← hletters, if_neg (by decide), readLetters_louder hlevel]

/-- A word that asks for more of the log does so. -/
theorem readWord_asks (hlevel : level ≠ .help) (hopen : reading.closed = false)
    (h : Asks loud word) : reading.readWord level word = reading.louder loud := by
  cases h with
  | named =>
    have hshape : Shape.ofWord ("--" ++ Switch.verbose.name) = .long Switch.verbose.name none :=
      Shape.ofWord_named (by decide) (by decide)
    simp only [readWord, hopen, hshape, Level.named?_verbose hlevel, turn_verbose level, louder]
    cases reading.turn .program .verbose <;> rfl
  | lettered loud =>
    have hletters : List.replicate (loud + 1) Switch.verbose.letter ++ [] =
        Switch.verbose.letter :: (List.replicate loud Switch.verbose.letter ++ []) := rfl
    rw [readWord_cluster hlevel hopen hletters (by decide)]
    cases reading.louder (loud + 1) <;> rfl

/-- The letter of a key follows those that ask for more of the log, and all of them are letters. -/
theorem exists_letters {letter : Char} (hletter : key.letter? = some letter) (loud : Nat)
    (rest : List Char) : ∃ first others,
      List.replicate loud Switch.verbose.letter ++ letter :: rest = first :: others ∧
        first ≠ '-' := by
  cases loud with
  | zero => exact ⟨letter, rest, rfl, Level.letter_ne_dash hletter⟩
  | succ loud => exact ⟨_, _, rfl, by decide⟩

/-- A word that names a key waits for its value. -/
theorem readWord_names (hlevel : level ≠ .help) (hkey : key ∈ level.keys)
    (hopen : reading.closed = false) (h : Names key loud word) :
    reading.readWord level word = (do (← reading.louder loud).await key) := by
  cases h with
  | named =>
    have hne : key.name ≠ "" := by cases key <;> decide
    simp only [readWord, hopen, Shape.ofWord_named key.equals_notMem_name hne,
      Level.named?_name hkey]
    rfl
  | @lettered letter hletter loud =>
    obtain ⟨first, others, hletters, hfirst⟩ := exists_letters hletter loud []
    rw [readWord_cluster hlevel hopen hletters hfirst]
    simp only [readLetters, Level.lettered?_letter hkey hletter]

/-- A word that gives a key its value gives it. -/
theorem readWord_attaches (hlevel : level ≠ .help) (hkey : key ∈ level.keys)
    (hopen : reading.closed = false) (h : Attaches key value loud word) :
    reading.readWord level word = (do (← reading.louder loud).giveAttached key value) := by
  cases h with
  | named =>
    rw [readWord_attached hopen hkey]
    rfl
  | @equals letter hletter loud =>
    obtain ⟨first, others, hletters, hfirst⟩ :=
      exists_letters hletter loud ('=' :: value.toList)
    rw [readWord_cluster hlevel hopen hletters hfirst]
    simp only [readLetters, Level.lettered?_letter hkey hletter, String.ofList_toList]
  | @lettered letter begun others hletter hvalue hbegun loud =>
    obtain ⟨first, others', hletters, hfirst⟩ := exists_letters hletter loud value.toList
    rw [readWord_cluster hlevel hopen hletters hfirst]
    simp only [readLetters, Level.lettered?_letter hkey hletter]
    split
    · next hnil =>
      rw [hvalue] at hnil
      cases hnil
    · next hequals =>
      rw [hvalue] at hequals
      exact absurd (List.cons.inj hequals).1 hbegun
    · rw [String.ofList_toList]

/-! ## What a word leaves -/

/-- A reading that can go on with an option. -/
structure Ready (reading : Reading) : Prop where
  /-- No two dashes have been read. -/
  undivided : reading.closed = false
  /-- No key waits for its value. -/
  unawaited : ∀ key, reading.pending ≠ .awaited key

theorem start_ready : start.Ready := ⟨rfl, by simp [start]⟩

/-- Reading the value that has not been read yet sets options and nothing else. -/
theorem settle_cases (h : reading.settle = .ok next) :
    next.pending = .nothing ∧ next.closed = reading.closed := by
  unfold settle at h
  split at h
  · next hnothing =>
    cases h
    exact ⟨hnothing, rfl⟩
  · cases h
  · split at h
    · cases h
      exact ⟨rfl, rfl⟩
    · cases h

/-- With no value left to read there is nothing to do. -/
theorem settle_nothing (hpending : reading.pending = .nothing) :
    reading.settle = .ok reading := by
  simp only [settle, hpending]

/-- Asking for more of the log reads the value before it and sets this option. -/
theorem turn_cases (h : reading.turn level .verbose = .ok next) :
    (∃ settled, reading.settle = .ok settled ∧
      settled.options.giveVerbose = .ok next.options) ∧
    next.pending = .nothing ∧ next.closed = reading.closed := by
  obtain ⟨settled, hsettle, hgive⟩ := ok_of_bind h
  dsimp only at hgive
  split at hgive
  · next options hoptions =>
    cases hgive
    obtain ⟨hpending, hclosed⟩ := settle_cases hsettle
    exact ⟨⟨settled, hsettle, hoptions⟩, hpending, hclosed⟩
  · cases hgive

/-- A key with its value in the same word reads the value before it and sets its own. -/
theorem giveAttached_cases (h : reading.giveAttached key value = .ok next) :
    (∃ settled, reading.settle = .ok settled ∧
      settled.options.give key value = .ok next.options) ∧
    next.pending = .nothing ∧ next.closed = reading.closed := by
  obtain ⟨settled, hsettle, hgive⟩ := ok_of_bind h
  split at hgive
  · next options hoptions =>
    cases hgive
    obtain ⟨hpending, hclosed⟩ := settle_cases hsettle
    exact ⟨⟨settled, hsettle, hoptions⟩, hpending, hclosed⟩
  · cases hgive

/-- A key whose value is to come reads the value before it. -/
theorem await_cases (h : reading.await key = .ok next) :
    (∃ settled, reading.settle = .ok settled ∧ next.options = settled.options) ∧
    next.pending = .awaited key ∧ next.closed = reading.closed ∧ next.begun = true := by
  obtain ⟨settled, hsettle, hnext⟩ := ok_of_bind h
  cases hnext
  exact ⟨⟨settled, hsettle, rfl⟩, rfl, (settle_cases hsettle).2, rfl⟩

/-- The value that a key has been waiting for is set when it is read. -/
theorem settle_held (hpending : reading.pending = .held key value)
    (h : reading.settle = .ok next) : reading.options.give key value = .ok next.options := by
  unfold settle at h
  split at h
  · next heq => simp [hpending] at heq
  · cases h
  · next heq =>
    rw [hpending] at heq
    cases heq
    split at h
    · next options hoptions =>
      cases h
      exact hoptions
    · cases h

/-- The value that has not been read yet does not depend on two dashes after it. -/
theorem settle_closed (h : settle { reading with closed := true } = .ok next) :
    ∃ settled, reading.settle = .ok settled ∧ next.options = settled.options := by
  unfold settle at h
  split at h
  · next hnothing =>
    cases h
    have hpending : reading.pending = .nothing := hnothing
    exact ⟨reading, settle_nothing hpending, rfl⟩
  · cases h
  · next key word hheld =>
    have hpending : reading.pending = .held key word := hheld
    split at h
    · next options hoptions =>
      cases h
      exact ⟨{ reading with options := options, pending := .nothing },
        by simp only [settle, hpending, hoptions], rfl⟩
    · cases h

/-- With no value left to read and no two dashes read, an option can follow. -/
theorem ready_of_pending (hpending : reading.pending = .nothing)
    (hopen : reading.closed = false) : reading.Ready :=
  ⟨hopen, fun key hawaited => by simp [hpending] at hawaited⟩

/-- After asking for more of the log an option can follow. -/
theorem Ready.turn (hready : reading.Ready) (h : reading.turn level .verbose = .ok next) :
    next.Ready := by
  obtain ⟨-, hpending, hclosed⟩ := turn_cases h
  exact ready_of_pending hpending (hclosed.trans hready.undivided)

/-- After asking for more of the log some times an option can follow. -/
theorem Ready.louder (hready : reading.Ready) (h : reading.louder loud = .ok next) :
    next.Ready := by
  induction loud generalizing reading with
  | zero =>
    cases h
    exact hready
  | succ loud ih =>
    obtain ⟨turned, hturn, hrest⟩ := ok_of_bind h
    exact ih (hready.turn hturn) hrest

/-- After a key with its value an option can follow. -/
theorem Ready.giveAttached (hready : reading.Ready)
    (h : reading.giveAttached key value = .ok next) : next.Ready := by
  obtain ⟨-, hpending, hclosed⟩ := giveAttached_cases h
  exact ready_of_pending hpending (hclosed.trans hready.undivided)

/-- A reading in which a key waits for the word that follows. -/
structure Awaits (reading : Reading) (key : Key) : Prop where
  /-- The key waits. -/
  awaited : reading.pending = .awaited key
  /-- No two dashes have been read. -/
  undivided : reading.closed = false
  /-- An option has been read. -/
  begun : reading.begun = true

/-- A key whose value is to come waits for it. -/
theorem Ready.await (hready : reading.Ready) (h : reading.await key = .ok next) :
    next.Awaits key := by
  obtain ⟨-, hpending, hclosed, hbegun⟩ := await_cases h
  exact ⟨hpending, hclosed.trans hready.undivided, hbegun⟩

/-- After the value that a key waits for an option can follow. -/
theorem Awaits.ready (h : reading.Awaits key) (value : String) :
    Ready { reading with pending := .held key value } :=
  ⟨h.undivided, fun _ => nofun⟩

/-! ## A value that looks like an option -/

/-- The words are refused at a level, at once or where the line ends. -/
def Refuses (level : Level) (reading : Reading) (words : List String) : Prop :=
  (∃ fault, reading.readWords level words = .error (.fault fault)) ∨
    ∃ read fault, reading.readWords level words = .ok (read, none) ∧
      read.settle = .error (.fault fault)

/-- A key that waits for its value is not settled. -/
theorem settle_awaited (hpending : reading.pending = .awaited key) :
    reading.settle = .error (.fault (.valueMissing key)) := by
  rw [settle, hpending]

/-- After two dashes no word is read. -/
theorem readWords_after (hclosed : reading.closed = true) (word : String) (rest : List String) :
    reading.readWords level (word :: rest) = .error (.fault (.unexpected word)) := by
  have hcommand : reading.command? level word = none := if_neg (by simp [hclosed])
  have hword : reading.readWord level word = .error (.fault (.unexpected word)) :=
    if_pos hclosed
  rw [readWords, hcommand, hword]
  rfl

/-- After two dashes a key waits for its value in vain. -/
theorem refuses_closed (hpending : reading.pending = .awaited key)
    (hclosed : reading.closed = true) (words : List String) : Refuses level reading words := by
  cases words with
  | nil => exact .inr ⟨reading, _, rfl, settle_awaited hpending⟩
  | cons word rest => exact .inl ⟨.unexpected word, readWords_after hclosed word rest⟩

/-- A value in a word of its own that looks like an option is read as one, and its key has no
value then. -/
theorem Awaits.refuses (h : reading.Awaits key) (hvalue : Shape.ofWord value ≠ .plain)
    (rest : List String) : Refuses level reading (value :: rest) := by
  have hcommand : reading.command? level value = none := if_neg (by simp [h.begun])
  have hsettle := settle_awaited h.awaited
  suffices hword : (∃ fault, reading.readWord level value = .error (.fault fault)) ∨
      reading.readWord level value = .ok { reading with closed := true } by
    rcases hword with ⟨fault, hword⟩ | hword
    · refine .inl ⟨fault, ?_⟩
      rw [readWords, hcommand, hword]
      rfl
    · let closing : Reading := { reading with closed := true }
      have hawaited : closing.pending = .awaited key := h.awaited
      have hrest : Refuses level closing rest := refuses_closed hawaited rfl rest
      unfold Refuses at hrest ⊢
      rw [readWords, hcommand, hword]
      exact hrest
  simp only [readWord, h.undivided]
  rw [if_neg (by decide)]
  cases hshape : Shape.ofWord value with
  | plain => exact absurd hshape hvalue
  | dashes => exact .inr rfl
  | long name attached =>
    left
    dsimp only
    split
    · exact ⟨_, by rw [giveAttached, hsettle]; rfl⟩
    · exact ⟨_, by rw [await, hsettle]; rfl⟩
    · exact ⟨_, by rw [turn, hsettle]; rfl⟩
    · exact ⟨_, rfl⟩
  | letters cs =>
    left
    obtain ⟨first, others, rfl⟩ := List.exists_cons_of_ne_nil (Shape.letters_ne_nil hshape)
    dsimp only
    rw [readLetters]
    split
    · exact ⟨_, rfl⟩
    · exact ⟨_, by rw [turn, hsettle]; rfl⟩
    · split
      · exact ⟨_, by rw [await, hsettle]; rfl⟩
      · exact ⟨_, by rw [giveAttached, hsettle]; rfl⟩
      · exact ⟨_, by rw [giveAttached, hsettle]; rfl⟩

/-! ## Words in turn -/

/-- A value that does not look like an option is held until the next option comes. -/
theorem Awaits.readWords (h : reading.Awaits key) (hvalue : Shape.ofWord value = .plain)
    (rest : List String) :
    reading.readWords level (value :: rest) =
      Reading.readWords level { reading with pending := .held key value } rest := by
  have hcommand : reading.command? level value = none := if_neg (by simp [h.begun])
  have hword : reading.readWord level value = .ok { reading with pending := .held key value } := by
    simp only [readWord, h.undivided, hvalue, h.awaited]
    rfl
  rw [Reading.readWords, hcommand, hword]
  rfl

/-- A word that begins with a dash is read as no command. -/
theorem readWords_dash {cs : List Char} (hword : word.toList = '-' :: cs) (rest : List String) :
    reading.readWords level (word :: rest) =
      (reading.readWord level word >>= fun next => next.readWords level rest) := by
  have hcommand : reading.command? level word = none := by
    unfold command?
    split
    · exact Level.ofName?_dash hword
    · rfl
  rw [readWords, hcommand]

/-- Two dashes end the options. -/
theorem readWords_closed (hready : reading.Ready) :
    reading.readWords level ["--"] = .ok ({ reading with closed := true }, none) := by
  have hword : ("--" : String).toList = ['-', '-'] := rfl
  have hshape : Shape.ofWord "--" = .dashes := rfl
  rw [readWords_dash hword]
  simp only [readWord, hready.undivided, hshape]
  rfl

/-- What asks for more of the log does so, and then the other words are read. -/
theorem readWords_asks (hlevel : level ≠ .help) (hready : reading.Ready) (h : Asks loud word)
    (rest : List String) :
    reading.readWords level (word :: rest) =
      (reading.louder loud >>= fun next => next.readWords level rest) := by
  obtain ⟨cs, hdash⟩ := h.dash
  rw [readWords_dash hdash, readWord_asks hlevel hready.undivided h]

/-- What gives a key its value does so, and then the other words are read. -/
theorem readWords_attaches (hlevel : level ≠ .help) (hkey : key ∈ level.keys)
    (hready : reading.Ready) (h : Attaches key value loud word) (rest : List String) :
    reading.readWords level (word :: rest) =
      ((reading.louder loud >>= fun louder => louder.giveAttached key value) >>=
        fun next => next.readWords level rest) := by
  obtain ⟨cs, hdash⟩ := h.dash
  rw [readWords_dash hdash, readWord_attaches hlevel hkey hready.undivided h]

/-- What names a key waits for its value among the other words. -/
theorem readWords_names (hlevel : level ≠ .help) (hkey : key ∈ level.keys)
    (hready : reading.Ready) (h : Names key loud word) (rest : List String) :
    reading.readWords level (word :: rest) =
      ((reading.louder loud >>= fun louder => louder.await key) >>=
        fun next => next.readWords level rest) := by
  obtain ⟨cs, hdash⟩ := h.dash
  rw [readWords_dash hdash, readWord_names hlevel hkey hready.undivided h]

/-! ## What the words give -/

/-- What is set by asking for more of the log is what was set before. -/
theorem quiet_louder (h : reading.louder loud = .ok next) (hnext : next.settle = .ok done) :
    ∃ settled, reading.settle = .ok settled ∧ done.options.quiet = settled.options.quiet := by
  induction loud generalizing reading with
  | zero =>
    cases h
    exact ⟨done, hnext, rfl⟩
  | succ loud ih =>
    obtain ⟨turned, hturn, hrest⟩ := ok_of_bind h
    obtain ⟨⟨settled, hsettle, hverbose⟩, hpending, -⟩ := turn_cases hturn
    obtain ⟨same, hsame, hquiet⟩ := ih hrest
    obtain rfl : turned = same := Except.ok.inj ((settle_nothing hpending).symm.trans hsame)
    exact ⟨settled, hsettle, hquiet.trans (Options.quiet_giveVerbose hverbose)⟩

/-- Words that give values to keys of a level give them one after another, if they are not
refused. -/
theorem give_of_spells {keys : List Key} {given : List (Key × String)} {words : List String}
    (hlevel : level ≠ .help) (hkeys : ∀ key ∈ keys, key ∈ level.keys) (h : Spells keys given words)
    (hready : reading.Ready) (hread : reading.readWords level words = .ok (next, none))
    (hdone : next.settle = .ok done) : ∃ settled, reading.settle = .ok settled ∧
      settled.options.quiet.giveAll given = .ok done.options.quiet := by
  -- a value that is held is set only with the next option, so what a reading has been given is
  -- what it holds once it is settled
  induction h generalizing reading with
  | nil =>
    cases hread
    exact ⟨done, hdone, rfl⟩
  | closed =>
    rw [readWords_closed hready] at hread
    cases hread
    obtain ⟨settled, hsettled, hoptions⟩ := settle_closed hdone
    exact ⟨settled, hsettled, by rw [hoptions]; rfl⟩
  | @loud loud word given rest hword hrest ih =>
    rw [readWords_asks hlevel hready hword rest] at hread
    obtain ⟨louder, hlouder, hread⟩ := ok_of_bind hread
    obtain ⟨settled, hsettled, hgive⟩ := ih (hready.louder hlouder) hread
    obtain ⟨first, hfirst, hquiet⟩ := quiet_louder hlouder hsettled
    exact ⟨first, hfirst, hquiet ▸ hgive⟩
  | @attached key value word loud given rest hkey hword hrest ih =>
    rw [readWords_attaches hlevel (hkeys key hkey) hready hword rest] at hread
    obtain ⟨taken, htaken, hread⟩ := ok_of_bind hread
    obtain ⟨louder, hlouder, htaken⟩ := ok_of_bind htaken
    obtain ⟨settled, hsettled, hgive⟩ :=
      ih ((hready.louder hlouder).giveAttached htaken) hread
    obtain ⟨⟨middle, hmiddle, hoptions⟩, hpending, -⟩ := giveAttached_cases htaken
    obtain rfl : taken = settled :=
      Except.ok.inj ((settle_nothing hpending).symm.trans hsettled)
    obtain ⟨first, hfirst, hquiet⟩ := quiet_louder hlouder hmiddle
    refine ⟨first, hfirst, ?_⟩
    rw [← hquiet, Options.giveAll_cons (Options.give_quiet hoptions)]
    exact hgive
  | @detached key value word loud given rest hkey hword hrest ih =>
    rw [readWords_names hlevel (hkeys key hkey) hready hword] at hread
    obtain ⟨waiting, hwaiting, hread⟩ := ok_of_bind hread
    obtain ⟨louder, hlouder, hawait⟩ := ok_of_bind hwaiting
    have hawaits := (hready.louder hlouder).await hawait
    by_cases hvalue : Shape.ofWord value = .plain
    · rw [hawaits.readWords hvalue] at hread
      obtain ⟨settled, hsettled, hgive⟩ := ih (hawaits.ready value) hread
      obtain ⟨⟨middle, hmiddle, hoptions⟩, -⟩ := await_cases hawait
      obtain ⟨first, hfirst, hquiet⟩ := quiet_louder hlouder hmiddle
      have hheld := settle_held rfl hsettled
      rw [hoptions] at hheld
      refine ⟨first, hfirst, ?_⟩
      rw [← hquiet, Options.giveAll_cons (Options.give_quiet hheld)]
      exact hgive
    · rcases hawaits.refuses hvalue rest with ⟨fault, hfault⟩ | ⟨read, fault, hok, hfault⟩
      · rw [hfault] at hread
        cases hread
      · rw [hok] at hread
        cases hread
        rw [hfault] at hdone
        cases hdone

end Reading

end FlameFold.CommandLine
