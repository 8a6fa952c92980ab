import FlameFold.CommandLine.Request
import FlameFold.Proofs.Session.Step
import FlameFold.Proofs.Text.Pieces

/-!
# Words that give a value to a key

A key and its value may stand in one word, with an equals sign between them. Such a word is
read at once and says nothing but this, so the words of a command that are all of this kind
give their values one after another.
-/

namespace FlameFold.CommandLine

/-- A key with its value in one word. -/
def attached (key : Key) (value : String) : String := "--" ++ key.name ++ "=" ++ value

/-- The name of a key ends before the equals sign. -/
theorem Key.equals_notMem_name (key : Key) : '=' ∉ key.name.toList := by
  cases key <;> decide

/-- A level knows its keys by their names. -/
theorem Level.named?_name {level : Level} {key : Key} (h : key ∈ level.keys) :
    level.named? key.name = some (.key key) := by
  cases level <;> cases key <;> first | rfl | (exact absurd h (by decide))

/-- A word with a key and its value looks like what it is. -/
theorem Shape.ofWord_attached (key : Key) (value : String) :
    Shape.ofWord (attached key value) = .long key.name (some value) := by
  have hword : (attached key value).toList =
      '-' :: '-' :: (key.name.toList ++ '=' :: value.toList) := by
    simp [attached]
  rw [Shape.ofWord, hword]
  split
  · next hshort =>
    have hlength := congrArg List.length hshort
    simp at hlength
  · next cs _ hcs =>
    obtain rfl : _ = cs := by simpa using hcs
    simp only [Text.span_separator key.equals_notMem_name, String.ofList_toList]
  · next hdashes hletters =>
    obtain ⟨rfl, -⟩ := List.cons.inj (List.cons.inj hletters).2
    exact absurd rfl hdashes
  · next hother _ => exact (hother _ rfl).elim

namespace Reading

variable {level : Level} {reading : Reading}

/-- A word with a key of the level and its value gives the key this value. -/
theorem readWord_attached (hclosed : reading.closed = false) {key : Key}
    (hkey : key ∈ level.keys) (value : String) :
    reading.readWord level (attached key value) = reading.giveAttached key value := by
  simp only [readWord, hclosed, Shape.ofWord_attached, Level.named?_name hkey]
  rfl

/-- No word of a command is another command. -/
theorem command?_eq_none (hlevel : level ≠ .program) (word : String) :
    reading.command? level word = none :=
  if_neg fun h => hlevel h.1

/-- Giving a value leaves nothing behind that has not been read, and does not close the
options. -/
theorem giveAttached_ok {options : Options} (hpending : reading.pending = .nothing) {key : Key}
    {value : String} (h : reading.options.give key value = .ok options) :
    reading.giveAttached key value = .ok { reading with options := options, begun := true } := by
  simp only [giveAttached, settle, hpending, bind, Except.bind, h]

/-- Words that give values to keys of a command are all read, if each of the values is taken. -/
theorem readWords_attached (hlevel : level ≠ .program) {given : List (Key × String)}
    (hkeys : ∀ pair ∈ given, pair.1 ∈ level.keys) (hclosed : reading.closed = false)
    (hpending : reading.pending = .nothing) {options : Options}
    (h : given.foldlM (fun (options : Options) pair => options.give pair.1 pair.2)
      reading.options = .ok options) :
    ∃ read, reading.readWords level (given.map fun pair => attached pair.1 pair.2) =
        .ok (read, none) ∧ read.pending = .nothing ∧ read.options = options := by
  induction given generalizing reading with
  | nil => exact ⟨reading, rfl, hpending, Except.ok.inj h⟩
  | cons pair rest ih =>
    rw [List.foldlM_cons] at h
    cases hgive : reading.options.give pair.1 pair.2 with
    | error fault =>
      rw [hgive] at h
      cases h
    | ok given =>
      rw [hgive] at h
      have hrest : ∀ other ∈ rest, other.1 ∈ level.keys := fun other hother =>
        hkeys other (List.mem_cons_of_mem _ hother)
      let next : Reading := { reading with options := given, begun := true }
      have hopen : next.closed = false := hclosed
      have hsettled : next.pending = .nothing := hpending
      obtain ⟨read, hread, hdone⟩ := ih hrest hopen hsettled h
      refine ⟨read, ?_, hdone⟩
      rw [List.map_cons, readWords, command?_eq_none hlevel]
      simp only [readWord_attached hclosed (hkeys pair List.mem_cons_self),
        giveAttached_ok hpending hgive]
      exact hread

end Reading

/-- Where the environment names the settings file or the root directory, the name is not
empty. -/
def Environment.NamesPaths (environment : Environment) : Prop :=
  environment.value? .settingsFile ≠ some "" ∧ environment.value? .root ≠ some ""

namespace Options

variable {options next : Options} {environment : Environment} {key other : Key} {word : String}

/-- A key that is set is given. -/
theorem isGiven_assign (h : options.assign key word = .ok next) : next.isGiven key = true := by
  cases key <;> first
    | (obtain ⟨read, hread, rfl⟩ := ok_of_map h
       obtain ⟨result, -, hsome⟩ := ok_of_bind hread
       cases hsome
       rfl)
    | (obtain ⟨read, -, rfl⟩ := ok_of_map h
       simp [isGiven, override])
    | (cases h
       rfl)

/-- A key that is set does not give the others. -/
theorem isGiven_assign_ne (hne : other ≠ key) (h : options.assign key word = .ok next) :
    next.isGiven other = options.isGiven other := by
  cases key <;> first
    | (obtain ⟨read, -, rfl⟩ := ok_of_map h
       cases other <;> first | rfl | exact absurd rfl hne)
    | (cases h
       cases other <;> first | rfl | exact absurd rfl hne)

/-- The keys of paths that the environment can give. -/
def environmentPaths : List Key := [.settingsFile, .root]

/-- What the environment gives is taken but for an empty path. -/
theorem assign_environment_error (hword : environment.value? key = some word) (options : Options) :
    (∃ fault, options.assign key word = .error fault) ↔ key ∈ environmentPaths ∧ word = "" := by
  by_cases hkey : key ∈ environmentPaths
  · by_cases hempty : word = ""
    · subst hempty
      refine iff_of_true ⟨.valueMissing key, ?_⟩ ⟨hkey, rfl⟩
      cases key <;> first | rfl | exact absurd hkey (by decide)
    · refine iff_of_false ?_ fun h => hempty h.2
      have hpath : readPath key word = .ok ⟨word⟩ := if_neg (by simpa using hempty)
      rintro ⟨fault, hfault⟩
      cases key <;> first
        | exact absurd hkey (by decide)
        | (rw [assign, hpath] at hfault
           cases hfault)
  · refine iff_of_false ?_ fun h => hkey h.1
    rintro ⟨fault, hfault⟩
    cases key <;> first | exact absurd (by decide) hkey | cases hfault | cases hword

/-- Options cannot be completed exactly if the environment has an empty path for a key that is not
given. -/
theorem completeFrom_error (environment : Environment) (keys : List Key) (options : Options) :
    (∃ fault, options.completeFrom environment keys = .error fault) ↔
      ∃ key ∈ keys, key ∈ environmentPaths ∧ options.isGiven key = false ∧
        environment.value? key = some "" := by
  induction keys generalizing options with
  | nil => simp [completeFrom]
  | cons first rest ih =>
    rw [completeFrom]
    split
    · next word hword =>
      split_ifs at hword with hgiven
      have hassign := assign_environment_error hword options
      cases hassigned : options.assign first word with
      | error fault =>
        obtain ⟨hpath, rfl⟩ := hassign.mp ⟨fault, hassigned⟩
        refine iff_of_true ⟨fault, rfl⟩ ⟨first, List.mem_cons_self, hpath, ?_, hword⟩
        simpa using hgiven
      | ok middle =>
        refine (ih middle).trans (exists_congr fun key => ?_)
        by_cases hkey : key = first
        · subst hkey
          refine iff_of_false (fun h => ?_) fun h => ?_
          · rw [isGiven_assign hassigned] at h
            exact absurd h.2.2.1 (by decide)
          · obtain ⟨-, hpath, -, hempty⟩ := h
            obtain ⟨fault, hfault⟩ := hassign.mpr ⟨hpath, Option.some.inj (hword.symm.trans hempty)⟩
            rw [hassigned] at hfault
            cases hfault
        · rw [isGiven_assign_ne hkey hassigned, List.mem_cons]
          simp only [hkey, false_or]
    · next hnone =>
      refine (ih options).trans (exists_congr fun key => ?_)
      by_cases hkey : key = first
      · subst hkey
        refine iff_of_false (fun h => ?_) fun h => ?_ <;>
          · obtain ⟨-, -, hgiven, hempty⟩ := h
            simp [hgiven, hempty] at hnone
      · rw [List.mem_cons]
        simp only [hkey, false_or]

/-- Options can be completed from an environment that names no empty path. -/
theorem completeFrom_environment (h : environment.NamesPaths) (keys : List Key)
    (options : Options) : ∃ completed, completeFrom environment keys options = .ok completed := by
  cases hcompleted : completeFrom environment keys options with
  | ok completed => exact ⟨completed, rfl⟩
  | error fault =>
    obtain ⟨key, -, hkey, -, hempty⟩ :=
      (completeFrom_error environment keys options).mp ⟨fault, hcompleted⟩
    rcases List.mem_pair.mp hkey with rfl | rfl
    · exact absurd hempty h.1
    · exact absurd hempty h.2

end Options

/-- The program itself can do without any option. -/
theorem Request.finish_program {environment : Environment} (h : environment.NamesPaths) :
    ∃ options, finish .program environment .start = .ok options := by
  obtain ⟨completed, hcompleted⟩ := Options.completeFrom_environment h Level.program.keys .empty
  have hmissing : completed.missing? Level.program.keys = none := by
    simp [Options.missing?, Level.keys, Level.settingKeys, Key.isRequired]
  have hcomplete : Options.empty.complete .program environment = .ok completed := by
    simp only [Options.complete, hcompleted, bind, Except.bind, hmissing]
    rfl
  refine ⟨completed, ?_⟩
  simp only [finish, Reading.settle, Reading.start, bind, Except.bind, hcomplete]

/-- The keys of the command that folds a dump, with their values. -/
def foldGiven (input event : String) (output? : Option String) : List (Key × String) :=
  (.dumpInput, input) :: (.sampleEvent, event) ::
    (output?.map fun output => (Key.foldedOutput, output)).toList

/-- The words that fold a dump: where its text is, the event that begins a sample, and the file
for the stacks if they are not to be printed. -/
def foldWords (input event : String) (output? : Option String) : List String :=
  Level.fold.name :: (foldGiven input event output?).map fun pair => attached pair.1 pair.2

/-- What these words say. -/
def foldOptions (input event : String) (output? : Option String) : Options :=
  { Options.empty with
    dumpInput := some ⟨input⟩
    sampleEvent := some event
    foldedOutput := output?.map Path.mk }

/-- The values that these words give are taken, if the paths are not empty. -/
theorem give_foldGiven {input : String} {output? : Option String} (hinput : input ≠ "")
    (houtput : output? ≠ some "") (event : String) :
    (foldGiven input event output?).foldlM
      (fun (options : Options) pair => options.give pair.1 pair.2) Options.empty =
        .ok (foldOptions input event output?) := by
  have hpath : ∀ key word, word ≠ "" → Options.readPath key word = .ok ⟨word⟩ := fun key word hne =>
    if_neg (by simpa using hne)
  cases output? with
  | none =>
    simp [foldGiven, Options.give, Options.isGiven, Options.empty, Options.assign,
      hpath _ _ hinput, foldOptions, bind, Except.bind, Except.map, pure, Except.pure]
  | some output =>
    have hne : output ≠ "" := fun h => houtput (congrArg some h)
    simp [foldGiven, Options.give, Options.isGiven, Options.empty, Options.assign,
      hpath _ _ hinput, hpath _ _ hne, foldOptions, bind, Except.bind, Except.map, pure,
      Except.pure]

/-- A command line of these words asks to fold the dump. -/
theorem Request.parse_foldWords {environment : Environment} (h : environment.NamesPaths)
    {input : String} {output? : Option String} (hinput : input ≠ "") (houtput : output? ≠ some "")
    (event : String) :
    parse environment (foldWords input event output?) =
      .ok ⟨.fold, foldOptions input event output?⟩ := by
  have hkeys : ∀ pair ∈ foldGiven input event output?, pair.1 ∈ Level.fold.keys := by
    cases output? <;> simp [foldGiven, Level.keys]
  have hgiven : (foldGiven input event output?).foldlM
      (fun (options : Options) pair => options.give pair.1 pair.2) Reading.start.options =
        .ok (foldOptions input event output?) := give_foldGiven hinput houtput event
  have hlevel : Level.fold ≠ .program := by decide
  obtain ⟨read, hread, hpending, hoptions⟩ :=
    Reading.readWords_attached hlevel hkeys rfl rfl hgiven
  have hcommand : Reading.start.readWords .program (foldWords input event output?) =
      .ok (.start, some (.fold,
        (foldGiven input event output?).map fun pair => attached pair.1 pair.2)) := by
    have hname : Reading.start.command? .program Level.fold.name = some .fold := by decide
    simp only [foldWords, Reading.readWords, hname]
  have hcomplete : (foldOptions input event output?).complete .fold environment =
      .ok (foldOptions input event output?) := by
    cases output? <;> rfl
  have hfinish : finish .fold environment read = .ok (foldOptions input event output?) := by
    simp only [finish, Reading.settle, hpending, hoptions, bind, Except.bind, hcomplete]
  have hrequest : ofCommand environment .fold
      ((foldGiven input event output?).map fun pair => attached pair.1 pair.2) =
        .ok ⟨.fold, foldOptions input event output?⟩ := by
    simp only [ofCommand, hread, bind, Except.bind, hfinish]
    rfl
  obtain ⟨options, hprogram⟩ := finish_program h
  simp only [parse, hcommand, bind, Except.bind, hrequest, hprogram]
  rfl

end FlameFold.CommandLine
