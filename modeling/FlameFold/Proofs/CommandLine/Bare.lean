import FlameFold.Proofs.CommandLine.Layers
import FlameFold.Proofs.CommandLine.Running

/-!
# The program without a command

The program itself has the options of the command that converts recordings, and does the same with
them. With the command, though, what the environment gives to the program itself is read as well,
with none of the options that follow the command; a path that is empty there is a fault, even if
an option takes its place.
-/

namespace FlameFold.CommandLine

/-! ## The words of two levels -/

namespace Reading

variable {level other : Level} {reading next : Reading} {key : Key} {value word : String}

/-- A step that is not done is not done for a fault, and not because help or the version is asked
for. -/
def Faults {α : Type} (step : Except Stop α) : Prop :=
  ∀ stop, step = .error stop → ∃ fault, stop = .fault fault

theorem ok_faults {α : Type} (result : α) : Faults (.ok result : Except Stop α) := by
  intro stop hstop
  cases hstop

theorem Faults.bind {α β : Type} {first : Except Stop α} {next : α → Except Stop β}
    (hfirst : Faults first) (hnext : ∀ result, Faults (next result)) : Faults (first >>= next) := by
  intro stop hstop
  cases first with
  | error found =>
    cases hstop
    exact hfirst _ rfl
  | ok result => exact hnext result stop hstop

theorem settle_faults (reading : Reading) : Faults reading.settle := by
  intro stop hstop
  unfold settle at hstop
  split at hstop
  · cases hstop
  · cases hstop
    exact ⟨_, rfl⟩
  · split at hstop
    · cases hstop
    · cases hstop
      exact ⟨_, rfl⟩

theorem await_faults (reading : Reading) (key : Key) : Faults (reading.await key) :=
  (settle_faults reading).bind fun _ => ok_faults _

theorem giveAttached_faults (reading : Reading) (key : Key) (value : String) :
    Faults (reading.giveAttached key value) := by
  refine (settle_faults reading).bind fun settled stop hstop => ?_
  split at hstop
  · cases hstop
  · cases hstop
    exact ⟨_, rfl⟩

theorem turn_faults (reading : Reading) : Faults (reading.turn .program .verbose) := by
  refine (settle_faults reading).bind fun settled stop hstop => ?_
  dsimp only at hstop
  split at hstop
  · cases hstop
  · cases hstop
    exact ⟨_, rfl⟩

theorem louder_faults (loud : Nat) (reading : Reading) : Faults (reading.louder loud) := by
  induction loud generalizing reading with
  | zero => exact ok_faults reading
  | succ loud ih => exact (turn_faults reading).bind fun turned => ih turned

/-- Two levels read the words alike, or both refuse them. -/
def Agree (level other : Level) (reading : Reading) (words : List String) : Prop :=
  (∃ read, reading.readWords level words = .ok (read, none) ∧
    reading.readWords other words = .ok (read, none)) ∨
  Refuses level reading words ∧ Refuses other reading words

/-- Levels that take the same step agree if they agree after it. -/
theorem Agree.step {step : Except Stop Reading} {words rest : List String} (hfaults : Faults step)
    (hlevel : reading.readWords level words = (step >>= fun next => next.readWords level rest))
    (hother : reading.readWords other words = (step >>= fun next => next.readWords other rest))
    (hrest : ∀ next, step = .ok next → Agree level other next rest) :
    Agree level other reading words := by
  cases hstep : step with
  | error stop =>
    obtain ⟨fault, rfl⟩ := hfaults stop hstep
    rw [hstep] at hlevel hother
    exact .inr ⟨.inl ⟨fault, hlevel⟩, .inl ⟨fault, hother⟩⟩
  | ok next =>
    rw [hstep] at hlevel hother
    have hagree := hrest next hstep
    unfold Agree Refuses at hagree ⊢
    rw [hlevel, hother]
    exact hagree

/-- Levels with the same keys read the words for them alike, or both refuse them. -/
theorem agree_of_spells {keys : List Key} {given : List (Key × String)} {words : List String}
    (hlevel : level ≠ .help) (hother : other ≠ .help) (hkeys : ∀ key ∈ keys, key ∈ level.keys)
    (hotherKeys : ∀ key ∈ keys, key ∈ other.keys) (h : Spells keys given words)
    (hready : reading.Ready) : Agree level other reading words := by
  induction h generalizing reading with
  | nil => exact .inl ⟨reading, rfl, rfl⟩
  | closed => exact .inl ⟨_, readWords_closed hready, readWords_closed hready⟩
  | @loud loud word given rest hword hrest ih =>
    exact .step (louder_faults loud reading) (readWords_asks hlevel hready hword rest)
      (readWords_asks hother hready hword rest) fun next hnext => ih (hready.louder hnext)
  | @attached key value word loud given rest hkey hword hrest ih =>
    refine .step ((louder_faults loud reading).bind fun louder => giveAttached_faults louder _ _)
      (readWords_attaches hlevel (hkeys key hkey) hready hword rest)
      (readWords_attaches hother (hotherKeys key hkey) hready hword rest) fun next hnext => ?_
    obtain ⟨louder, hlouder, hgive⟩ := ok_of_bind hnext
    exact ih ((hready.louder hlouder).giveAttached hgive)
  | @detached key value word loud given rest hkey hword hrest ih =>
    refine .step ((louder_faults loud reading).bind fun louder => await_faults louder _)
      (readWords_names hlevel (hkeys key hkey) hready hword _)
      (readWords_names hother (hotherKeys key hkey) hready hword _) fun next hnext => ?_
    obtain ⟨louder, hlouder, hawait⟩ := ok_of_bind hnext
    have hawaits := (hready.louder hlouder).await hawait
    by_cases hvalue : Shape.ofWord value = .plain
    · have hheld := ih (hawaits.ready value)
      unfold Agree Refuses at hheld ⊢
      rw [hawaits.readWords hvalue, hawaits.readWords hvalue]
      exact hheld
    · exact .inr ⟨hawaits.refuses hvalue rest, hawaits.refuses hvalue rest⟩

end Reading

/-! ## Command lines -/

/-- The command line is refused for a fault. -/
def Refused (environment : Environment) (line : List String) : Prop :=
  ∃ fault, Request.parse environment line = .error (.fault fault)

variable {environment : Environment} {level : Level} {given : List (Key × String)}
  {words line : List String} {read : Reading} {around : Surroundings} {files : FileSystem}

/-- A refused command line does nothing. -/
theorem run_refused (h : Refused around.environment line) (files : FileSystem) :
    (run around files line).code = 2 ∧ (run around files line).printed = [] ∧
      (run around files line).files = withInput around.input files := by
  obtain ⟨fault, hfault⟩ := h
  simp only [run, hfault, answerStop, and_self]

/-- A reading is finished but for a fault. -/
theorem finish_faults (level : Level) (environment : Environment) (read : Reading) :
    Reading.Faults (Request.finish level environment read) := by
  refine (Reading.settle_faults read).bind fun settled stop hstop => ?_
  split at hstop
  · cases hstop
  · cases hstop
    exact ⟨_, rfl⟩

/-- Words that the program itself reads to their end are refused if they cannot be finished. -/
theorem refused_iff (hread : Reading.start.readWords .program words = .ok (read, none)) :
    Refused environment words ↔
      ∃ fault, Request.finish .program environment read = .error (.fault fault) := by
  have hparse : Request.parse environment words = (do
      return ⟨.program, ← Request.finish .program environment read⟩) := by
    rw [Request.parse, hread]
    rfl
  unfold Refused
  rw [hparse]
  cases Request.finish .program environment read with
  | error stop => simp [bind, Except.bind]
  | ok options => simp [bind, Except.bind, pure, Except.pure]

/-- Words that the program itself refuses are refused. -/
theorem refused_of_refuses (h : Reading.Refuses .program .start words) :
    Refused environment words := by
  rcases h with ⟨fault, hfault⟩ | ⟨read, fault, hread, hsettle⟩
  · exact ⟨fault, by rw [Request.parse, hfault]; rfl⟩
  · exact (refused_iff hread).mpr ⟨fault, by rw [Request.finish, hsettle]; rfl⟩

/-- Words that a command refuses are not taken. -/
theorem ofCommand_of_refuses (h : Reading.Refuses level .start words) :
    ∃ fault, Request.ofCommand environment level words = .error (.fault fault) := by
  rcases h with ⟨fault, hfault⟩ | ⟨read, fault, hread, hsettle⟩
  · exact ⟨fault, by rw [Request.ofCommand, hfault]; rfl⟩
  · refine ⟨fault, ?_⟩
    rw [Request.ofCommand, hread]
    simp only [Request.finish, hsettle, bind, Except.bind]

/-- Words of a command that are spelled are taken but for a fault. -/
theorem ofCommand_faults (hlevel : level ≠ .help) (hspells : Spells level.keys given words) :
    Reading.Faults (Request.ofCommand environment level words) := by
  rcases Reading.agree_of_spells hlevel hlevel (fun _ hkey => hkey) (fun _ hkey => hkey) hspells
    Reading.start_ready with ⟨read, hread, -⟩ | ⟨hrefuses, -⟩
  · rw [Request.ofCommand, hread]
    exact (finish_faults level environment read).bind fun options => Reading.ok_faults _
  · obtain ⟨fault, hfault⟩ := ofCommand_of_refuses hrefuses
    rintro stop hstop
    rw [hfault] at hstop
    cases hstop
    exact ⟨fault, rfl⟩

/-- The options of a level with settings are finished unless the environment has an empty path for
a key that is not given. -/
theorem finish_error (hlevel : level ∈ settingLevels) {done : Reading}
    (hdone : read.settle = .ok done) :
    (∃ fault, Request.finish level environment read = .error (.fault fault)) ↔
      ∃ key ∈ level.keys, key ∈ Options.environmentPaths ∧ done.options.isGiven key = false ∧
        environment.value? key = some "" := by
  rw [← Options.completeFrom_error, Request.finish, hdone]
  simp only [bind, Except.bind, complete_setting hlevel]
  cases done.options.completeFrom environment level.keys with
  | error fault => simp
  | ok options => simp

/-- A command that does not take its words is refused. -/
theorem refused_of_ofCommand {fault : Fault} (hlevel : level ∈ settingLevels)
    (hne : level ≠ .program)
    (h : Request.ofCommand environment level words = .error (.fault fault)) :
    Refused environment (level.line words) := by
  refine ⟨fault, ?_⟩
  unfold Level.line
  rw [if_neg hne, parse_name hlevel hne, h]
  rfl

/-- The program itself and the command have the same keys. -/
theorem agree_bare (hspells : Spells Level.convert.keys given words) :
    Reading.Agree .program .convert .start words :=
  Reading.agree_of_spells (by decide) (by decide) (fun _ hkey => hkey) (fun _ hkey => hkey) hspells
    Reading.start_ready

/-- Where no path in the environment is empty, words that are spelled do the same with the command
and without it, or are refused in both ways. -/
theorem run_bare (hspells : Spells Level.convert.keys given words)
    (hpaths : around.environment.NamesPaths) (files : FileSystem) :
    run around files words = run around files (Level.convert.line words) ∨
      Refused around.environment words ∧ Refused around.environment (Level.convert.line words) := by
  rcases agree_bare hspells with ⟨read, hbare, hnamed⟩ | ⟨hbare, hnamed⟩
  · have hsame : Request.finish .convert around.environment read =
        Request.finish .program around.environment read := rfl
    cases hfinish : Request.finish .program around.environment read with
    | error stop =>
      obtain ⟨fault, rfl⟩ := finish_faults _ _ _ stop hfinish
      have hcommand : Request.ofCommand around.environment .convert words =
          .error (.fault fault) := by
        rw [Request.ofCommand, hnamed]
        simp only [bind, Except.bind, hsame, hfinish]
      exact .inr ⟨(refused_iff hbare).mpr ⟨fault, hfinish⟩,
        refused_of_ofCommand (by decide) (by decide) hcommand⟩
    | ok options =>
      obtain ⟨started, hstarted⟩ := Request.finish_program hpaths
      have hprogram : Request.parse around.environment words = .ok ⟨.program, options⟩ := by
        rw [Request.parse, hbare]
        simp only [bind, Except.bind, hfinish]
        rfl
      have hconvert : Request.parse around.environment (Level.convert.line words) =
          .ok ⟨.convert, options⟩ := by
        rw [show Level.convert.line words = Level.convert.name :: words from rfl,
          parse_name (by decide) (by decide), Request.ofCommand, hnamed]
        simp only [bind, Except.bind, hsame, hfinish, hstarted]
        rfl
      rw [run_parsed hprogram, run_parsed hconvert]
      exact .inl rfl
  · obtain ⟨fault, hcommand⟩ := ofCommand_of_refuses hnamed
    exact .inr ⟨refused_of_refuses hbare, refused_of_ofCommand (by decide) (by decide) hcommand⟩

/-- Where a path in the environment is empty, words that are spelled are refused with the
command. -/
theorem refused_convert (hspells : Spells Level.convert.keys given words)
    (hpaths : ¬environment.NamesPaths) : Refused environment (Level.convert.line words) := by
  cases hcommand : Request.ofCommand environment .convert words with
  | error stop =>
    obtain ⟨fault, rfl⟩ := ofCommand_faults (by decide) hspells stop hcommand
    exact refused_of_ofCommand (by decide) (by decide) hcommand
  | ok request =>
    have hempty : ∃ key ∈ Options.environmentPaths, environment.value? key = some "" := by
      by_contra hnone
      exact hpaths ⟨fun hfile => hnone ⟨.settingsFile, by decide, hfile⟩,
        fun hroot => hnone ⟨.root, by decide, hroot⟩⟩
    obtain ⟨key, hkey, hvalue⟩ := hempty
    have hkeys : ∀ key ∈ Options.environmentPaths, key ∈ Level.program.keys ∧
        Options.empty.isGiven key = false := by decide
    have hstart : Reading.start.settle = .ok Reading.start := rfl
    obtain ⟨fault, hfault⟩ := (finish_error (by decide) hstart).mpr
      ⟨key, (hkeys key hkey).1, hkey, (hkeys key hkey).2, hvalue⟩
    refine ⟨fault, ?_⟩
    rw [show Level.convert.line words = Level.convert.name :: words from rfl,
      parse_name (by decide) (by decide), hcommand]
    simp only [bind, Except.bind, hfault]

/-- Without the command, words that are spelled are refused only if they are refused everywhere, or
a path in the environment is empty that they do not give. -/
theorem refused_bare (hspells : Spells Level.convert.keys given words) :
    Refused environment words ↔ (∀ elsewhere, Refused elsewhere words) ∨
      ∃ key ∈ Options.environmentPaths, environment.value? key = some "" ∧
        wordsFor given key = [] := by
  rcases agree_bare hspells with ⟨read, hread, hnamed⟩ | ⟨hrefuses, -⟩
  · cases hdone : read.settle with
    | error stop =>
      obtain ⟨fault, rfl⟩ := Reading.settle_faults read stop hdone
      have hall : ∀ elsewhere, Refused elsewhere words := fun elsewhere =>
        (refused_iff hread).mpr ⟨fault, by rw [Request.finish, hdone]; rfl⟩
      exact iff_of_true (hall environment) (.inl hall)
    | ok done =>
      obtain ⟨settled, hsettled, hgive⟩ := Reading.give_of_spells (by decide) (fun _ hkey => hkey)
        hspells Reading.start_ready hnamed hdone
      cases hsettled
      have hgiven : ∀ key ∈ Options.environmentPaths,
          done.options.isGiven key = !(wordsFor given key).isEmpty := by
        intro key hkey
        have hkeys : ∀ key ∈ Options.environmentPaths, key ∈ Level.settingKeys := by decide
        rw [← Options.isGiven_quiet]
        exact isGiven_eq (hkeys key hkey) (says_given (hkeys key hkey) hgive)
      have hpaths : ∀ key ∈ Options.environmentPaths, key ∈ Level.program.keys := by decide
      have hnowhere : ¬∀ elsewhere, Refused elsewhere words := by
        intro hall
        have hnone := hall []
        rw [refused_iff hread, finish_error (by decide) hdone] at hnone
        obtain ⟨key, -, hkey, -, hvalue⟩ := hnone
        cases key <;> cases hvalue
      rw [refused_iff hread, finish_error (by decide) hdone]
      constructor
      · rintro ⟨key, -, hkey, hfree, hvalue⟩
        rw [hgiven key hkey] at hfree
        exact .inr ⟨key, hkey, hvalue, by simpa using hfree⟩
      · rintro (hall | ⟨key, hkey, hvalue, hwords⟩)
        · exact absurd hall hnowhere
        · refine ⟨key, hpaths key hkey, hkey, ?_, hvalue⟩
          rw [hgiven key hkey, hwords]
          rfl
  · have hall : ∀ elsewhere, Refused elsewhere words := fun _ => refused_of_refuses hrefuses
    exact iff_of_true (hall environment) (.inl hall)

/-- Without a command the program does what the command that converts recordings does, with any
options and values: the exit code, what is printed and the files are the same, and so are the
complaints unless both command lines are refused. This is so where no path in the environment is
empty. Where one is, the line with the command is refused, and the one without it only if it does
not give this path itself or is refused everywhere. -/
theorem bare_converts (hspells : Spells Level.convert.keys given words) (around : Surroundings)
    (files : FileSystem) :
    (around.environment.NamesPaths →
      (run around files words).code = (run around files (Level.convert.line words)).code ∧
      (run around files words).printed = (run around files (Level.convert.line words)).printed ∧
      (run around files words).files = (run around files (Level.convert.line words)).files ∧
      ((run around files words).complaints =
          (run around files (Level.convert.line words)).complaints ∨
        Refused around.environment words ∧
          Refused around.environment (Level.convert.line words))) ∧
    (¬around.environment.NamesPaths →
      Refused around.environment (Level.convert.line words)) ∧
    (Refused around.environment words ↔ (∀ elsewhere, Refused elsewhere words) ∨
      ∃ key ∈ Options.environmentPaths, around.environment.value? key = some "" ∧
        wordsFor given key = []) := by
  refine ⟨fun hpaths => ?_, refused_convert hspells, refused_bare hspells⟩
  rcases run_bare hspells hpaths files with hsame | hrefused
  · rw [hsame]
    exact ⟨rfl, rfl, rfl, .inl rfl⟩
  · obtain ⟨hcode, hprinted, hfiles⟩ := run_refused hrefused.1 files
    obtain ⟨hcode', hprinted', hfiles'⟩ := run_refused hrefused.2 files
    exact ⟨hcode.trans hcode'.symm, hprinted.trans hprinted'.symm, hfiles.trans hfiles'.symm,
      .inr hrefused⟩

/-- Values that are the names of commands. -/
def namesakes : List (Key × String) := [(.title, "convert"), (.recording, "fold=config")]

/-- The words that give them. -/
def namesakeWords : List String := ["-v", "--title", "convert", "--recording", "fold=config"]

/-- A run in an environment, with no program to call. -/
def surroundedBy (environment : Environment) : Surroundings :=
  ⟨environment, [], "", .prepared []⟩

/-- With these words nothing is converted without a renderer, whether the command is named or
not. -/
theorem bare_converts_namesakes :
    Spells Level.convert.keys namesakes namesakeWords ∧
    (surroundedBy [("JFR_TOOL", "")]).environment.NamesPaths ∧
    (run (surroundedBy [("JFR_TOOL", "")]) ⟨[], []⟩ namesakeWords).code = 1 ∧
    (run (surroundedBy [("JFR_TOOL", "")]) ⟨[], []⟩
      (Level.convert.line namesakeWords)).code = 1 := by
  have hspells : Spells Level.convert.keys namesakes namesakeWords :=
    .loud (.lettered 0) (.detached (by decide) .named (.detached (by decide) .named .nil))
  have hpaths : (surroundedBy [("JFR_TOOL", "")]).environment.NamesPaths := by
    unfold Environment.NamesPaths
    decide
  have hbare : (run (surroundedBy [("JFR_TOOL", "")]) ⟨[], []⟩ namesakeWords).code = 1 := by
    decide +kernel
  obtain ⟨hsame, -, -⟩ := bare_converts hspells (surroundedBy [("JFR_TOOL", "")]) ⟨[], []⟩
  exact ⟨hspells, hpaths, hbare, (hsame hpaths).1 ▸ hbare⟩

/-- An empty root directory in the environment is a fault with the command, although the command
line gives another one. -/
theorem empty_root_not_converted :
    ¬∀ around files given words, Spells Level.convert.keys given words →
      (run around files words).code = (run around files (Level.convert.line words)).code := by
  intro h
  have hspells : Spells Level.convert.keys [(.root, ".")] ["--root=."] :=
    .attached (by decide) .named .nil
  let around := surroundedBy [("JFR_FLAMEGRAPH_ROOT", "")]
  have hsame := h around ⟨[], []⟩ _ _ hspells
  have hbare : (run around ⟨[], []⟩ ["--root=."]).code = 1 := by decide +kernel
  have hnamed : (run around ⟨[], []⟩ (Level.convert.line ["--root=."])).code = 2 := by
    decide +kernel
  rw [hbare, hnamed] at hsame
  cases hsame

end FlameFold.CommandLine
