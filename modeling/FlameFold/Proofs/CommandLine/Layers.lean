import FlameFold.Proofs.CommandLine.Accepting
import FlameFold.Proofs.Settings.Layers

/-!
# Where the settings of a run come from

What the command line gives lies over what the environment gives, this over the settings file,
and the file over the standard settings. Each field is found on its own, and the recordings as a
whole. A settings file that cannot be read, or gives no settings, is a failure whatever lies over
it.
-/

namespace FlameFold.CommandLine

open Settings (Layered Filed)

/-- The words that are given to a key, in their order. -/
def wordsFor (given : List (Key × String)) (key : Key) : List String :=
  (given.filter fun pair => pair.1 = key).map Prod.snd

/-- What overrides say of a key is what some words say. A key that sets nothing in the settings
has nothing to say here. -/
def Says (overrides : Settings.Overrides) (words : List String) : Key → Prop
  | .settingsFile => overrides.file = words.head?.map Path.mk
  | .root => overrides.root = words.head?.map Path.mk
  | .outputDirectory => overrides.outputDirectory = words.head?.map Path.mk
  | .renderer => overrides.rendererScript = words.head?.map Path.mk
  | .dumpTool => overrides.dumpTool = words.head?
  | .event => overrides.event = words.head?
  | .stackDepth => overrides.stackDepth.map .ok = words.head?.map Options.readDepth
  | .title => overrides.title = words.head?
  | .timeout => overrides.timeoutSeconds.map .ok = words.head?.map Options.readSeconds
  | .recording => overrides.recordings.map .ok = words.map Recording.ofSpec
  | _ => True

variable {options next : Options} {given : List (Key × String)} {key other : Key} {word : String}
  {words : List String}

/-- A path is read as it stands. -/
theorem readPath_ok {p : Path} (h : Options.readPath key word = .ok p) : p = ⟨word⟩ := by
  unfold Options.readPath at h
  split at h
  · cases h
  · exact (Except.ok.inj h).symm

/-- A recording is read as its text says. -/
theorem readRecording_ok {recording : Recording} (h : Options.readRecording word = .ok recording) :
    Recording.ofSpec word = .ok recording := by
  unfold Options.readRecording at h
  cases hread : Recording.ofSpec word with
  | error fault =>
    rw [hread] at h
    cases h
  | ok read =>
    rw [hread] at h
    cases h
    rfl

/-- A key that is set says nothing of the others. -/
theorem says_assign_ne (hne : other ≠ key) (h : options.assign key word = .ok next) :
    Says next.overrides words other ↔ Says options.overrides words other := by
  cases key <;> first
    | (obtain ⟨read, -, rfl⟩ := ok_of_map h
       cases other <;> first | rfl | exact absurd rfl hne)
    | (cases h
       cases other <;> first | rfl | exact absurd rfl hne)

/-- A key that is set says its word. -/
theorem says_assign (hfresh : key ≠ .recording → words = [])
    (hsaid : Says options.overrides words key) (h : options.assign key word = .ok next) :
    Says next.overrides (words ++ [word]) key := by
  cases key with
  | recording =>
    obtain ⟨recording, hread, rfl⟩ := ok_of_map h
    have hsaid : options.overrides.recordings.map .ok = words.map Recording.ofSpec := hsaid
    simp only [Says, Options.override, List.map_append, hsaid, List.map_singleton,
      readRecording_ok hread]
  | stackDepth =>
    obtain ⟨read, hread, rfl⟩ := ok_of_map h
    obtain ⟨depth, hdepth, hsome⟩ := ok_of_bind hread
    cases hsome
    rw [hfresh (by decide)]
    exact congrArg some hdepth.symm
  | timeout =>
    obtain ⟨read, hread, rfl⟩ := ok_of_map h
    obtain ⟨seconds, hseconds, hsome⟩ := ok_of_bind hread
    cases hsome
    rw [hfresh (by decide)]
    exact congrArg some hseconds.symm
  | _ =>
    rw [hfresh (by decide)]
    first
      | (obtain ⟨read, hread, rfl⟩ := ok_of_map h
         obtain ⟨p, hpath, hsome⟩ := ok_of_bind hread
         cases hsome
         cases readPath_ok hpath
         rfl)
      | (cases h
         rfl)
      | trivial

/-- A key of the settings is given if there are words for it. -/
theorem isGiven_eq (hkey : key ∈ Level.settingKeys) (hsaid : Says options.overrides words key) :
    options.isGiven key = !words.isEmpty := by
  cases key with
  | stackDepth =>
    have hsome := congrArg Option.isSome hsaid
    rw [Option.isSome_map, Option.isSome_map] at hsome
    exact hsome.trans (by cases words <;> rfl)
  | timeout =>
    have hsome := congrArg Option.isSome hsaid
    rw [Option.isSome_map, Option.isSome_map] at hsome
    exact hsome.trans (by cases words <;> rfl)
  | recording =>
    have hempty := congrArg List.isEmpty hsaid
    rw [List.isEmpty_map, List.isEmpty_map] at hempty
    exact congrArg not hempty
  | report | dumpInput | foldedOutput | sampleEvent => exact absurd hkey (by decide)
  | _ => exact (congrArg Option.isSome hsaid).trans (by cases words <;> rfl)

/-- The words for a key when one more is given. -/
theorem wordsFor_cons_self (given : List (Key × String)) (key : Key) (word : String) :
    wordsFor ((key, word) :: given) key = word :: wordsFor given key := by
  simp [wordsFor]

/-- The words for the other keys. -/
theorem wordsFor_cons_ne (hne : other ≠ key) (given : List (Key × String)) (word : String) :
    wordsFor ((key, word) :: given) other = wordsFor given other := by
  simp [wordsFor, hne.symm]

/-- The first word for a key. -/
theorem head?_wordsFor (given : List (Key × String)) (key : Key) :
    (wordsFor given key).head? = given.lookup key := by
  induction given with
  | nil => rfl
  | cons pair rest ih =>
    obtain ⟨other, word⟩ := pair
    by_cases hkey : key = other
    · subst hkey
      rw [wordsFor_cons_self, List.lookup_cons_self]
      rfl
    · rw [wordsFor_cons_ne hkey, List.lookup_cons, beq_eq_false_iff_ne.mpr hkey]
      exact ih

/-- Keys that are given one after another say their words, after those that were said before. -/
theorem says_giveAll (hkey : key ∈ Level.settingKeys) (hsaid : Says options.overrides words key)
    (h : options.giveAll given = .ok next) :
    Says next.overrides (words ++ wordsFor given key) key := by
  induction given generalizing options words with
  | nil =>
    cases h
    simpa [wordsFor] using hsaid
  | cons pair rest ih =>
    obtain ⟨other, word⟩ := pair
    obtain ⟨middle, hgive, hrest⟩ := ok_of_bind h
    unfold Options.give at hgive
    split_ifs at hgive with hrepeated
    by_cases hother : key = other
    · subst hother
      have hfresh : key ≠ .recording → words = [] := by
        intro hne
        have hnot : ¬options.isGiven key = true := fun hgiven => hrepeated ⟨hne, hgiven⟩
        rw [isGiven_eq hkey hsaid] at hnot
        simpa using hnot
      have hmiddle := ih (says_assign hfresh hsaid hgive) hrest
      rwa [List.append_assoc, List.singleton_append, ← wordsFor_cons_self] at hmiddle
    · rw [wordsFor_cons_ne hother]
      exact ih ((says_assign_ne hother hgive).mpr hsaid) hrest

/-- The words for a key when the environment gives one where there is none. -/
def Environment.fill (environment : Environment) (key : Key) (words : List String) :
    List String :=
  if words = [] then (environment.value? key).toList else words

variable {environment : Environment} {keys : List Key}

/-- Completed words are complete. -/
theorem Environment.fill_fill (environment : Environment) (key : Key) (words : List String) :
    environment.fill key (environment.fill key words) = environment.fill key words := by
  unfold fill
  by_cases hwords : words = []
  · rw [if_pos hwords]
    split
    · rfl
    · rfl
  · rw [if_neg hwords, if_neg hwords]

/-- What is completed from the environment says its words where there are none. -/
theorem says_completeFrom (hkey : key ∈ Level.settingKeys)
    (hsaid : Says options.overrides words key)
    (h : options.completeFrom environment keys = .ok next) :
    Says next.overrides (if key ∈ keys then environment.fill key words else words) key := by
  induction keys generalizing options words with
  | nil =>
    cases h
    exact hsaid
  | cons other rest ih =>
    rw [Options.completeFrom] at h
    by_cases hother : key = other
    · subst hother
      suffices hmiddle : ∃ middle : Options, middle.completeFrom environment rest = .ok next ∧
          Says middle.overrides (environment.fill key words) key by
        obtain ⟨middle, hmiddle, hfilled⟩ := hmiddle
        have hrest := ih hfilled hmiddle
        rw [Environment.fill_fill, ite_self] at hrest
        rwa [if_pos List.mem_cons_self]
      split at h
      · next word hword =>
        obtain ⟨middle, hassign, hrest⟩ := ok_of_bind h
        split_ifs at hword with hgiven
        rw [isGiven_eq hkey hsaid] at hgiven
        obtain rfl : words = [] := by simpa using hgiven
        refine ⟨middle, hrest, ?_⟩
        unfold Environment.fill
        rw [if_pos rfl, hword]
        exact says_assign (fun _ => rfl) hsaid hassign
      · next hword =>
        refine ⟨options, h, ?_⟩
        unfold Environment.fill
        split_ifs at hword with hgiven
        · rw [isGiven_eq hkey hsaid] at hgiven
          rwa [if_neg (by simpa using hgiven)]
        · rw [isGiven_eq hkey hsaid] at hgiven
          obtain rfl : words = [] := by simpa using hgiven
          rwa [if_pos rfl, hword]
    · have hmem : key ∈ other :: rest ↔ key ∈ rest := by simp [hother]
      simp only [hmem]
      split at h
      · next word hword =>
        obtain ⟨middle, hassign, hrest⟩ := ok_of_bind h
        exact ih ((says_assign_ne hother hassign).mpr hsaid) hrest
      · exact ih hsaid h

/-- The first word for a key is given on the command line or else by the environment. -/
theorem Environment.head?_fill (environment : Environment) (given : List (Key × String))
    (key : Key) : (environment.fill key (wordsFor given key)).head? =
      (given.lookup key).or (environment.value? key) := by
  rw [← head?_wordsFor, fill]
  cases wordsFor given key with
  | nil => cases environment.value? key <;> rfl
  | cons word rest => rfl

/-! ## The layers -/

/-- A word that says a text. -/
def textOf (word : String) : Except Fault String := .ok word

/-- A word that says a path. -/
def pathOf (word : String) : Except Fault Path := .ok ⟨word⟩

/-- The settings are those below with what the command line and the environment give laid over
them. -/
structure Overlaid (given : List (Key × String)) (environment : Environment)
    (below settings : Settings) : Prop where
  /-- The root directory is given on the command line or by the environment. -/
  root : Layered ((given.lookup .root).or (environment.value? .root)) pathOf
    below.root settings.root
  outputDirectory : Layered (given.lookup .outputDirectory) (fun word => (pathOf word).map some)
    below.outputDirectory settings.outputDirectory
  rendererScript : Layered (given.lookup .renderer) pathOf
    below.rendererScript settings.rendererScript
  /-- The dump tool is given on the command line or by the environment. -/
  dumpTool : Layered ((given.lookup .dumpTool).or (environment.value? .dumpTool)) textOf
    below.dumpTool settings.dumpTool
  event : Layered (given.lookup .event) textOf below.event settings.event
  stackDepth : Layered (given.lookup .stackDepth) Options.readDepth
    below.stackDepth settings.stackDepth
  title : Layered (given.lookup .title) textOf below.title settings.title
  timeoutSeconds : Layered (given.lookup .timeout) (fun word => (Options.readSeconds word).map some)
    below.timeoutSeconds settings.timeoutSeconds
  /-- With a recording on the command line, those on the command line are all. -/
  recordings : if wordsFor given .recording = [] then settings.recordings = below.recordings
    else settings.recordings.map .ok = (wordsFor given .recording).map Recording.ofSpec

/-- The settings file is named on the command line or by the environment. -/
def settingsFile? (given : List (Key × String)) (environment : Environment) : Option Path :=
  ((given.lookup .settingsFile).or (environment.value? .settingsFile)).map Path.mk

/-- What comes of finding the settings. -/
inductive Resolves (given : List (Key × String)) (environment : Environment)
    (files : FileSystem) : Except Settings.Failure Settings → Prop
  /-- Without a settings file they lie over the standard ones. -/
  | standard {settings : Settings} (hfile : settingsFile? given environment = none)
      (hlaid : Overlaid given environment Settings.standard settings) :
      Resolves given environment files (.ok settings)
  /-- The values of a settings file whose text gives settings lie over the standard ones. -/
  | filed {p : Path} {text : String} {entries : Toml.Entries} {filed settings : Settings}
      (hfile : settingsFile? given environment = some p) (hread : files.readText p = .ok text)
      (hparse : Settings.parse text = .ok filed)
      (hdocument : Toml.Document.parse? text = some entries)
      (hfiled : Filed entries Settings.standard filed)
      (hlaid : Overlaid given environment filed settings) :
      Resolves given environment files (.ok settings)
  /-- A settings file cannot be read. -/
  | unreadable {p : Path} {cause : SystemFault}
      (hfile : settingsFile? given environment = some p) (hread : files.readText p = .error cause) :
      Resolves given environment files (.error (.unreadable p cause))
  /-- The text of a settings file gives no settings. -/
  | malformed {p : Path} {text : String} {fault : Settings.DocumentFault}
      (hfile : settingsFile? given environment = some p) (hread : files.readText p = .ok text)
      (hparse : Settings.parse text = .error fault) :
      Resolves given environment files (.error (.malformed fault))

/-- What was read from a word, or what lies below without one. -/
theorem layered_getD {α : Type} {word? : Option String} {read : String → Except Fault α}
    {value? : Option α} (h : value?.map .ok = word?.map read) (below : α) :
    Layered word? read below (value?.getD below) := by
  cases word? with
  | none =>
    obtain rfl : value? = none := by simpa using h
    rfl
  | some word =>
    cases value? with
    | none => cases h
    | some value => exact (Option.some.inj h).symm

/-- What was read from a word, or what may lie below without one. -/
theorem layered_or {α : Type} {word? : Option String} {read : String → Except Fault α}
    {value? : Option α} (h : value?.map .ok = word?.map read) (below? : Option α) :
    Layered word? (fun word => (read word).map some) below? (value?.or below?) := by
  cases word? with
  | none =>
    obtain rfl : value? = none := by simpa using h
    rfl
  | some word =>
    cases value? with
    | none => cases h
    | some value =>
      have hread : read word = .ok value := (Option.some.inj h).symm
      simp only [Layered, hread]
      rfl

/-- Overrides that say what is given lay it over the settings below. -/
theorem overlaid_overlay {overrides : Settings.Overrides}
    (h : ∀ key ∈ Level.settingKeys,
      Says overrides (environment.fill key (wordsFor given key)) key) (below : Settings) :
    Overlaid given environment below (below.overlay overrides) := by
  have hfirst := environment.head?_fill given
  have halone {key : Key} (hkey : environment.value? key = none) :
      (environment.fill key (wordsFor given key)).head? = given.lookup key := by
    rw [hfirst, hkey, Option.or_none]
  have hpath (words : Option String) : (words.map Path.mk).map .ok = words.map pathOf :=
    Option.map_map _ _ words
  have htext (words : Option String) : words.map .ok = words.map textOf := rfl
  constructor
  · have hroot : overrides.root = _ := h .root (by decide)
    refine layered_getD ?_ below.root
    rw [hroot, hfirst, hpath]
  · have hdirectory : overrides.outputDirectory = _ := h .outputDirectory (by decide)
    rw [halone rfl] at hdirectory
    exact layered_or ((congrArg _ hdirectory).trans (hpath _)) below.outputDirectory
  · have hscript : overrides.rendererScript = _ := h .renderer (by decide)
    refine layered_getD ?_ below.rendererScript
    rw [hscript, halone rfl, hpath]
  · have htool : overrides.dumpTool = _ := h .dumpTool (by decide)
    refine layered_getD ?_ below.dumpTool
    rw [htool, hfirst, htext]
  · have hevent : overrides.event = _ := h .event (by decide)
    refine layered_getD ?_ below.event
    rw [hevent, halone rfl, htext]
  · have hdepth : overrides.stackDepth.map (.ok : UInt32 → Except Fault UInt32) = _ :=
      h .stackDepth (by decide)
    rw [halone rfl] at hdepth
    exact layered_getD hdepth below.stackDepth
  · have htitle : overrides.title = _ := h .title (by decide)
    refine layered_getD ?_ below.title
    rw [htitle, halone rfl, htext]
  · have htimeout : overrides.timeoutSeconds.map (.ok : UInt64 → Except Fault UInt64) = _ :=
      h .timeout (by decide)
    rw [halone rfl] at htimeout
    exact layered_or htimeout below.timeoutSeconds
  · have hwords : environment.fill .recording (wordsFor given .recording) =
        wordsFor given .recording := by
      unfold Environment.fill
      split
      · next hnone => exact hnone.symm
      · rfl
    have hrecordings := h .recording (by decide)
    rw [hwords] at hrecordings
    have hempty := congrArg List.isEmpty hrecordings
    rw [List.isEmpty_map, List.isEmpty_map] at hempty
    unfold Settings.overlay
    simp only [hempty, List.isEmpty_iff]
    split
    · rfl
    · exact hrecordings

/-- Overrides that say what is given are laid over the settings file, or over the standard settings
without one. -/
theorem resolves_overlay {overrides : Settings.Overrides}
    (h : ∀ key ∈ Level.settingKeys,
      Says overrides (environment.fill key (wordsFor given key)) key) (files : FileSystem) :
    Resolves given environment files
      ((Settings.below files overrides.file).map fun settings => settings.overlay overrides) := by
  have hfile : overrides.file = settingsFile? given environment := by
    rw [settingsFile?, ← environment.head?_fill]
    exact h .settingsFile (by decide)
  rw [hfile]
  cases hchosen : settingsFile? given environment with
  | none => exact .standard hchosen (overlaid_overlay h _)
  | some p =>
    simp only [Settings.below, Settings.loaded]
    cases hread : files.readText p with
    | error cause => exact .unreadable hchosen hread
    | ok text =>
      cases hparse : Settings.parse text with
      | error fault =>
        simp only [hparse]
        exact .malformed hchosen hread hparse
      | ok filed =>
        simp only [hparse]
        obtain ⟨entries, hdocument, hfiled⟩ := Settings.parse_filed hparse
        exact .filed hchosen hread hparse hdocument hfiled (overlaid_overlay h _)

/-! ## Command lines -/

/-- The levels with settings. -/
def settingLevels : List Level := [.program, .convert, .config]

/-- The command line for words of a level. -/
def Level.line (level : Level) (words : List String) : List String :=
  if level = .program then words else level.name :: words

variable {level : Level} {request : Request} {read done : Reading}

/-- The words of a level are read to their end. -/
def Reads (level : Level) (words : List String) (done : Reading) : Prop :=
  ∃ read, Reading.start.readWords level words = .ok (read, none) ∧ read.settle = .ok done

/-- Options of a level with settings only have to be completed from the environment. -/
theorem complete_setting (hlevel : level ∈ settingLevels) (options : Options) :
    options.complete level environment = options.completeFrom environment level.keys := by
  have hrequired : ∀ level ∈ settingLevels, ∀ key ∈ level.keys, key.isRequired = false := by decide
  unfold Options.complete
  cases options.completeFrom environment level.keys with
  | error fault => rfl
  | ok completed =>
    have hmissing : completed.missing? level.keys = none := by
      unfold Options.missing?
      rw [List.find?_eq_none]
      intro key hkey
      simp [hrequired level hlevel key hkey]
    simp only [bind, Except.bind, hmissing]
    rfl

/-- A reading that is finished has come to its end, and its options are complete. -/
theorem finish_ok {options : Options} (h : Request.finish level environment read = .ok options) :
    ∃ done, read.settle = .ok done ∧ done.options.complete level environment = .ok options := by
  obtain ⟨done, hdone, hcomplete⟩ := ok_of_bind h
  refine ⟨done, hdone, ?_⟩
  split at hcomplete
  · next completed hcompleted =>
    cases hcomplete
    exact hcompleted
  · cases hcomplete

/-- A level with settings is reached by its name. -/
theorem readWords_name (hlevel : level ∈ settingLevels) (hne : level ≠ .program)
    (words : List String) : Reading.start.readWords .program (level.name :: words) =
      .ok (.start, some (level, words)) := by
  have hcommands : ∀ level ∈ settingLevels, level ≠ .program →
      Reading.start.command? .program level.name = some level := by decide
  rw [Reading.readWords, hcommands level hlevel hne]

/-- What follows the name of a command is its own, and what the environment gives to the program
itself is read after it. -/
theorem parse_name (hlevel : level ∈ settingLevels) (hne : level ≠ .program)
    (words : List String) : Request.parse environment (level.name :: words) = (do
      let request ← Request.ofCommand environment level words
      let _ ← Request.finish .program environment .start
      return request) := by
  have hhelp : level ≠ .help := by
    rintro rfl
    exact absurd hlevel (by decide)
  rw [Request.parse, readWords_name hlevel hne]
  exact if_neg hhelp

/-- The words of a level with settings are read to their end, if the command line is accepted. -/
theorem reads_of_parse (hlevel : level ∈ settingLevels)
    (h : Request.parse environment (level.line words) = .ok ⟨level, options⟩) :
    ∃ done, Reads level words done ∧
      done.options.completeFrom environment level.keys = .ok options := by
  suffices hends : ∃ read, Reading.start.readWords level words = .ok (read, none) ∧
      Request.finish level environment read = .ok options by
    obtain ⟨read, hread, hfinish⟩ := hends
    obtain ⟨done, hdone, hcomplete⟩ := finish_ok hfinish
    rw [complete_setting hlevel] at hcomplete
    exact ⟨done, ⟨read, hread, hdone⟩, hcomplete⟩
  by_cases hprogram : level = .program
  · subst hprogram
    obtain ⟨⟨read, command⟩, hread, hrest⟩ := ok_of_bind h
    cases command with
    | none =>
      obtain ⟨finished, hfinish, hrequest⟩ := ok_of_bind hrest
      cases hrequest
      exact ⟨read, hread, hfinish⟩
    | some found =>
      -- no command is the program itself
      obtain ⟨command, others⟩ := found
      obtain ⟨-, hcommand⟩ := Reading.command_of_readWords hread
      dsimp only at hrest
      split_ifs at hrest
      obtain ⟨named, hnamed, hrest⟩ := ok_of_bind hrest
      obtain ⟨_, -, hsame⟩ := ok_of_bind hrest
      obtain ⟨_, -, hrequest⟩ := ok_of_bind hnamed
      obtain ⟨finished, -, hoptions⟩ := ok_of_bind hrequest
      cases hoptions
      cases hsame
      exact absurd hcommand (by decide)
  · unfold Level.line at h
    rw [if_neg hprogram, parse_name hlevel hprogram] at h
    obtain ⟨named, hnamed, hrest⟩ := ok_of_bind h
    obtain ⟨-, -, hsame⟩ := ok_of_bind hrest
    obtain ⟨⟨read, command⟩, hread, hrequest⟩ := ok_of_bind hnamed
    obtain ⟨finished, hfinish, hoptions⟩ := ok_of_bind hrequest
    cases hoptions
    cases hsame
    cases command with
    | none => exact ⟨read, hread, hfinish⟩
    | some found => exact absurd (Reading.command_of_readWords hread).1 hprogram

/-- Options that were given values say them. -/
theorem says_given {key : Key} (hkey : key ∈ Level.settingKeys)
    (h : Options.empty.giveAll given = .ok options) :
    Says options.overrides (wordsFor given key) key := by
  have hempty : Says Options.empty.overrides [] key := by
    cases key <;> first | rfl | trivial
  exact says_giveAll hkey hempty h

/-- A command line whose words are read to their end is accepted in every environment that names
no empty path. -/
theorem parse_of_reads (hlevel : level ∈ settingLevels) (h : Reads level words done)
    (hpaths : environment.NamesPaths) :
    ∃ options, Request.parse environment (level.line words) = .ok ⟨level, options⟩ := by
  obtain ⟨read, hread, hdone⟩ := h
  obtain ⟨completed, hcompleted⟩ :=
    Options.completeFrom_environment hpaths level.keys done.options
  have hfinish : Request.finish level environment read = .ok completed := by
    rw [Request.finish, hdone]
    simp only [bind, Except.bind, complete_setting hlevel, hcompleted]
  unfold Level.line
  by_cases hprogram : level = .program
  · subst hprogram
    rw [if_pos rfl, Request.parse, hread]
    simp only [bind, Except.bind, hfinish]
    exact ⟨_, rfl⟩
  · obtain ⟨options, hoptions⟩ := Request.finish_program hpaths
    rw [if_neg hprogram, parse_name hlevel hprogram, Request.ofCommand, hread]
    simp only [bind, Except.bind, hfinish, hoptions]
    exact ⟨_, rfl⟩

/-- The settings of a command line that is accepted anywhere are found in every environment that
names no empty path. The words give values to keys, and each field is what they give, or else what
the environment gives, or else what the settings file has under its key, or else the standard
value; the recordings of the command line are all if there is one. A settings file that cannot be
read or gives no settings is a failure. -/
theorem settings_resolve {elsewhere : Environment} {accepted : Options}
    (hlevel : level ∈ settingLevels)
    (haccepted : Request.parse elsewhere (level.line words) = .ok ⟨level, accepted⟩)
    (hpaths : environment.NamesPaths) :
    ∃ options, Request.parse environment (level.line words) = .ok ⟨level, options⟩ ∧
      (∃ given, Spells level.keys given words) ∧
      ∀ given, Spells level.keys given words → ∀ before : Session, ∃ answer,
        options.overrides.effective.Gives before answer before.files ∧
        Resolves given environment before.files answer := by
  obtain ⟨_, hreads, -⟩ := reads_of_parse hlevel haccepted
  obtain ⟨options, hparse⟩ := parse_of_reads hlevel hreads hpaths
  obtain ⟨done, ⟨read, hread, hdone⟩, hcomplete⟩ := reads_of_parse hlevel hparse
  refine ⟨options, hparse, (Reading.exists_spells hread hdone).1 Reading.start_ready,
    fun given hspells before => ⟨_, Settings.effective_gives _ before, ?_⟩⟩
  have hhelp : level ≠ .help := by
    rintro rfl
    exact absurd hlevel (by decide)
  obtain ⟨settled, hsettled, hgive⟩ := Reading.give_of_spells hhelp (fun _ hkey => hkey) hspells
    Reading.start_ready hread hdone
  cases hsettled
  have hkeys : ∀ level ∈ settingLevels, ∀ key ∈ Level.settingKeys, key ∈ level.keys := by decide
  have hsaid : ∀ key ∈ Level.settingKeys,
      Says options.overrides (environment.fill key (wordsFor given key)) key := by
    intro key hkey
    have hquiet := says_given hkey hgive
    have hgiven : Says done.options.overrides (wordsFor given key) key := hquiet
    have hcompleted := says_completeFrom hkey hgiven hcomplete
    rwa [if_pos (hkeys level hlevel key hkey)] at hcompleted
  exact resolves_overlay hsaid before.files

/-- The text of a settings file. -/
def filedText : String :=
  "root_dir = 'filed'\ntitle = 'Filed'\nstack_depth = 5\n" ++
    "[[recordings]]\nfile = 'a.jfr'\nlabel = 'A'\n"

/-- The settings that it gives. -/
def filedSettings : Settings :=
  { Settings.standard with
    root := ⟨"filed"⟩
    title := "Filed"
    stackDepth := 5
    recordings := [⟨⟨"a.jfr"⟩, "A"⟩] }

/-- The files with the settings file. -/
def filedFiles : FileSystem where
  nodes := [([Text.encode "run.toml"], .file (Text.encode filedText) false)]
  here := []

/-- The values of a command line that names the settings file. -/
def filedGiven : List (Key × String) :=
  [(.settingsFile, "run.toml"), (.title, "Given"), (.recording, "b.jfr=B")]

/-- The words of this command line. -/
def filedWords : List String := ["-vcrun.toml", "--title", "Given", "--recording=b.jfr=B"]

/-- What these words say. -/
def filedOptions : Options :=
  { Options.empty with
    overrides := { Settings.Overrides.none with
      file := some ⟨"run.toml"⟩
      title := some "Given"
      recordings := [⟨⟨"b.jfr"⟩, "B"⟩] }
    verbose := true }

/-- The environment gives the root directory, the command line the title and the recordings, the
settings file the depth, and nothing the event. -/
theorem settings_resolve_filed :
    Spells Level.config.keys filedGiven filedWords ∧
    Environment.NamesPaths [("JFR_FLAMEGRAPH_ROOT", "here")] ∧
    ∃ options, Request.parse [("JFR_FLAMEGRAPH_ROOT", "here")] (Level.config.line filedWords) =
      .ok ⟨.config, options⟩ ∧
    ∃ settings, options.overrides.effective.Gives (Session.start filedFiles)
      (.ok settings) filedFiles ∧
      settings.root = ⟨"here"⟩ ∧ settings.title = "Given" ∧
      settings.recordings = [⟨⟨"b.jfr"⟩, "B"⟩] ∧ settings.stackDepth = 5 ∧
      settings.event = Settings.standard.event := by
  have hfile : Attaches .settingsFile "run.toml" 1 "-vcrun.toml" :=
    .lettered rfl rfl (by decide) 1
  have hspells : Spells Level.config.keys filedGiven filedWords :=
    .attached (by decide) hfile (.detached (by decide) .named (.attached (by decide) .named .nil))
  have hpaths : Environment.NamesPaths [("JFR_FLAMEGRAPH_ROOT", "here")] := by
    unfold Environment.NamesPaths
    decide
  have hread : filedFiles.readText ⟨"run.toml"⟩ = .ok filedText := by decide +kernel
  have hparse : Settings.parse filedText = .ok filedSettings := by decide +kernel
  have haccepted : Request.parse [] (Level.config.line filedWords) =
      .ok ⟨.config, filedOptions⟩ := by decide +kernel
  obtain ⟨options, hparsed, -, hresolves⟩ := settings_resolve (by decide) haccepted hpaths
  obtain ⟨answer, hgives, hanswer⟩ := hresolves filedGiven hspells (Session.start filedFiles)
  refine ⟨hspells, hpaths, options, hparsed, ?_⟩
  cases hanswer with
  | standard hnone => cases hnone
  | unreadable hsome hcause =>
    cases hsome
    cases hread.symm.trans hcause
  | malformed hsome htext hfault =>
    cases hsome
    cases hread.symm.trans htext
    cases hparse.symm.trans hfault
  | @filed p text entries filed settings hsome htext hfiled _ _ hlaid =>
    cases hsome
    cases hread.symm.trans htext
    cases hparse.symm.trans hfiled
    refine ⟨settings, hgives, (Except.ok.inj hlaid.root).symm, (Except.ok.inj hlaid.title).symm,
      ?_, hlaid.stackDepth, hlaid.event⟩
    have hrecordings : settings.recordings.map .ok = [Recording.ofSpec "b.jfr=B"] :=
      hlaid.recordings
    have hspec : Recording.ofSpec "b.jfr=B" = .ok ⟨⟨"b.jfr"⟩, "B"⟩ := by decide +kernel
    rw [hspec] at hrecordings
    cases hlist : settings.recordings with
    | nil => simp [hlist] at hrecordings
    | cons first rest => simpa [hlist] using hrecordings

end FlameFold.CommandLine
