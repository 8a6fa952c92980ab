import FlameFold.Proofs.CommandLine.Running
import FlameFold.Proofs.Conversion.Overflow

/-!
# The command that converts recordings

With valid settings and the renderer script there, the command completes: there is one result
for each recording, whatever becomes of it, and the exit code is 0 unless a report is wanted that
cannot be written. What can come between is a call of the run that never ends, because there is no
limit or because a pipe is kept open, and a limit beyond the end of the clock. Which programs
there are is left to the system.
-/

namespace FlameFold.CommandLine

/-- A command line that asks to convert recordings with these settings, where a run can start:
the settings are valid, and the renderer script is there. -/
structure Converts (around : Surroundings) (files : FileSystem) (words : List String)
    (request : Request) (settings : Settings) : Prop where
  /-- The words can be read. -/
  parsed : Request.parse around.environment words = .ok request
  /-- They ask to convert recordings, with the command or without it. -/
  level : request.level = .convert ∨ request.level = .program
  /-- They lead to these settings. -/
  found : request.options.settings? (withInput around.input files) = some settings
  /-- The settings are valid. -/
  valid : settings.validate = .ok ()
  /-- The renderer script is there. -/
  script : (withInput around.input files).isFile settings.rendererPath = true

/-- The command line brings a run with these settings to its end: there is one result for each
recording of the settings, and without a report the exit code is 0. What is left is what the run
leaves and the report. -/
structure Completes (around : Surroundings) (files : FileSystem) (words : List String)
    (request : Request) (settings : Settings) (summary : Conversion.Summary) : Prop where
  /-- The run ends with the summary, and the report is written. What is left after that is left,
  and the exit code tells of a report that could not be written. -/
  run : ∃ before after told left, before.files = withInput around.input files ∧
    Conversion.run settings around.runner before = .ok (.ok summary) after ∧
    writeWanted around summary request.options.report after = .ok told left ∧
    (CommandLine.run around files words).printed = left.printed ∧
    (CommandLine.run around files words).files = left.files ∧
    (told = .ok () → (CommandLine.run around files words).code = 0) ∧
    ∀ failure, told = .error failure → (CommandLine.run around files words).code = 1
  /-- There is one result for each recording, in their order. -/
  results : summary.results.map Conversion.Result.recording = settings.recordings
  /-- The exit code says that nothing went wrong. -/
  code : request.options.report = none → (CommandLine.run around files words).code = 0

/-- The run with these settings comes to no end in this call, which is made in this session. -/
structure EndsIn (around : Surroundings) (files : FileSystem) (settings : Settings)
    (breakdown : Breakdown) (middle : Session) (call : Program.Invocation) : Prop where
  /-- The run breaks down in the call: what this leaves is the last that there is of the run, and
  where nothing else is left it is the session of the call. -/
  run : ∃ before after, before.files = withInput around.input files ∧ before.calls = [] ∧
    Conversion.run settings around.runner before = .error breakdown after ∧
    Session.call around.runner call middle = .error breakdown after ∧
    Conversion.run settings around.runner.halting before =
      .error breakdown { middle with calls := middle.calls ++ [call] }
  /-- The call is the dump of a recording or a rendering, with the limit of the settings. -/
  call : Conversion.Calls settings call

variable {around : Surroundings} {files : FileSystem} {words : List String} {request : Request}
  {settings : Settings} {system : Program.System}

/-- The command goes on from a session with the files that it started with, and what the run
comes to there is what the command line comes to. -/
theorem Converts.starts (h : Converts around files words request settings) :
    ∃ before : Session, before.files = withInput around.input files ∧ before.calls = [] ∧
      (∀ summary after, Conversion.run settings around.runner before = .ok (.ok summary) after →
        Completes around files words request settings summary) ∧
      ∀ breakdown after, Conversion.run settings around.runner before = .error breakdown after →
        (run around files words).code = 101 := by
  obtain ⟨before, heffective, hfiles, hcalls⟩ := effective_of_settings? h.found
  refine ⟨before, hfiles, hcalls, fun summary after hended => ?_,
    fun breakdown after hbroke => ?_⟩
  · obtain ⟨told, left, hwritten⟩ :=
      writeWanted_ends around summary request.options.report after
    have hdone := perform_convert_ok h.level heffective hended hwritten
    obtain ⟨hprinted, hleft, hok, hcomplaint⟩ := runRequest_told hdone
    rw [← run_parsed h.parsed] at hprinted hleft hok hcomplaint
    refine ⟨⟨before, after, told, left, hfiles, hended, hwritten, hprinted, hleft, ?_, ?_⟩,
      Conversion.run_results hended, fun hreport => ?_⟩
    · rintro rfl
      exact hok rfl
    · rintro failure rfl
      exact hcomplaint _ rfl
    · rw [hreport] at hwritten
      cases hwritten
      exact hok rfl
  · rw [run_parsed h.parsed]
    exact runRequest_error (perform_convert_error h.level heffective hbroke)

/-- A command line that can start completes, or its run comes to no end in one of its calls. -/
theorem Converts.completes (h : Converts around files words request settings) :
    (∃ summary, Completes around files words request settings summary) ∨
      (run around files words).code = 101 ∧
        ∃ breakdown middle call, EndsIn around files settings breakdown middle call := by
  obtain ⟨before, hfiles, hcalls, hends, hbreaks⟩ := h.starts
  have hscript := h.script
  rw [← hfiles] at hscript
  rcases Conversion.run_completes h.valid hscript around.runner with
    ⟨summary, after, hrun⟩ | ⟨breakdown, after, hrun⟩
  · exact .inl ⟨summary, hends summary after hrun⟩
  · obtain ⟨middle, call, hcall, hlast, hhalting⟩ := Conversion.run_breaks hrun
    exact .inr ⟨hbreaks breakdown after hrun, breakdown, middle, call,
      ⟨before, after, hfiles, hcalls, hrun, hlast, hhalting⟩, hcall⟩

/-- A command line that can start completes if all calls of its run are answered. -/
theorem Converts.completes_of_answers (h : Converts around files words request settings)
    (hanswers : ∀ call, Conversion.Calls settings call → ∀ files calls,
      ∃ answer, (around.runner files calls call).result = .ok answer) :
    ∃ summary, Completes around files words request settings summary := by
  obtain hdone | ⟨-, breakdown, middle, call, hends⟩ := h.completes
  · exact hdone
  · obtain ⟨before, after, -, -, -, hlast, -⟩ := hends.run
    obtain ⟨answer, hanswer⟩ := hanswers call hends.call middle.files middle.calls
    rw [Step.call_error hlast] at hanswer
    cases hanswer

/-- With a limit beyond the end of the clock, a command line that can start breaks down if the
dump tool is started for one of its recordings; if there is no such recording it completes and
nothing was written. -/
theorem Converts.overflow (h : Converts around files words request settings)
    (hrunner : around.runner = system.runner) {limit : Duration}
    (hlimit : settings.timeout = some limit) (hpasses : system.PassesClock limit) :
    ((∃ recording ∈ settings.recordings,
        Conversion.Dumpable system settings (withInput around.input files) recording) →
      (run around files words).code = 101) ∧
    ((∀ recording ∈ settings.recordings,
        Conversion.Undumpable system settings (withInput around.input files) recording) →
      ∃ summary, Completes around files words request settings summary ∧
        ∀ result ∈ summary.results, result.outcome.IsIdle) := by
  obtain ⟨before, hfiles, -, hends, hbreaks⟩ := h.starts
  have hscript := h.script
  rw [← hfiles] at hscript ⊢
  rw [hrunner] at hends hbreaks
  obtain ⟨hsome, hnone⟩ := Conversion.run_overflow h.valid hscript hlimit hpasses
  constructor
  · intro hdumpable
    obtain ⟨after, hrun⟩ := hsome hdumpable
    exact hbreaks _ _ hrun
  · intro hundumpable
    obtain ⟨summary, after, hrun, hidle⟩ := hnone hundumpable
    exact ⟨summary, hends summary after hrun, hidle⟩

/-- A command line that can start completes unless its run comes to no end in one of its calls:
the program of the call was started, and either the clock has no room for the deadline, which
ends the command with its own exit code, or the waiting for the program or its pipes never ends.
With a limit that the clock has no room for, the command ends so if the dump tool is started for
one of its recordings, and completes if it is not there or refused for all of them. -/
theorem convert_completes (h : Converts around files words request settings)
    (hrunner : around.runner = system.runner) :
    ((∃ summary, Completes around files words request settings summary) ∨
      ∃ breakdown middle call started, EndsIn around files settings breakdown middle call ∧
        system middle.files middle.calls call = .ok started ∧
        ((breakdown = .clockOverflow ∧ (run around files words).code = 101 ∧
            ∃ limit, settings.timeout = some limit ∧ started.child.passesClock limit = true) ∨
          breakdown = .endless ∧ started.child.Hangs call)) ∧
    ∀ limit, settings.timeout = some limit → system.PassesClock limit →
      ((∃ recording ∈ settings.recordings,
          Conversion.Dumpable system settings (withInput around.input files) recording) →
        (run around files words).code = 101) ∧
      ((∀ recording ∈ settings.recordings,
          Conversion.Undumpable system settings (withInput around.input files) recording) →
        ∃ summary, Completes around files words request settings summary ∧
          ∀ result ∈ summary.results, result.outcome.IsIdle) := by
  refine ⟨?_, fun limit hlimit hpasses => h.overflow hrunner hlimit hpasses⟩
  refine h.completes.imp_right ?_
  rintro ⟨hcode, breakdown, middle, call, hends⟩
  obtain ⟨before, after, -, -, -, hlast, -⟩ := hends.run
  rw [hrunner] at hlast
  obtain ⟨started, hstarted, hwhy⟩ := Program.System.runner_error (Step.call_error hlast)
  refine ⟨breakdown, middle, call, started, hends, hstarted, hwhy.imp_left ?_⟩
  rintro ⟨hoverflow, limit, hlimit, hpasses⟩
  exact ⟨hoverflow, hcode, limit, hends.call.limit.symm.trans hlimit, hpasses⟩

/-- A program that is at its end before the first look and writes nothing. -/
def brief : Program.Child where
  watch :=
    { start := 0
      poll := fun _ => .ended (some 0)
      clock := fun n => n * Program.pollInterval.nanoseconds
      start_le := Nat.zero_le _
      advances := fun n => by rw [Nat.add_mul, Nat.one_mul] }
  lastSecond := 9223372036854775807
  ending := some (.ok (some 0))
  fed := some (.ok ())
  written := some (.ok [])
  complaints := some (.ok [])

/-- A system with one tool and the renderer script, which change no file. -/
def benchSystem : Program.System := fun files _ call =>
  if call.program = "true" ∨ call.program = "./render.pl" then .ok ⟨brief, files, ⟨0⟩⟩
  else .error .notFound

/-- Whatever the system starts is the brief program. -/
theorem benchSystem_child {calls : List Program.Invocation} {call : Program.Invocation}
    {started : Program.Started} (h : benchSystem files calls call = .ok started) :
    started.child = brief := by
  unfold benchSystem at h
  split at h
  · cases h
    rfl
  · cases h

/-- All programs of the system come to an end, and so do their pipes. -/
theorem benchSystem_ends : benchSystem.Ends := by
  intro files calls call started hstarted
  rw [benchSystem_child hstarted]
  simp [brief, Program.Child.KeepsOpen]

/-- The files of the bench: one of its two recordings and the renderer script. -/
def bench : FileSystem where
  nodes :=
    [([Text.encode "app.jfr"], .file [] false), ([Text.encode "render.pl"], .file [] true)]
  here := []

/-- A run on the bench. -/
def benchSurroundings : Surroundings := ⟨[], [], "", benchSystem.runner⟩

/-- The words that convert the recordings with a number of seconds as the limit. -/
def benchWords (seconds : String) : List String :=
  ["--root=.", "--renderer=render.pl", "--dump-tool=true", "--recording=gone.jfr",
    "--recording=app.jfr", "--timeout=" ++ seconds]

/-- What these words say. -/
def benchOverrides (seconds : UInt64) : Settings.Overrides :=
  { Settings.Overrides.none with
    root := some ⟨"."⟩
    rendererScript := some ⟨"render.pl"⟩
    dumpTool := some "true"
    timeoutSeconds := some seconds
    recordings := [⟨⟨"gone.jfr"⟩, "gone"⟩, ⟨⟨"app.jfr"⟩, "app"⟩] }

/-- On the bench a run can start with these words, if they can be read and the limit is valid. -/
theorem converts_bench {word : String} {seconds : UInt64}
    (hparsed : Request.parse [] (benchWords word) =
      .ok ⟨.program, Options.empty.override (benchOverrides seconds)⟩)
    (hvalid : (Settings.standard.overlay (benchOverrides seconds)).validate = .ok ()) :
    Converts benchSurroundings bench (benchWords word)
      ⟨.program, Options.empty.override (benchOverrides seconds)⟩
      (Settings.standard.overlay (benchOverrides seconds)) where
  parsed := hparsed
  level := .inr rfl
  found := rfl
  valid := hvalid
  script := by
    have hpath : (Settings.standard.overlay (benchOverrides seconds)).rendererPath =
        (Settings.standard.overlay (benchOverrides 0)).rendererPath := rfl
    rw [hpath]
    decide +kernel

/-- The largest limit that can be named can be read on the bench, and it is valid. -/
theorem converts_bench_largest :
    Converts benchSurroundings bench (benchWords "18446744073709551615")
      ⟨.program, Options.empty.override (benchOverrides 18446744073709551615)⟩
      (Settings.standard.overlay (benchOverrides 18446744073709551615)) :=
  converts_bench (by decide +kernel) (by decide +kernel)

/-- It lies beyond the end of the clock. -/
theorem benchSystem_passesClock : benchSystem.PassesClock (.ofSeconds 18446744073709551615) := by
  intro files calls call started hstarted
  rw [benchSystem_child hstarted]
  decide +kernel

/-- One of the recordings is there, and the dump tool is started for it. -/
theorem bench_dumpable : ∃ recording ∈ (benchOverrides 18446744073709551615).recordings,
    Conversion.Dumpable benchSystem
      (Settings.standard.overlay (benchOverrides 18446744073709551615)) (withInput [] bench)
      recording :=
  ⟨⟨⟨"app.jfr"⟩, "app"⟩, by simp [benchOverrides], by decide +kernel,
    fun _ => ⟨⟨brief, withInput [] bench, ⟨0⟩⟩, rfl⟩⟩

/-- On the bench the command completes with a limit of a minute, and not with the largest limit
that can be named. -/
theorem convert_completes_bench : benchSurroundings.runner = benchSystem.runner ∧
    Converts benchSurroundings bench (benchWords "60")
      ⟨.program, Options.empty.override (benchOverrides 60)⟩
      (Settings.standard.overlay (benchOverrides 60)) ∧
    (∃ summary, Completes benchSurroundings bench (benchWords "60")
      ⟨.program, Options.empty.override (benchOverrides 60)⟩
      (Settings.standard.overlay (benchOverrides 60)) summary) ∧
    (run benchSurroundings bench (benchWords "18446744073709551615")).code = 101 := by
  have hparsed : Request.parse [] (benchWords "60") =
      .ok ⟨.program, Options.empty.override (benchOverrides 60)⟩ := by decide +kernel
  have hconverts := converts_bench hparsed (by decide +kernel)
  have hrunner : benchSurroundings.runner = benchSystem.runner := rfl
  refine ⟨rfl, hconverts, ?_, ?_⟩
  · obtain hdone | ⟨_, _, _, started, -, hstarted, hwhy⟩ := (convert_completes hconverts hrunner).1
    · exact hdone
    · obtain ⟨-, -, limit, hlimit, hpasses⟩ | ⟨-, hhangs⟩ := hwhy
      · obtain rfl : Duration.ofSeconds 60 = limit := Option.some.inj hlimit
        rw [benchSystem_child hstarted] at hpasses
        exact absurd hpasses (by decide +kernel)
      · exact absurd hhangs (benchSystem_ends.not_hangs hstarted)
  · exact ((convert_completes converts_bench_largest hrunner).2 _ rfl
      benchSystem_passesClock).1 bench_dumpable

/-- With the largest limit that can be named the command does not complete there, though the
settings are valid and all programs come to an end: the dump tool is started, and its deadline
lies beyond the end of the clock. -/
theorem largest_limit_not_completed :
    ¬∀ (system : Program.System) (around : Surroundings) (files : FileSystem)
      (words : List String) (request : Request) (settings : Settings), system.Ends →
      around.runner = system.runner → Converts around files words request settings →
      ∃ summary, Completes around files words request settings summary := by
  intro h
  obtain ⟨summary, hdone⟩ := h _ _ _ _ _ _ benchSystem_ends rfl converts_bench_largest
  have hcode := (converts_bench_largest.overflow rfl rfl benchSystem_passesClock).1 bench_dumpable
  rw [hdone.code rfl] at hcode
  cases hcode

end FlameFold.CommandLine
