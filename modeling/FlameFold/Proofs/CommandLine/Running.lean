import FlameFold.CommandLine.Reach
import FlameFold.Proofs.Output.ReportFile
import FlameFold.Proofs.Settings.Layers

/-!
# Running requests

A command line that can be read runs its request, and takes what it leaves behind from the
session of the request. A request to convert recordings finds its settings first and then runs
with them.
-/

namespace FlameFold.CommandLine

variable {around : Surroundings} {files : FileSystem} {words : List String} {request : Request}
  {settings : Settings} {first before after : Session}

/-- A command line that can be read runs its request. -/
theorem run_parsed (h : Request.parse around.environment words = .ok request) :
    run around files words = runRequest around (withInput around.input files) request := by
  simp only [run, h]

/-- A run whose request comes to an end leaves what its session leaves, and its exit code tells
of a complaint. -/
theorem runRequest_told {told : Except Complaint Unit}
    (h : perform around request (Session.start files) = .ok told after) :
    (runRequest around files request).printed = after.printed ∧
      (runRequest around files request).files = after.files ∧
      (told = .ok () → (runRequest around files request).code = 0) ∧
      ∀ complaint, told = .error complaint → (runRequest around files request).code = 1 := by
  unfold runRequest
  rw [EStateM.run, h]
  cases told with
  | ok _ => exact ⟨rfl, rfl, fun _ => rfl, nofun⟩
  | error complaint => exact ⟨rfl, rfl, nofun, fun _ _ => rfl⟩

/-- A run whose request is done leaves what its session leaves. -/
theorem runRequest_ok (h : perform around request (Session.start files) = .ok (.ok ()) after) :
    (runRequest around files request).code = 0 ∧
      (runRequest around files request).printed = after.printed ∧
      (runRequest around files request).files = after.files := by
  obtain ⟨hprinted, hfiles, hcode, -⟩ := runRequest_told h
  exact ⟨hcode rfl, hprinted, hfiles⟩

/-- The exit code tells of a run that breaks down. -/
theorem runRequest_error {breakdown : Breakdown}
    (h : perform around request (Session.start files) = .error breakdown after) :
    (runRequest around files request).code = 101 := by
  unfold runRequest
  rw [EStateM.run, h]
  rfl

/-- The settings that options lead to are found by a step that changes no file and calls no
program. -/
theorem effective_of_settings? {options : Options}
    (h : options.settings? files = some settings) : ∃ before,
    options.overrides.effective (Session.start files) = .ok (.ok settings) before ∧
      before.files = files ∧ before.calls = [] := by
  unfold Options.settings? at h
  split at h
  · next found before heffective =>
    obtain rfl : found = settings := Option.some.inj h
    obtain ⟨before', heffective', hfiles, hcalls⟩ :=
      Settings.effective_gives options.overrides (Session.start files)
    obtain ⟨-, rfl⟩ := EStateM.Result.ok.inj (heffective.symm.trans heffective')
    exact ⟨before, heffective, hfiles, hcalls⟩
  · cases h

/-- A request to convert recordings finds its settings and runs with them. -/
theorem perform_convert (hlevel : request.level = .convert ∨ request.level = .program)
    (hfound : request.options.overrides.effective first = .ok (.ok settings) before) :
    perform around request first = (Conversion.run settings around.runner >>= fun
      | .error failure => return .error (.ofSettings failure)
      | .ok summary =>
        match request.options.report with
        | none => return .ok ()
        | some p => do
          let written ← Output.writeReport (Report.ofSummary around.now summary) p
          return written.mapError (Complaint.ofOutput "Failed to write run report")) before := by
  have hperform : perform around request = convert around request.options := by
    unfold perform
    rcases hlevel with hlevel | hlevel <;> rw [hlevel]
  rw [hperform]
  exact Step.bind_ok hfound

/-- Write a report on a run where one is wanted. -/
def writeWanted (around : Surroundings) (summary : Conversion.Summary) :
    Option Path → Step (Except Output.Failure Unit)
  | none => return .ok ()
  | some p => Output.writeReport (Report.ofSummary around.now summary) p

/-- Writing a report comes to an end, whether one is wanted or not. -/
theorem writeWanted_ends (around : Surroundings) (summary : Conversion.Summary)
    (wanted : Option Path) (after : Session) :
    ∃ told left, writeWanted around summary wanted after = .ok told left := by
  cases wanted with
  | none => exact ⟨_, after, rfl⟩
  | some p =>
    obtain ⟨left, hwritten, -⟩ :=
      Output.writeReport_gives (Report.ofSummary around.now summary) p after
    exact ⟨_, left, hwritten⟩

/-- When the run has ended the request has no more to do than to write the report. -/
theorem perform_convert_ok (hlevel : request.level = .convert ∨ request.level = .program)
    (hfound : request.options.overrides.effective first = .ok (.ok settings) before)
    {summary : Conversion.Summary}
    (hrun : Conversion.run settings around.runner before = .ok (.ok summary) after)
    {told : Except Output.Failure Unit} {left : Session}
    (hwritten : writeWanted around summary request.options.report after = .ok told left) :
    perform around request first =
      .ok (told.mapError (Complaint.ofOutput "Failed to write run report")) left := by
  rw [perform_convert hlevel hfound]
  refine (Step.bind_ok hrun).trans ?_
  cases hreport : request.options.report with
  | none =>
    rw [hreport] at hwritten
    cases hwritten
    rfl
  | some p =>
    rw [hreport] at hwritten
    exact Step.bind_ok hwritten

/-- A request whose run breaks down breaks down. -/
theorem perform_convert_error (hlevel : request.level = .convert ∨ request.level = .program)
    (hfound : request.options.overrides.effective first = .ok (.ok settings) before)
    {breakdown : Breakdown}
    (hrun : Conversion.run settings around.runner before = .error breakdown after) :
    perform around request first = .error breakdown after := by
  rw [perform_convert hlevel hfound]
  exact Step.bind_error hrun

end FlameFold.CommandLine
