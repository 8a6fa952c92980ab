import FlameFold.Program.System
import FlameFold.Proofs.Program.Child

/-!
# What a call comes to on a system

A program that the system refuses gives nothing, and the call changes no file. A call whose
program is started breaks down only if the clock has no room for its deadline or the waiting for
the program and its pipes never comes to an end. What the system starts may depend on the calls
before; it is said here for all of them.
-/

namespace FlameFold.Program.System

/-- The program of a call is started, whatever was called before. -/
def Starts (system : System) (files : FileSystem) (call : Invocation) : Prop :=
  ∀ calls, ∃ started, system files calls call = .ok started

/-- The program of a call is refused, whatever was called before. -/
def Refuses (system : System) (files : FileSystem) (call : Invocation) : Prop :=
  ∀ calls, ∃ cause, system files calls call = .error cause

/-- The clock has no room for the deadline of any program that is started with this limit. -/
def PassesClock (system : System) (limit : Duration) : Prop :=
  ∀ files calls call started, system files calls call = .ok started →
    started.child.passesClock limit = true

/-- The programs that are started come to an end, and their pipes do. -/
def Ends (system : System) : Prop :=
  ∀ files calls call started, system files calls call = .ok started →
    started.child.ending ≠ none ∧ ¬started.child.KeepsOpen call

variable {system : System} {files : FileSystem} {calls : List Invocation} {call : Invocation}
  {started : Started} {cause : SystemFault} {limit : Duration} {breakdown : Breakdown}

/-- Nobody waits for ever where all programs and pipes come to an end. -/
theorem Ends.not_hangs (h : system.Ends) (hstarted : system files calls call = .ok started) :
    ¬started.child.Hangs call := by
  obtain ⟨hending, hcloses⟩ := h files calls call started hstarted
  rintro (⟨-, hnever⟩ | ⟨code, -, hopen⟩)
  · exact hending hnever
  · exact hcloses hopen

/-- A program that is refused gives nothing and changes no file. -/
theorem runner_refused (h : system files calls call = .error cause) :
    (system.runner files calls call).files = files ∧
      (system.runner files calls call).result =
        .ok (.error (.notStarted call.program cause)) := by
  unfold runner
  rw [h]
  exact ⟨rfl, rfl⟩

/-- A program that is started gives what becomes of it. -/
theorem runner_started (h : system files calls call = .ok started) :
    (system.runner files calls call).result = (call.run (.ok started.child)).result := by
  unfold runner
  rw [h]

/-- A call breaks down only if its program was started, and then because the clock has no room
for the deadline or the waiting never ends. -/
theorem runner_error (h : (system.runner files calls call).result = .error breakdown) :
    ∃ started, system files calls call = .ok started ∧
      ((breakdown = .clockOverflow ∧ ∃ limit, call.limit = some limit ∧
        started.child.passesClock limit = true) ∨
      breakdown = .endless ∧ started.child.Hangs call) := by
  cases hanswer : system files calls call with
  | error cause =>
    rw [(runner_refused hanswer).2] at h
    cases h
  | ok started =>
    rw [runner_started hanswer] at h
    exact ⟨started, rfl, Invocation.run_error h⟩

/-- A call breaks down as soon as its program is started if the clock has no room for the
deadline. -/
theorem runner_overflow (h : system files calls call = .ok started)
    (hlimit : call.limit = some limit) (hpasses : started.child.passesClock limit = true) :
    (system.runner files calls call).result = .error .clockOverflow :=
  (runner_started h).trans (Invocation.run_overflow hlimit hpasses)

end FlameFold.Program.System
