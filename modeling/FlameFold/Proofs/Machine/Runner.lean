import FlameFold.Machine.Runner
import FlameFold.Proofs.CommandLine.Converting

/-!
# When a machine breaks down

The programs of a machine close their pipes when they end. So a call is waited for without end only
if it has no limit and its program never ends, and with a limit it has an answer as long as the
clock has room for the deadline. Command lines with such a limit complete.
-/

namespace FlameFold.Machine

variable {files : FileSystem} {calls : List Program.Invocation} {call : Program.Invocation}
  {started : Program.Started} {limit : Duration} {breakdown : Breakdown}

/-- What is started on a machine is known by its end and what it leaves. -/
theorem system_started (h : system files calls call = .ok started) :
    ∃ status left, started.child = child status left := by
  unfold system at h
  cases hresolve : resolve files call.program call.arguments with
  | error cause =>
    rw [hresolve] at h
    cases h
  | ok found =>
    rw [hresolve] at h
    dsimp only at h
    cases hlaunch : Shell.launch found
        (.start files (call.input.getD []) (call.limit.map lastLook)) with
    | mk status left =>
      rw [hlaunch] at h
      refine ⟨status, left, ?_⟩
      dsimp only at h
      split at h
      all_goals
        cases h
        rfl

/-- The pipes of a program are closed when it ends. -/
theorem child_closes (status : Status) (left : Shell.State) (call : Program.Invocation) :
    ¬(child status left).KeepsOpen call := by
  simp [Program.Child.KeepsOpen, child]

/-- The clock has room for a deadline of as many seconds as are left of it. -/
theorem child_passesClock (status : Status) (left : Shell.State) (n : Nat) :
    (child status left).passesClock (.ofSeconds n) = decide (9223372036853911807 < n) := by
  have hsum : (uptime.nanoseconds + (Duration.ofSeconds n).nanoseconds) / Duration.second =
      864000 + n := by
    simp only [uptime, Duration.ofSeconds, Duration.second]
    omega
  have hdeadline : (child status left).watch.deadline (.ofSeconds n) =
      uptime.nanoseconds + (Duration.ofSeconds n).nanoseconds := rfl
  have hlast : (child status left).lastSecond = 9223372036854775807 := rfl
  rw [Program.Child.passesClock, hdeadline, hsum, hlast]
  apply decide_eq_decide.mpr
  omega

/-- A machine breaks down in a call only if the clock has no room for its deadline, or there is no
limit and the program never ends. -/
theorem runner_error (h : (runner files calls call).result = .error breakdown) :
    (breakdown = .clockOverflow ∧ ∃ limit, call.limit = some limit ∧
      ∃ status left, (child status left).passesClock limit = true) ∨
    breakdown = .endless ∧ call.limit = none := by
  obtain ⟨started, hstarted, hwhy⟩ := Program.System.runner_error h
  obtain ⟨status, left, hchild⟩ := system_started hstarted
  rw [hchild] at hwhy
  obtain ⟨hoverflow, limit, hlimit, hpasses⟩ | ⟨hendless, hhangs⟩ := hwhy
  · exact .inl ⟨hoverflow, limit, hlimit, status, left, hpasses⟩
  · obtain ⟨hlimit, -⟩ | ⟨code, -, hopen⟩ := hhangs
    · exact .inr ⟨hendless, hlimit⟩
    · exact absurd hopen (child_closes status left call)

/-- With a limit that the clock has room for, a machine answers every call. -/
theorem runner_answers {n : Nat} (hlimit : call.limit = some (.ofSeconds n))
    (h : n ≤ 9223372036853911807) (files : FileSystem) (calls : List Program.Invocation) :
    ∃ answer, (runner files calls call).result = .ok answer := by
  cases hresult : (runner files calls call).result with
  | ok answer => exact ⟨answer, rfl⟩
  | error breakdown =>
    obtain ⟨-, limit, hsome, status, left, hpasses⟩ | ⟨-, hnone⟩ := runner_error hresult
    · obtain rfl : Duration.ofSeconds n = limit := Option.some.inj (hlimit.symm.trans hsome)
      rw [child_passesClock, decide_eq_true_iff] at hpasses
      exact absurd hpasses (by omega)
    · rw [hlimit] at hnone
      cases hnone

/-- On a machine a command line that can start completes with any limit that the clock has room
for. -/
theorem converts_completes {around : CommandLine.Surroundings} {words : List String}
    {request : CommandLine.Request} {settings : Settings} {n : Nat}
    (h : CommandLine.Converts around files words request settings)
    (hrunner : around.runner = runner) (hlimit : settings.timeout = some (.ofSeconds n))
    (hroom : n ≤ 9223372036853911807) :
    ∃ summary, CommandLine.Completes around files words request settings summary := by
  refine h.completes_of_answers fun call hcall => ?_
  rw [hrunner]
  exact runner_answers (hcall.limit.trans hlimit) hroom

end FlameFold.Machine
