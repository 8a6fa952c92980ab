import FlameFold.Machine.Shell.Run
import FlameFold.Program.System

/-!
# The runner of a machine

A machine is a system with a small set of programs. It starts the program of a call if it finds
it, and runs it to its end or until its limit is over. Its programs close their pipes when they
end, possibly without having read all of their input. The shell and the tools are there to try
command lines out; what is proved of calls is proved of every system.
-/

namespace FlameFold.Machine

/-- How many bytes can wait between two programs. -/
def pipeSize : Nat := 65536

/-- For how long the machine has run. -/
def uptime : Duration := .ofSeconds 864000

/-- The largest number of seconds that the clock can show. -/
def lastSecond : Nat := Nat.pow 2 63 - 1

/-- The time of the first look that is followed by giving up. -/
def lastLook (limit : Duration) : Nat :=
  (limit.nanoseconds + Program.pollInterval.nanoseconds - 1) /
    Program.pollInterval.nanoseconds * Program.pollInterval.nanoseconds

/-- The watch of a program that runs for the given time, or for ever. -/
def watch (status : σ) (duration : Option Nat) : Program.Watch σ where
  start := uptime.nanoseconds
  poll n :=
    if duration.any (· < n * Program.pollInterval.nanoseconds) then .ended status else .running
  clock n := uptime.nanoseconds + n * Program.pollInterval.nanoseconds
  start_le := by omega
  advances n := by rw [Nat.add_mul]; omega

/-- The exit code of a program that has ended. -/
def exitCode : Status → Option Int
  | .exited code => some code
  | .killed _ => none
  | .endless => none

/-- A program on the machine, by its end and what it left. -/
def child (status : Status) (left : Shell.State) : Program.Child where
  watch := watch (exitCode status) (if status = .endless then none else some left.slept)
  lastSecond := lastSecond
  ending := if status = .endless then none else some (.ok (exitCode status))
  fed := some (if pipeSize < left.input.length then .error .brokenPipe else .ok ())
  written := some (.ok (left.stream false))
  complaints := some (.ok (left.stream true))

/-- How long a program is waited for that takes this time. -/
def waited (call : Program.Invocation) (child : Program.Child) (slept : Nat) : Duration :=
  match call.limit with
  | none => ⟨slept⟩
  | some limit =>
    ⟨((child.watch.wait limit).polls - 1) * Program.pollInterval.nanoseconds⟩

/-- The programs of the machine. A call that breaks down leaves the files as they were. -/
def system : Program.System := fun files _ call =>
  match resolve files call.program call.arguments with
  | .error cause => .error cause
  | .ok found =>
    let before := Shell.State.start files (call.input.getD []) (call.limit.map lastLook)
    let (status, left) := Shell.launch found before
    let started := child status left
    match (call.run (.ok started)).result with
    | .error _ => .ok ⟨started, files, ⟨0⟩⟩
    | .ok _ => .ok ⟨started, { left.files with here := files.here },
        waited call started left.slept⟩

/-- The runner that runs programs on the machine. -/
def runner : Runner := system.runner

end FlameFold.Machine
