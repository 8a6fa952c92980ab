import FlameFold.Program.Invocation

/-!
# Deadlines

A program that may run for a limited time is looked at again and again, with a pause
after each look, until it has ended or a reading of the clock has reached the deadline.
Every look comes before the reading that could give up, so a program found ended counts as
ended, however late the look comes.
-/

namespace FlameFold.Program

/-- What one look at a program finds. -/
inductive Poll (σ : Type) where
  /-- It is still running. -/
  | running
  /-- It has ended in this way. -/
  | ended (status : σ)
  /-- It could not be looked at. -/
  | failed (cause : SystemFault)
  deriving DecidableEq, Repr

/-- The pause between two looks. -/
def pollInterval : Duration := .ofMilliseconds 50

/-- A program that is being watched: what each look finds, and the reading of the
clock that follows it, in nanoseconds. -/
structure Watch (σ : Type) where
  /-- The reading of the clock before the first look. -/
  start : Nat
  /-- What the looks find. -/
  poll : Nat → Poll σ
  /-- The readings of the clock after the looks. -/
  clock : Nat → Nat
  /-- The clock does not go back before the first reading. -/
  start_le : start ≤ clock 0
  /-- A pause lies between two readings. -/
  advances : ∀ n, clock n + pollInterval.nanoseconds ≤ clock (n + 1)

/-- How a watch ended. -/
structure Watched (σ : Type) where
  /-- The number of looks. -/
  polls : Nat
  /-- How the program ended, nothing if it was running at the deadline. -/
  result : Except SystemFault (Option σ)

namespace Watch

/-- The reading of the clock at which a watch gives up. -/
def deadline (watch : Watch σ) (limit : Duration) : Nat :=
  watch.start + limit.nanoseconds

/-- Look at the program from the look `n` on. -/
def waitFrom (watch : Watch σ) (deadline n : Nat) : Watched σ :=
  match watch.poll n with
  | .ended status => ⟨n + 1, .ok (some status)⟩
  | .failed cause => ⟨n + 1, .error cause⟩
  | .running =>
    if deadline ≤ watch.clock n then ⟨n + 1, .ok none⟩
    else watch.waitFrom deadline (n + 1)
  termination_by deadline - watch.clock n
  decreasing_by
    have step := watch.advances n
    have pause : pollInterval.nanoseconds = 50 * 1000000 := rfl
    omega

/-- Wait for the program to end, no longer than the limit. -/
def wait (watch : Watch σ) (limit : Duration) : Watched σ :=
  watch.waitFrom (watch.deadline limit) 0

end Watch

/-- What a watch says of the call that was watched. -/
def Invocation.settle (call : Invocation) (limit : Duration) :
    Except SystemFault (Option σ) → Except Failure σ
  | .ok (some status) => .ok status
  | .ok none => .error (.timedOut call.program limit)
  | .error cause => .error (.broken call.program cause)

end FlameFold.Program
