import FlameFold.Program.Deadline
import Mathlib.Algebra.Order.Floor.Div

/-!
# Waiting no longer than a limit

Between two looks at a program the clock goes on by a pause at least, so after as many looks as
the limit has pauses it shows the deadline, whatever the program does. Until then the waiting
depends on nothing but the next look: a program that has ended or that cannot be looked at
decides it at once, and a running one only by the reading of the clock that follows.
-/

namespace FlameFold.Program.Watch

variable {watch : Watch σ} {limit : Duration} {deadline n : Nat}

/-- After a number of looks the clock has gone on by as many pauses. -/
theorem le_clock (watch : Watch σ) (n : Nat) :
    watch.start + n * pollInterval.nanoseconds ≤ watch.clock n := by
  induction n with
  | zero =>
    rw [Nat.zero_mul, Nat.add_zero]
    exact watch.start_le
  | succ n ih =>
    have hpause := watch.advances n
    rw [Nat.succ_mul]
    omega

/-- The looks before this one found the program running, each before the deadline. -/
def Pending (watch : Watch σ) (deadline n : Nat) : Prop :=
  ∀ m < n, watch.poll m = .running ∧ watch.clock m < deadline

/-- What a look makes of the waiting, if it is the last one. -/
def Decides (watch : Watch σ) (deadline n : Nat) : Except SystemFault (Option σ) → Prop
  | .ok (some status) => watch.poll n = .ended status
  | .ok none => watch.poll n = .running ∧ deadline ≤ watch.clock n
  | .error cause => watch.poll n = .failed cause

/-- A look decides the waiting, or it finds the program running before the deadline. -/
theorem decides_or_running (watch : Watch σ) (deadline n : Nat) :
    (∃ result, watch.Decides deadline n result) ∨
      (watch.poll n = .running ∧ watch.clock n < deadline) := by
  cases hpoll : watch.poll n with
  | ended status => exact .inl ⟨.ok (some status), hpoll⟩
  | failed cause => exact .inl ⟨.error cause, hpoll⟩
  | running =>
    by_cases hclock : deadline ≤ watch.clock n
    · exact .inl ⟨.ok none, hpoll, hclock⟩
    · exact .inr ⟨rfl, Nat.lt_of_not_le hclock⟩

/-- The look that decides the waiting is the last one. -/
theorem waitFrom_decides {result : Except SystemFault (Option σ)}
    (h : watch.Decides deadline n result) : watch.waitFrom deadline n = ⟨n + 1, result⟩ := by
  rw [waitFrom]
  match result, h with
  | .ok (some status), h => rw [show watch.poll n = .ended status from h]
  | .error cause, h => rw [show watch.poll n = .failed cause from h]
  | .ok none, ⟨hpoll, hclock⟩ =>
    rw [hpoll]
    exact if_pos hclock

/-- A program that is found running before the deadline is looked at again. -/
theorem waitFrom_running (hpoll : watch.poll n = .running) (hclock : watch.clock n < deadline) :
    watch.waitFrom deadline n = watch.waitFrom deadline (n + 1) := by
  rw [waitFrom, hpoll]
  exact if_neg (Nat.not_le.mpr hclock)

/-- A program that all the looks so far found running before the deadline is waited for from
here on. -/
theorem waitFrom_pending (h : watch.Pending deadline n) :
    watch.waitFrom deadline 0 = watch.waitFrom deadline n := by
  induction n with
  | zero => rfl
  | succ n ih =>
    obtain ⟨hpoll, hclock⟩ := h n (Nat.lt_succ_self n)
    rw [ih fun m hm => h m (Nat.lt_succ_of_lt hm), waitFrom_running hpoll hclock]

/-- Of as many looks as there are, one has decided the waiting, or all of them are followed by
another one. -/
theorem decided_or_pending (watch : Watch σ) (deadline n : Nat) :
    (∃ last < n, watch.Pending deadline last ∧ ∃ result, watch.Decides deadline last result) ∨
      watch.Pending deadline n := by
  induction n with
  | zero => exact .inr fun m hm => absurd hm (Nat.not_lt_zero m)
  | succ n ih =>
    obtain ⟨last, hlast, hdecided⟩ | hpending := ih
    · exact .inl ⟨last, Nat.lt_succ_of_lt hlast, hdecided⟩
    obtain hdecides | hrunning := decides_or_running watch deadline n
    · exact .inl ⟨n, Nat.lt_succ_self n, hpending, hdecides⟩
    · refine .inr fun m hm => ?_
      obtain hm | rfl := Nat.lt_succ_iff_lt_or_eq.mp hm
      · exact hpending m hm
      · exact hrunning

/-- The waiting is decided before more pauses are made than the limit has room for. -/
theorem exists_decides (watch : Watch σ) (limit : Duration) :
    ∃ last ≤ limit.nanoseconds ⌈/⌉ pollInterval.nanoseconds,
      watch.Pending (watch.deadline limit) last ∧
        ∃ result, watch.Decides (watch.deadline limit) last result := by
  obtain ⟨last, hlast, hdecided⟩ | hpending := decided_or_pending watch (watch.deadline limit)
    (limit.nanoseconds ⌈/⌉ pollInterval.nanoseconds)
  · exact ⟨last, hlast.le, hdecided⟩
  · refine ⟨_, le_rfl, hpending, ?_⟩
    -- so many pauses bring the clock to the deadline, so the program is not looked at again
    have hpause : 0 < pollInterval.nanoseconds := by decide
    have hpauses : limit.nanoseconds ≤
        pollInterval.nanoseconds • (limit.nanoseconds ⌈/⌉ pollInterval.nanoseconds) :=
      le_smul_ceilDiv hpause
    rw [smul_eq_mul, Nat.mul_comm] at hpauses
    have hclock := watch.le_clock (limit.nanoseconds ⌈/⌉ pollInterval.nanoseconds)
    obtain hdecides | ⟨-, hearly⟩ := decides_or_running watch (watch.deadline limit)
      (limit.nanoseconds ⌈/⌉ pollInterval.nanoseconds)
    · exact hdecides
    · rw [deadline] at hearly
      omega

/-- The waiting ends with the look that decides it, and as it decides. -/
theorem wait_decides {result : Except SystemFault (Option σ)}
    (hpending : watch.Pending (watch.deadline limit) n)
    (h : watch.Decides (watch.deadline limit) n result) :
    watch.wait limit = ⟨n + 1, result⟩ := by
  rw [wait, waitFrom_pending hpending, waitFrom_decides h]

/-- The waiting ends with a look exactly if this is the one that decides it, and as it decides. -/
theorem wait_eq_iff {result : Except SystemFault (Option σ)} :
    watch.wait limit = ⟨n + 1, result⟩ ↔ watch.Pending (watch.deadline limit) n ∧
      watch.Decides (watch.deadline limit) n result := by
  refine ⟨fun h => ?_, fun h => wait_decides h.1 h.2⟩
  obtain ⟨last, -, hpending, found, hdecides⟩ := exists_decides watch limit
  rw [wait_decides hpending hdecides] at h
  obtain ⟨hlast, rfl⟩ := Watched.mk.inj h
  obtain rfl := Nat.succ.inj hlast
  exact ⟨hpending, hdecides⟩

/-- How a program is waited for that may run for a limited time. -/
structure Kept (watch : Watch σ) (limit : Duration) (watched : Watched σ) : Prop where
  /-- It is looked at, but not more often than the limit has pauses, and once more. -/
  bounded : 0 < watched.polls ∧
    watched.polls ≤ limit.nanoseconds ⌈/⌉ pollInterval.nanoseconds + 1
  /-- The first look that finds it ended is the last one, if it comes to this look; what the
  clock shows then does not matter. -/
  ended : ∀ n status, watched = ⟨n + 1, .ok (some status)⟩ ↔
    watch.Pending (watch.deadline limit) n ∧ watch.poll n = .ended status
  /-- A look that fails is the last one. -/
  failed : ∀ n cause, watched = ⟨n + 1, .error cause⟩ ↔
    watch.Pending (watch.deadline limit) n ∧ watch.poll n = .failed cause
  /-- A look that finds it running is the last one only if the clock shows the deadline after
  that. -/
  gaveUp : ∀ n, watched = ⟨n + 1, .ok none⟩ ↔
    watch.Pending (watch.deadline limit) n ∧
      watch.poll n = .running ∧ watch.deadline limit ≤ watch.clock n

/-- The limit is kept, whatever the program does and however fast the clock goes. -/
theorem wait_kept (watch : Watch σ) (limit : Duration) :
    watch.Kept limit (watch.wait limit) where
  bounded := by
    obtain ⟨last, hlast, hpending, result, hdecides⟩ := exists_decides watch limit
    rw [wait_decides hpending hdecides]
    exact ⟨Nat.succ_pos last, Nat.succ_le_succ hlast⟩
  ended _ _ := wait_eq_iff
  failed _ _ := wait_eq_iff
  gaveUp _ := wait_eq_iff

/-- A program that is running at the first look, and has ended by the second one, a second
later. -/
def sluggish : Watch Nat where
  start := 0
  poll n := if n = 0 then .running else .ended 7
  clock n := n * 1000000000
  start_le := le_rfl
  advances n := by
    have hpause : pollInterval.nanoseconds = 50000000 := rfl
    omega

/-- It counts as ended, although the second look comes after the deadline. -/
example : (sluggish.wait (.ofMilliseconds 60)).polls = 2 ∧
    (sluggish.wait (.ofMilliseconds 60)).result = .ok (some 7) := by
  cbv

end FlameFold.Program.Watch
