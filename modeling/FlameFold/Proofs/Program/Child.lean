import FlameFold.Program.Child
import FlameFold.Proofs.Program.Deadline
import FlameFold.Proofs.Session.Step

/-!
# What becomes of a call

A program that was started is waited for as its call says. The call breaks down only where the
waiting for the program or for its pipes never comes to an end, or cannot begin because the clock
has no room for the deadline. It tells of a limit that is over exactly if the program was running
at its last look, and then of the limit that the call has.
-/

namespace FlameFold.Program

variable {call : Invocation} {child : Child} {started : Except SystemFault Child}
  {limit : Duration} {program : String} {breakdown : Breakdown}

/-- Waiting breaks down without a limit if the program never ends, and with a limit if the clock
has no room for the deadline. -/
theorem Child.await_error_iff : child.await call = .error breakdown ↔
    (call.limit = none ∧ child.ending = none ∧ breakdown = .endless) ∨
      ∃ limit, call.limit = some limit ∧ child.passesClock limit = true ∧
        breakdown = .clockOverflow := by
  unfold await
  cases call.limit with
  | none =>
    cases child.ending with
    | none => simpa using eq_comm
    | some ended => cases ended <;> simp
  | some limit =>
    by_cases hpasses : child.passesClock limit = true
    · simpa [hpasses] using eq_comm
    · simp [hpasses]

/-- What a program comes to that was watched in vain. -/
theorem Invocation.settle_timedOut_iff {found : Duration} {result : Except SystemFault (Option σ)} :
    call.settle found result = .error (.timedOut program limit) ↔
      program = call.program ∧ limit = found ∧ result = .ok none := by
  match result with
  | .ok (some status) => simp [settle]
  | .ok none => simp [settle, eq_comm]
  | .error cause => simp [settle]

/-- Waiting gives up at the limit of the call, if the program was watched in vain. -/
theorem Child.await_timedOut_iff : child.await call = .ok (.error (.timedOut program limit)) ↔
    program = call.program ∧ call.limit = some limit ∧ child.passesClock limit = false ∧
      (child.watch.wait limit).result = .ok none := by
  unfold await
  cases call.limit with
  | none =>
    cases child.ending with
    | none => simp
    | some ended => cases ended <;> simp
  | some found =>
    by_cases hpasses : child.passesClock found = true
    · simp only [if_pos hpasses, reduceCtorEq, false_iff, Option.some.injEq]
      rintro ⟨-, rfl, hroom, -⟩
      exact absurd (hpasses.symm.trans hroom) (by decide)
    · simp only [if_neg hpasses, Except.ok.injEq, Invocation.settle_timedOut_iff,
        Option.some.injEq]
      constructor
      · rintro ⟨hprogram, rfl, hresult⟩
        exact ⟨hprogram, rfl, by simpa using hpasses, hresult⟩
      · rintro ⟨hprogram, rfl, -, hresult⟩
        exact ⟨hprogram, rfl, hresult⟩

/-- Nothing that a program has given tells of a limit that is over. -/
theorem Child.collect_ne_timedOut {code : Option Int} {records : List Log.Record} :
    child.collect call code ≠ .ok (records, .error (.timedOut program limit)) := by
  intro h
  unfold collect at h
  obtain ⟨early, -, h⟩ := ok_of_bind h
  cases early with
  | error cause => cases h
  | ok early =>
    obtain ⟨output, -, h⟩ := ok_of_bind h
    cases output <;> cases h

/-- A pipe to or from the program is never closed. -/
def Child.KeepsOpen (child : Child) (call : Invocation) : Prop :=
  (call.input.isSome = true ∧ child.fed = none) ∨ child.written = none ∨ child.complaints = none

/-- What is waited for without end never comes. -/
theorem Child.arrived_error {α : Type} {awaited : Option α}
    (h : arrived awaited = .error breakdown) : breakdown = .endless ∧ awaited = none := by
  cases awaited with
  | none =>
    cases h
    exact ⟨rfl, rfl⟩
  | some awaited => cases h

/-- Handing over the input goes on for ever only where there is some and nobody closes the pipe. -/
theorem Child.closedEarly_error (h : child.closedEarly call = .error breakdown) :
    breakdown = .endless ∧ call.input.isSome = true ∧ child.fed = none := by
  unfold closedEarly at h
  cases hinput : call.input with
  | none =>
    rw [hinput] at h
    cases h
  | some input =>
    rw [hinput] at h
    obtain hfed | ⟨fed, -, h⟩ := error_of_bind h
    · exact ⟨(arrived_error hfed).1, rfl, (arrived_error hfed).2⟩
    · cases fed <;> cases h

/-- Taking the output goes on for ever only where nobody closes one of the two pipes. -/
theorem Child.output_error {code : Option Int} (h : child.output code = .error breakdown) :
    breakdown = .endless ∧ (child.written = none ∨ child.complaints = none) := by
  unfold output at h
  obtain hwritten | ⟨written, -, h⟩ := error_of_bind h
  · exact ⟨(arrived_error hwritten).1, .inl (arrived_error hwritten).2⟩
  · cases written with
    | error cause => cases h
    | ok written =>
      obtain hcomplaints | ⟨complaints, -, h⟩ := error_of_bind h
      · exact ⟨(arrived_error hcomplaints).1, .inr (arrived_error hcomplaints).2⟩
      · cases complaints <;> cases h

/-- Taking what a program gave goes on for ever only where a pipe is never closed. -/
theorem Child.collect_error {code : Option Int} (h : child.collect call code = .error breakdown) :
    breakdown = .endless ∧ child.KeepsOpen call := by
  unfold collect at h
  obtain hearly | ⟨early, -, h⟩ := error_of_bind h
  · obtain ⟨hendless, hfed⟩ := closedEarly_error hearly
    exact ⟨hendless, .inl hfed⟩
  · cases early with
    | error cause => cases h
    | ok early =>
      obtain houtput | ⟨output, -, h⟩ := error_of_bind h
      · obtain ⟨hendless, hpipes⟩ := output_error houtput
        exact ⟨hendless, .inr hpipes⟩
      · cases output <;> cases h

/-- Waiting for the program or for its pipes goes on for ever: it never ends and there is no limit,
or it is found ended and a pipe is never closed. -/
def Child.Hangs (child : Child) (call : Invocation) : Prop :=
  (call.limit = none ∧ child.ending = none) ∨
    ∃ code, child.await call = .ok (.ok code) ∧ child.KeepsOpen call

/-- What the call of a started program comes to, by the waiting for it. -/
theorem Invocation.run_started (call : Invocation) (child : Child) :
    (call.run (.ok child)).result = match child.await call with
      | .error breakdown => .error breakdown
      | .ok (.error failure) => .ok (.error failure)
      | .ok (.ok code) => (child.collect call code).map Prod.snd := by
  rw [run]
  cases child.await call with
  | error breakdown => rfl
  | ok answer =>
    cases answer with
    | error failure => rfl
    | ok code => cases hcollect : child.collect call code <;> simp [hcollect, Except.map]

/-- The call of a started program breaks down only where the clock has no room for its deadline, or
waiting goes on for ever. -/
theorem Invocation.run_error (h : (call.run (.ok child)).result = .error breakdown) :
    (breakdown = .clockOverflow ∧ ∃ limit, call.limit = some limit ∧
      child.passesClock limit = true) ∨ breakdown = .endless ∧ child.Hangs call := by
  rw [run_started] at h
  cases hawait : child.await call with
  | error found =>
    rw [hawait] at h
    cases h
    obtain ⟨hlimit, hending, rfl⟩ | ⟨limit, hlimit, hpasses, rfl⟩ :=
      Child.await_error_iff.mp hawait
    · exact .inr ⟨rfl, .inl ⟨hlimit, hending⟩⟩
    · exact .inl ⟨rfl, limit, hlimit, hpasses⟩
  | ok answer =>
    rw [hawait] at h
    cases answer with
    | error failure => cases h
    | ok code =>
      cases hcollect : child.collect call code with
      | ok given =>
        simp only [hcollect] at h
        cases h
      | error found =>
        simp only [hcollect] at h
        cases h
        obtain ⟨rfl, hopen⟩ := Child.collect_error hcollect
        exact .inr ⟨rfl, .inr ⟨code, hawait, hopen⟩⟩

/-- A call whose deadline the clock has no room for breaks down as soon as its program is
started. -/
theorem Invocation.run_overflow (hlimit : call.limit = some limit)
    (hpasses : child.passesClock limit = true) :
    (call.run (.ok child)).result = .error .clockOverflow := by
  have hawait : child.await call = .error .clockOverflow :=
    Child.await_error_iff.mpr (.inr ⟨limit, hlimit, hpasses, rfl⟩)
  rw [run_started, hawait]

/-- A call tells of a limit that is over exactly if it is that of the call and the started program
was watched in vain. -/
theorem Invocation.run_timedOut_iff :
    (call.run started).result = .ok (.error (.timedOut program limit)) ↔
      program = call.program ∧ call.limit = some limit ∧ ∃ child, started = .ok child ∧
        child.passesClock limit = false ∧ (child.watch.wait limit).result = .ok none := by
  cases started with
  | error cause => simp [run]
  | ok child =>
    simp only [Except.ok.injEq, exists_eq_left', ← Child.await_timedOut_iff]
    rw [run_started]
    cases hawait : child.await call with
    | error found => simp
    | ok answer =>
      cases answer with
      | error failure => simp
      | ok code =>
        simp only [reduceCtorEq, iff_false, Except.ok.injEq]
        intro h
        obtain ⟨⟨records, result⟩, hcollect, rfl⟩ := ok_of_map h
        exact Child.collect_ne_timedOut hcollect

/-- A program with a limit is watched until it is found ended, cannot be looked at or is found
running at the deadline, with no more pauses than the limit has room for. Its call tells of a
limit that is over exactly in the last case, and then of the limit that the call has. -/
theorem Invocation.run_limited (call : Invocation) :
    (∀ (child : Child) (limit : Duration), child.watch.Kept limit (child.watch.wait limit)) ∧
    ∀ started program limit,
      (call.run started).result = .ok (.error (.timedOut program limit)) ↔
        program = call.program ∧ call.limit = some limit ∧ ∃ child, started = .ok child ∧
          child.passesClock limit = false ∧ (child.watch.wait limit).result = .ok none :=
  ⟨fun child limit => child.watch.wait_kept limit, fun _ _ _ => run_timedOut_iff⟩

end FlameFold.Program
