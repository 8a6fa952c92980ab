import FlameFold.Proofs.Session.Step

/-!
# What a step asks its runner

A step that calls programs hangs on what its runner answers. Another runner that gives the same
answers to what the step asks brings it to the same end. Where the first runner breaks down, that
call is the last thing that the step does, and the other runner may answer it as it likes: the
step gets there all the same. So what a step asks, and where it breaks down, is known from the
runners that it cannot tell apart until then. What a call is asked with depends on the files that
the steps before it leave; a property of these files is kept from one step to the next.
-/

namespace FlameFold

variable {kept : FileSystem → Prop} {asked : FileSystem → Program.Invocation → Prop}
  {runner other : Runner}

/-- The runners answer these calls in these files alike. -/
def Runner.Alike (asked : FileSystem → Program.Invocation → Prop) (runner other : Runner) : Prop :=
  ∀ files calls invocation, asked files invocation →
    other files calls invocation = runner files calls invocation

/-- Where the runner does not break down in one of these calls, the other one answers alike. -/
def Runner.Agrees (asked : FileSystem → Program.Invocation → Prop) (runner other : Runner) : Prop :=
  ∀ files calls invocation answer, asked files invocation →
    (runner files calls invocation).result = .ok answer →
      other files calls invocation = runner files calls invocation

/-- A runner that always answers alike does so where there is an answer. -/
theorem Runner.Alike.agrees (h : runner.Alike asked other) : runner.Agrees asked other :=
  fun files calls invocation _ hasked _ => h files calls invocation hasked

/-- The runner that breaks down where the given one does, but leaves everything there as it is. -/
def Runner.halting (runner : Runner) : Runner := fun files calls invocation =>
  match (runner files calls invocation).result with
  | .ok _ => runner files calls invocation
  | .error breakdown => ⟨files, [], ⟨0⟩, .error breakdown⟩

/-- Where the given runner answers, this one does so too. -/
theorem Runner.agrees_halting (asked : FileSystem → Program.Invocation → Prop) (runner : Runner) :
    runner.Agrees asked runner.halting := by
  intro files calls invocation answer hasked hanswer
  rw [halting, hanswer]

/-- No program makes files of another kind of files of this kind. -/
def Runner.Keeping (kept : FileSystem → Prop) (runner : Runner) : Prop :=
  ∀ files calls invocation, kept files → kept (runner files calls invocation).files

namespace Step

variable {α β : Type} {step first second : Step α} {next further : α → Step β}

/-- From a session on, the step asks its runner for these calls in these files alone: with any
runner that answers them alike it comes to the same. -/
def AsksOnly (asked : FileSystem → Program.Invocation → Prop) (step : Runner → Step α)
    (runner : Runner) (before : Session) : Prop :=
  ∀ other, runner.Alike asked other → step other before = step runner before

/-- A step with one runner and the same step with another one, from files of this kind. -/
structure Alike (kept : FileSystem → Prop) (asked : FileSystem → Program.Invocation → Prop)
    (runner other : Runner) (first second : Step α) : Prop where
  /-- Where the first one ends, the second one comes to the same. -/
  same : ∀ (before : Session) result after, kept before.files →
    first before = .ok result after → second before = .ok result after
  /-- It leaves such files. -/
  keeps : ∀ (before : Session) result after, kept before.files →
    first before = .ok result after → kept after.files
  /-- Where it breaks down, it does so in one of these calls, and it is its last step. The second
  one gets to this call as well, and breaks down if its own runner does so there. -/
  breaks : ∀ (before : Session) breakdown after, kept before.files →
    first before = .error breakdown after →
      ∃ (middle : Session) (invocation : Program.Invocation), asked middle.files invocation ∧
        Session.call runner invocation middle = .error breakdown after ∧
        ∀ fault left, Session.call other invocation middle = .error fault left →
          second before = .error fault left

/-- With a runner that answers all of these calls alike, the step comes to the same. -/
theorem Alike.eq (h : Alike kept asked runner other first second)
    (halike : runner.Alike asked other) {before : Session} (hbefore : kept before.files) :
    second before = first before := by
  cases hfirst : first before with
  | ok result after => exact h.same before result after hbefore hfirst
  | error breakdown after =>
    obtain ⟨middle, invocation, hasked, hcall, hsecond⟩ :=
      h.breaks before breakdown after hbefore hfirst
    have hreply := halike middle.files middle.calls invocation hasked
    refine hsecond breakdown after ?_
    simpa only [Session.call, hreply] using hcall

/-- A step that calls no program is the same with every runner. -/
theorem Alike.of_gives (h : ∀ before : Session, kept before.files →
    ∃ result files, step.Gives before result files ∧ kept files) :
    Alike kept asked runner other step step where
  same _ _ _ _ hstep := hstep
  keeps before result after hbefore hstep := by
    obtain ⟨given, files, hgives, hkept⟩ := h before hbefore
    rw [(hgives.of_ok hstep).2]
    exact hkept
  breaks before breakdown after hbefore hstep := by
    obtain ⟨given, files, ⟨ended, hended, -⟩, -⟩ := h before hbefore
    rw [hstep] at hended
    cases hended

/-- So is one that leaves the files as they are. -/
theorem Alike.of_leaves (h : ∀ before : Session, ∃ result, step.Gives before result before.files) :
    Alike kept asked runner other step step :=
  .of_gives fun before hbefore => (h before).imp fun _ hgives => ⟨before.files, hgives, hbefore⟩

theorem pure_alike (result : α) :
    Alike kept asked runner other (pure result : Step α) (pure result) :=
  .of_leaves fun before => ⟨_, pure_gives result before⟩

theorem note_alike (level : Log.Level) (area : Log.Area) (text : String) :
    Alike kept asked runner other (Session.note level area text) (Session.note level area text) :=
  .of_leaves fun before => ⟨_, note_gives level area text before⟩

theorem view_alike (look : FileSystem → α) :
    Alike kept asked runner other (Session.view look) (Session.view look) :=
  .of_leaves fun before => ⟨_, view_gives look before⟩

/-- The call of a program is a question. -/
theorem call_alike {invocation : Program.Invocation} (hrunner : runner.Keeping kept)
    (hagrees : runner.Agrees asked other) (h : ∀ files, kept files → asked files invocation) :
    Alike kept asked runner other (Session.call runner invocation)
      (Session.call other invocation) where
  same before result after hbefore hcall := by
    have hanswer := call_ok hcall
    have hreply := hagrees _ _ _ result (h before.files hbefore) hanswer
    simpa only [Session.call, hreply] using hcall
  keeps before result after hbefore hcall := by
    unfold Session.call at hcall
    dsimp only at hcall
    split at hcall
    · cases hcall
      exact hrunner _ _ _ hbefore
    · cases hcall
  breaks before breakdown after hbefore hcall :=
    ⟨before, invocation, h before.files hbefore, hcall, fun _ _ hother => hother⟩

/-- Where a call breaks down, the halting runner leaves the session as it was. -/
theorem call_halting {before after : Session} {invocation : Program.Invocation}
    {breakdown : Breakdown} (h : Session.call runner invocation before = .error breakdown after) :
    Session.call runner.halting invocation before =
      .error breakdown { before with calls := before.calls ++ [invocation] } := by
  have hbreak := call_error h
  simp [Session.call, Runner.halting, hbreak]

/-- Steps that come to the same may be followed by steps that come to the same, from whatever the
first of them gives. -/
theorem Alike.bind_of_ok (h : Alike kept asked runner other first second)
    (hnext : ∀ (before middle : Session) result, first before = .ok result middle →
      Alike kept asked runner other (next result) (further result)) :
    Alike kept asked runner other (first >>= next) (second >>= further) where
  same before answer after hbefore hstep := by
    obtain ⟨result, middle, hfirst, hrest⟩ := of_bind_ok hstep
    have hmiddle := h.keeps before result middle hbefore hfirst
    refine (bind_ok (h.same before result middle hbefore hfirst)).trans ?_
    exact (hnext before middle result hfirst).same middle answer after hmiddle hrest
  keeps before answer after hbefore hstep := by
    obtain ⟨result, middle, hfirst, hrest⟩ := of_bind_ok hstep
    have hmiddle := h.keeps before result middle hbefore hfirst
    exact (hnext before middle result hfirst).keeps middle answer after hmiddle hrest
  breaks before breakdown after hbefore hstep := by
    cases hfirst : first before with
    | error found left =>
      rw [bind_error hfirst] at hstep
      obtain ⟨rfl, rfl⟩ := EStateM.Result.error.inj hstep
      obtain ⟨middle, invocation, hasked, hcall, hsecond⟩ :=
        h.breaks before found left hbefore hfirst
      exact ⟨middle, invocation, hasked, hcall, fun fault left hother =>
        bind_error (hsecond fault left hother)⟩
    | ok result middle =>
      rw [bind_ok hfirst] at hstep
      have hmiddle := h.keeps before result middle hbefore hfirst
      obtain ⟨last, invocation, hasked, hcall, hfurther⟩ :=
        (hnext before middle result hfirst).breaks middle breakdown after hmiddle hstep
      refine ⟨last, invocation, hasked, hcall, fun fault left hother => ?_⟩
      exact (bind_ok (h.same before result middle hbefore hfirst)).trans
        (hfurther fault left hother)

theorem Alike.bind (h : Alike kept asked runner other first second)
    (hnext : ∀ result, Alike kept asked runner other (next result) (further result)) :
    Alike kept asked runner other (first >>= next) (second >>= further) :=
  h.bind_of_ok fun _ _ result _ => hnext result

end Step

end FlameFold
