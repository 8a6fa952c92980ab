import FlameFold.Proofs.Except
import FlameFold.Session

/-!
# What a step of a run leaves

Most steps of a run look at the files, change them and write records, and call no program;
what such a step gives and the files that it leaves are said by one relation. A step that
calls programs ends in one of its courses unless the runner breaks down in it. Both are
carried from the steps to what is made of them.
-/

namespace FlameFold

/-- The runner brings every call to an end, well or not. -/
def Runner.Answers (runner : Runner) : Prop :=
  ∀ files calls invocation, ∃ answer, (runner files calls invocation).result = .ok answer

/-- The programs called change no file. -/
def Runner.KeepsFiles (runner : Runner) : Prop :=
  ∀ files calls invocation, (runner files calls invocation).files = files

namespace Runner

variable (answers : List (Program.Invocation → Except Program.Failure Program.Output))

/-- Prepared answers come from no program that could change a file. -/
theorem prepared_keepsFiles : (prepared answers).KeepsFiles := fun _ _ _ => rfl

end Runner

end FlameFold

namespace FlameFold.Step

variable {α β : Type} {step : Step α} {next : α → Step β} {before middle after : Session}
  {result : α} {answer : β} {files left : FileSystem} {breakdown : Breakdown}

/-- A step that gives a result goes on with it. -/
theorem bind_ok (h : step before = .ok result middle) :
    (step >>= next) before = next result middle := by
  simp only [bind, EStateM.bind, h]

/-- A run that breaks down in its first step breaks down. -/
theorem bind_error (h : step before = .error breakdown middle) :
    (step >>= next) before = .error breakdown middle := by
  simp only [bind, EStateM.bind, h]

/-- A run that ends has ended its first step, and goes on from there. -/
theorem of_bind_ok (h : (step >>= next) before = .ok answer after) :
    ∃ result middle, step before = .ok result middle ∧ next result middle = .ok answer after := by
  cases hstep : step before with
  | ok result middle => exact ⟨result, middle, rfl, (bind_ok hstep).symm.trans h⟩
  | error breakdown middle =>
    rw [bind_error hstep] at h
    cases h

/-- What a step gives and the files that it leaves, if it ends. -/
def ends (step : Step α) (before : Session) : Option (α × FileSystem) :=
  match step before with
  | .ok result after => some (result, after.files)
  | .error _ _ => none

/-- A step that gives something has ended. -/
theorem exists_of_ends (h : step.ends before = some (result, files)) :
    ∃ after, step before = .ok result after ∧ after.files = files := by
  unfold ends at h
  split at h
  · next heq =>
    cases h
    exact ⟨_, heq, rfl⟩
  · cases h

/-- What is found in the value of a step and in the session that it leaves, if it ends well. -/
def found? {ε : Type} (step : Step (Except ε α)) (before : Session) (look : α → Session → β) :
    Option β :=
  match step before with
  | .ok (.ok value) after => some (look value after)
  | _ => none

/-- What is found is found after a step that has ended well. -/
theorem exists_of_found {ε : Type} {step : Step (Except ε α)} {look : α → Session → β} {found : β}
    (h : step.found? before look = some found) :
    ∃ value after, step before = .ok (.ok value) after ∧ look value after = found := by
  unfold found? at h
  split at h
  · next hstep => exact ⟨_, _, hstep, Option.some.inj h⟩
  · cases h

/-- The step gives `result`, leaves `files` and calls no program. -/
def Gives (step : Step α) (before : Session) (result : α) (files : FileSystem) : Prop :=
  ∃ after, step before = .ok result after ∧ after.files = files ∧ after.calls = before.calls

theorem pure_gives (result : α) (before : Session) :
    (pure result : Step α).Gives before result before.files :=
  ⟨before, rfl, rfl, rfl⟩

theorem view_gives (look : FileSystem → α) (before : Session) :
    (Session.view look).Gives before (look before.files) before.files :=
  ⟨before, rfl, rfl, rfl⟩

theorem setFiles_gives (files : FileSystem) (before : Session) :
    (Session.setFiles files).Gives before () files :=
  ⟨_, rfl, rfl, rfl⟩

theorem noteAll_gives (records : List Log.Record) (before : Session) :
    (Session.noteAll records).Gives before () before.files :=
  ⟨_, rfl, rfl, rfl⟩

theorem note_gives (level : Log.Level) (area : Log.Area) (text : String) (before : Session) :
    (Session.note level area text).Gives before () before.files :=
  noteAll_gives _ before

theorem printBytes_gives (bytes : List UInt8) (before : Session) :
    (Session.printBytes bytes).Gives before () before.files :=
  ⟨_, rfl, rfl, rfl⟩

theorem interject_gives (bytes : List UInt8) (before : Session) :
    (Session.interject bytes).Gives before () before.files :=
  ⟨_, rfl, rfl, rfl⟩

theorem timeWaited_gives (before : Session) :
    Session.timeWaited.Gives before before.waited before.files :=
  ⟨before, rfl, rfl, rfl⟩

/-- What follows a step starts from the files that the step leaves. -/
theorem Gives.bind (h : step.Gives before result files)
    (hnext : ∀ middle : Session, middle.files = files → (next result).Gives middle answer left) :
    (step >>= next).Gives before answer left := by
  obtain ⟨middle, hstep, hfiles, hcalls⟩ := h
  obtain ⟨after, hrest, hleft, hmore⟩ := hnext middle hfiles
  exact ⟨after, (bind_ok hstep).trans hrest, hleft, hmore.trans hcalls⟩

/-- A step that has ended gave what it gives, and left the files that it leaves. -/
theorem Gives.of_ok (h : step.Gives before result files) {found : α}
    (hstep : step before = .ok found after) : found = result ∧ after.files = files := by
  obtain ⟨ended, hended, hfiles, -⟩ := h
  rw [hstep] at hended
  cases hended
  exact ⟨rfl, hfiles⟩

/-- The step ends in one of the courses given, from the files and calls before it, or the
runner breaks down in it. -/
def Follows (runner : Runner) (step : Step α) (before : Session)
    (course : α → FileSystem → List Program.Invocation → Prop) : Prop :=
  (∃ result after, step before = .ok result after ∧ course result after.files after.calls) ∨
    ∃ breakdown after, step before = .error breakdown after ∧
      ∃ files calls invocation, (runner files calls invocation).result = .error breakdown

/-- A step that ends is in the last state of one of its courses. -/
theorem follows_pure {runner : Runner}
    {course : α → FileSystem → List Program.Invocation → Prop}
    (h : course result before.files before.calls) :
    Follows runner (pure result) before course :=
  .inl ⟨result, before, rfl, h⟩

/-- Courses are also courses of any kind that includes them. -/
theorem Follows.mono {runner : Runner}
    {first course : α → FileSystem → List Program.Invocation → Prop}
    (h : Follows runner step before first)
    (hincluded : ∀ result files calls, first result files calls → course result files calls) :
    Follows runner step before course :=
  h.imp_left fun ⟨result, after, hstep, hfirst⟩ =>
    ⟨result, after, hstep, hincluded _ _ _ hfirst⟩

/-- What follows a step that calls no program decides the course. -/
theorem Gives.follows {runner : Runner} {course : β → FileSystem → List Program.Invocation → Prop}
    (h : step.Gives before result files)
    (hnext : ∀ middle : Session, middle.files = files → middle.calls = before.calls →
      Follows runner (next result) middle course) :
    Follows runner (step >>= next) before course := by
  obtain ⟨middle, hstep, hfiles, hcalls⟩ := h
  rw [Follows, bind_ok hstep]
  exact hnext middle hfiles hcalls

/-- What follows the call of a program decides the course, if the program answers. -/
theorem call_follows {runner : Runner} {invocation : Program.Invocation}
    {next : Except Program.Failure Program.Output → Step β}
    {course : β → FileSystem → List Program.Invocation → Prop}
    (hnext : ∀ answer (middle : Session),
      (runner before.files before.calls invocation).result = .ok answer →
      middle.files = (runner before.files before.calls invocation).files →
      middle.calls = before.calls ++ [invocation] →
      Follows runner (next answer) middle course) :
    Follows runner (Session.call runner invocation >>= next) before course := by
  cases hr : (runner before.files before.calls invocation).result with
  | ok answer =>
    have hcall : Session.call runner invocation before = .ok answer
        { before with
          files := (runner before.files before.calls invocation).files
          log := before.log ++ (runner before.files before.calls invocation).records
          calls := before.calls ++ [invocation]
          waited := ⟨before.waited.nanoseconds +
            (runner before.files before.calls invocation).took.nanoseconds⟩ } := by
      simp only [Session.call, hr]
    rw [Follows, bind_ok hcall]
    exact hnext answer _ hr rfl rfl
  | error breakdown =>
    have hcall : ∃ after, Session.call runner invocation before = .error breakdown after := by
      simp only [Session.call, hr]
      exact ⟨_, rfl⟩
    obtain ⟨after, hcall⟩ := hcall
    exact .inr ⟨breakdown, after, bind_error hcall, _, _, _, hr⟩

/-- A call that ends has the answer of the runner. -/
theorem call_ok {runner : Runner} {invocation : Program.Invocation}
    {answer : Except Program.Failure Program.Output}
    (h : Session.call runner invocation before = .ok answer after) :
    (runner before.files before.calls invocation).result = .ok answer := by
  unfold Session.call at h
  dsimp only at h
  split at h
  · next hresult =>
    cases h
    exact hresult
  · cases h

/-- A call breaks down only where the runner does. -/
theorem call_error {runner : Runner} {invocation : Program.Invocation}
    (h : Session.call runner invocation before = .error breakdown after) :
    (runner before.files before.calls invocation).result = .error breakdown := by
  unfold Session.call at h
  dsimp only at h
  split at h
  · cases h
  · next hresult =>
    cases h
    exact hresult

/-- What follows a step decides the course from each of the ends of the step. -/
theorem Follows.bind {runner : Runner} {first : α → FileSystem → List Program.Invocation → Prop}
    {course : β → FileSystem → List Program.Invocation → Prop}
    (h : Follows runner step before first)
    (hnext : ∀ result (middle : Session), step before = .ok result middle →
      first result middle.files middle.calls → Follows runner (next result) middle course) :
    Follows runner (step >>= next) before course := by
  obtain ⟨result, middle, hstep, hfirst⟩ | ⟨breakdown, after, hstep, hbreak⟩ := h
  · rw [Follows, bind_ok hstep]
    exact hnext result middle hstep hfirst
  · exact .inr ⟨breakdown, after, bind_error hstep, hbreak⟩

/-- Where a step ends, it has taken one of its courses. -/
theorem Follows.of_ok {runner : Runner} {course : α → FileSystem → List Program.Invocation → Prop}
    (h : Follows runner step before course) (hstep : step before = .ok result after) :
    course result after.files after.calls := by
  obtain ⟨result', after', hok, hcourse⟩ | ⟨breakdown, after', herror, -⟩ := h
  · rw [hstep] at hok
    cases hok
    exact hcourse
  · rw [hstep] at herror
    cases herror

/-- With a runner that answers, a step ends. -/
theorem Follows.returns {runner : Runner}
    {course : α → FileSystem → List Program.Invocation → Prop}
    (h : Follows runner step before course) (hanswers : runner.Answers) :
    ∃ result after, step before = .ok result after := by
  obtain ⟨result, after, hok, -⟩ | ⟨breakdown, -, -, files, calls, invocation, hbreak⟩ := h
  · exact ⟨result, after, hok⟩
  · obtain ⟨answer, hanswer⟩ := hanswers files calls invocation
    rw [hanswer] at hbreak
    cases hbreak

/-- A file is written as the file system writes it, and otherwise nothing changes. -/
theorem write_gives (p : Path) (content : List UInt8) (before : Session) :
    (Session.write p content).Gives before
      ((before.files.write p content).map fun _ => ())
      ((before.files.write p content).toOption.getD before.files) := by
  unfold Session.write
  refine (view_gives (·.write p content) before).bind fun middle hm => ?_
  cases hw : before.files.write p content with
  | error cause =>
    rw [← hm]
    exact pure_gives _ middle
  | ok files =>
    refine (setFiles_gives files middle).bind fun there ht => ?_
    refine (view_gives (·.find? p) there).bind fun found hf => ?_
    have hleft : found.files = files := hf.trans ht
    have hdone : ∀ last : Session, last.files = found.files →
        (pure (.ok ()) : Step (Except SystemFault Unit)).Gives last (.ok ()) files :=
      fun last hlast => (hlast.trans hleft) ▸ pure_gives _ last
    dsimp only [Except.map, Except.toOption, Option.getD_some]
    split
    · exact (printBytes_gives content found).bind hdone
    · exact (interject_gives content found).bind hdone
    · exact hdone found rfl

end FlameFold.Step
