import FlameFold.Program.Child

/-!
# Systems that programs run on

The programs that are called are not part of a run. What a system makes of a call is left open: it
starts a program, and what becomes of this is what the call finds, or it refuses to.
-/

namespace FlameFold.Program

/-- What comes of a call whose program could be started. -/
structure Started where
  /-- The program. -/
  child : Child
  /-- The files as they are when the call is over. -/
  files : FileSystem
  /-- How long the call took. -/
  took : Duration

/-- What a system makes of a call, by the files, the calls before it and the call itself. -/
abbrev System := FileSystem → List Invocation → Invocation → Except SystemFault Started

/-- The runner that calls the programs of a system. No file is changed for a program that cannot
be started. -/
def System.runner (system : System) : Runner := fun files calls call =>
  match system files calls call with
  | .error cause =>
    let course := call.run (.error cause)
    ⟨files, course.records, ⟨0⟩, course.result⟩
  | .ok started =>
    let course := call.run (.ok started.child)
    ⟨started.files, course.records, started.took, course.result⟩

end FlameFold.Program
