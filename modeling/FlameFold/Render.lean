import FlameFold.Output.Graphic
import FlameFold.Session

/-!
# Rendering a flame graph

The renderer script reads collapsed stacks and prints a flame graph, which is written
to a file unchanged.
-/

namespace FlameFold.Render

/-- How the renderer is called. -/
structure Renderer where
  /-- The path of the script. -/
  script : Path
  /-- The title of the flame graph. -/
  title : String
  /-- How long the script may run. -/
  limit : Option Duration

/-- The call of the script for the bytes of collapsed stacks. -/
def Renderer.invocation (renderer : Renderer) (input : List UInt8) : Program.Invocation where
  program := renderer.script.text
  arguments := ["--title", renderer.title]
  input := some input
  limit := renderer.limit

/-- Why no flame graph was written. -/
inductive Failure where
  /-- The collapsed stacks could not be read. -/
  | inputUnreadable (p : Path) (cause : SystemFault)
  /-- The script ended, and not well. -/
  | rendererFailed (status complaints : String)
  /-- The script gave no output. -/
  | notRun (failure : Program.Failure)
  /-- The flame graph could not be written. -/
  | notSaved (failure : Output.Failure)
  deriving DecidableEq, Repr

/-- The wording of the failure. -/
def Failure.message : Failure → String
  | .inputUnreadable p cause =>
    "Failed to read collapsed stacks " ++ p.text ++ ": " ++ cause.message
  | .rendererFailed status complaints => "Renderer exited with " ++ status ++ ": " ++ complaints
  | .notRun failure => failure.message
  | .notSaved failure => failure.message

/-- The fault of the system behind the failure. -/
def Failure.cause? : Failure → Option SystemFault
  | .inputUnreadable _ cause => some cause
  | .rendererFailed _ _ => none
  | .notRun failure => failure.cause?
  | .notSaved failure => failure.cause?

/-- Render the collapsed stacks of one file into another. -/
def render (runner : Runner) (renderer : Renderer) (collapsed graphic : Path) :
    Step (Except Failure Unit) := do
  Session.note .info .rendering ("Generating flame graph " ++ graphic.text ++ "...")
  match ← Session.view (·.read collapsed) with
  | .error cause => return .error (.inputUnreadable collapsed cause)
  | .ok input =>
    Session.note .debug .rendering
      ("Feeding " ++ Nat.repr input.length ++ " bytes of collapsed stacks to renderer")
    match ← Session.call runner (renderer.invocation input) with
    | .error failure => return .error (.notRun failure)
    | .ok output =>
      if output.succeeded then
        match ← Output.writeGraphic output.written graphic with
        | .error failure => return .error (.notSaved failure)
        | .ok () => return .ok ()
      else
        return .error (.rendererFailed output.status (Text.trim output.complaintsText))

end FlameFold.Render
