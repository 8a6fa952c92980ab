import FlameFold.Machine.Format
import FlameFold.Machine.Tool.Awk.Run
import FlameFold.Machine.Tool.Characters
import FlameFold.Machine.Tool.Expression
import FlameFold.Machine.Tool.Lines

/-!
# The toolbox

The tools by their names. Some tools run other programs; these are shells, or run by one.
-/

namespace FlameFold.Machine

/-- What a tool does: with its arguments, the files and its input. -/
abbrev Tool := List String → FileSystem → List UInt8 → Trace

/-- The tools that run no other program, with their names. -/
def toolbox : List (String × Tool) :=
  [("awk", Tool.awk), ("mawk", Tool.awk), ("basename", Tool.basename), ("cat", Tool.cat),
    ("chmod", Tool.chmod), ("cp", Tool.cp), ("cut", Tool.cut), ("dd", Tool.dd),
    ("dirname", Tool.dirname), ("echo", Format.echo), ("expr", Tool.expr),
    ("false", fun _ files input => ⟨files, input, [], [], .exited 1, 0⟩),
    ("grep", Tool.grep), ("egrep", fun arguments => Tool.grep ("-E" :: arguments)),
    ("fgrep", fun arguments => Tool.grep ("-F" :: arguments)), ("head", Tool.head),
    ("ls", Tool.ls), ("mkdir", Tool.mkdir), ("mknod", Tool.mknod), ("mv", Tool.mv),
    ("nl", Tool.nl),
    ("paste", Tool.paste), ("printf", Format.printf ""),
    ("pwd", fun _ files input => Tool.wrote files input
      (Tool.lineBytes ("/" ++ "/".intercalate (files.here.reverse.map Text.decodeLossy)))),
    ("rev", Tool.rev), ("rm", Tool.rm), ("rmdir", Tool.rmdir), ("sed", Tool.sed), ("seq", Tool.seq),
    ("sleep", Tool.sleep), ("sort", Tool.sort), ("tac", Tool.tac), ("tail", Tool.tail),
    ("tee", Tool.tee), ("touch", Tool.touch), ("tr", Tool.tr),
    ("true", fun _ files input => Tool.wrote files input []), ("uniq", Tool.uniq),
    ("wc", Tool.wc), ("yes", Tool.yes)]

/-- The shells. -/
def shells : List String := ["sh", "dash", "bash"]

/-- The tools that a shell has to run. -/
def runners : List String :=
  ["env", "test", "[", "kill", "xargs", "timeout", "nohup", "nice", "printenv", "which"]

/-- The names of the tools. -/
def toolNames : List String := shells ++ runners ++ toolbox.map Prod.fst

/-- What a tool says, and with which code it ends, when its output takes no bytes. -/
def writeRefusal (tool : String) (fault : SystemFault) : String × Nat :=
  let cause := fault.wording
  match tool with
  | "tee" => ("tee: 'standard output': " ++ cause, 1)
  | "yes" => ("yes: standard output: " ++ cause, 1)
  | "sort" => ("sort: fflush failed: 'standard output': " ++ cause ++ "\nsort: write error", 2)
  | "wc" => ("wc: write error", 1)
  | "sed" => ("sed: couldn't flush stdout: " ++ cause, 4)
  | "grep" | "egrep" | "fgrep" => ("grep: write error: " ++ cause, 2)
  | "awk" | "mawk" => (tool ++ ": close failed on file \"/dev/stdout\" (" ++ cause ++ ")", 2)
  | "ls" => ("ls: write error: " ++ cause, 2)
  | "expr" => ("expr: write error: " ++ cause, 3)
  | "env" => ("env: write error: " ++ cause, 125)
  | _ => (tool ++ ": write error: " ++ cause, 1)

end FlameFold.Machine
