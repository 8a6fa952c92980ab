import FlameFold.Dump
import FlameFold.Proofs.Text.Damage
import FlameFold.Stack.Folder

/-!
# The lines of a dump

The dump tool writes bytes, and not all of them need be text. What is damaged in a line of
bytes is damaged in that line of the dump alone: there are as many lines as the tool wrote,
and those that are text come to the folder as they are.
-/

namespace FlameFold.Dump

/-- A tool that ends well gives the text of what it wrote. -/
theorem dump_succeeds {runner : Runner} {request : Request} {before : Session}
    {output : Program.Output}
    (hcall : (runner before.files before.calls request.invocation).result = .ok (.ok output))
    (hsucceeded : output.succeeded = true) :
    ∃ after, dump runner request before = .ok (.ok output.writtenText) after := by
  have htext : textOf output = .ok output.writtenText := if_pos hsucceeded
  simp only [dump, bind, EStateM.bind, Session.note, Session.noteAll, Session.call, hcall, htext]
  exact ⟨_, rfl⟩

/-- The dump of a tool that ends well is read newline by newline. Its lines are the lines of
bytes that the tool wrote, each read on its own, and so are those that are folded; a line of
bytes that is text is that line of the dump. -/
theorem dump_lines {runner : Runner} {request : Request} {before : Session}
    {output : Program.Output}
    (hcall : (runner before.files before.calls request.invocation).result = .ok (.ok output))
    (hsucceeded : output.succeeded = true) :
    ∃ text after, dump runner request before = .ok (.ok text) after ∧
      (∀ earlier later, output.written = earlier ++ Text.newlineByte :: later →
        text = Text.decodeLossy earlier ++ "\n" ++ Text.decodeLossy later) ∧
      Text.pieces text = (output.written.splitOn Text.newlineByte).map Text.decodeLossy ∧
      (Text.pieces text).length = output.written.count Text.newlineByte + 1 ∧
      (∀ event, Stack.fold text event =
        (((output.written.splitOn Text.newlineByte).map Text.decodeLossy).foldl
          Stack.Folder.feedLine (.new event)).finish) ∧
      ∀ (n : Nat) line, (output.written.splitOn Text.newlineByte)[n]? = some (Text.encode line) →
        (Text.pieces text)[n]? = some line := by
  obtain ⟨after, hdump⟩ := dump_succeeds hcall hsucceeded
  have hlines := Text.pieces_decodeLossy output.written
  refine ⟨output.writtenText, after, hdump, ?_, hlines, ?_, ?_, ?_⟩
  · intro earlier later hwritten
    rw [Program.Output.writtenText, hwritten, Text.decodeLossy_newline]
  · rw [Program.Output.writtenText, hlines, List.length_map, Text.length_splitOn]
  · intro event
    rw [← hlines]
    rfl
  · intro n line hline
    rw [Program.Output.writtenText, hlines, List.getElem?_map, hline, Option.map_some,
      Text.decodeLossy_encode]

/-- Two lines that each break off in a character, and a line that is text. -/
def brokenBytes : List UInt8 := [0x61, 0xE2, 0x82, 0x0A, 0xF0, 0x9F, 0x0A, 0xC3, 0xA9]

/-- A tool that writes the broken lines. -/
def brokenRunner : Runner := .prepared [fun _ => .ok ⟨some 0, brokenBytes, []⟩]

/-- The newline after a broken character stays where it is. -/
theorem dump_lines_broken : ∃ text after,
    dump brokenRunner ⟨"jfr", ⟨"app.jfr"⟩, "event", 999, none⟩ (Session.start ⟨[], []⟩) =
      .ok (.ok text) after ∧
    text = "a\uFFFD" ++ "\n" ++ "\uFFFD\né" ∧ (Text.pieces text)[2]? = some "é" := by
  let request : Request := ⟨"jfr", ⟨"app.jfr"⟩, "event", 999, none⟩
  let before : Session := Session.start ⟨[], []⟩
  have hcall : (brokenRunner before.files before.calls request.invocation).result =
      .ok (.ok ⟨some 0, brokenBytes, []⟩) := rfl
  obtain ⟨text, after, hdump, hnewline, -, -, -, htext⟩ := dump_lines hcall rfl
  have hfirst : Text.decodeLossy [0x61, 0xE2, 0x82] = "a\uFFFD" := by decide
  have hrest : Text.decodeLossy [0xF0, 0x9F, 0x0A, 0xC3, 0xA9] = "\uFFFD\né" := by decide
  have hwhole := hnewline [0x61, 0xE2, 0x82] [0xF0, 0x9F, 0x0A, 0xC3, 0xA9] rfl
  rw [hfirst, hrest] at hwhole
  exact ⟨text, after, hdump, hwhole, htext 2 "é" (by decide)⟩

end FlameFold.Dump
