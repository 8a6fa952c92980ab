import FlameFold.Proofs.Output.Collapsed
import FlameFold.Proofs.Output.Saving
import FlameFold.Proofs.Text.Utf8
import Std.Data.String.ToNat

/-!
# Files of collapsed stacks are read back

A signature may have spaces and digits in it, but the count after it has no space, so a line
is cut at its last one. The file of a dump, read in this way, gives the entries of its table
in the order of the file, and nothing is left over.
-/

namespace FlameFold.Stack

/-- The entry that a line gives: the signature before its last space, and the count after
it. -/
def Entry.ofLine? (line : String) : Option Entry :=
  match line.toList.reverse.span (· != ' ') with
  | (digits, _ :: signature) =>
    (String.ofList digits.reverse).toNat?.map fun count =>
      ⟨String.ofList signature.reverse, count⟩
  | (_, []) => none

/-- The line of an entry gives the entry. -/
theorem Entry.ofLine?_line (entry : Entry) : Entry.ofLine? entry.line = some entry := by
  obtain ⟨signature, count⟩ := entry
  have hdigits : ∀ c ∈ (Nat.toDigits 10 count).reverse, (c != ' ') = true := by
    intro c hc
    have hdigit := Nat.isDigit_of_mem_toDigits (by decide) (by decide) (List.mem_reverse.mp hc)
    have hne : c ≠ ' ' := by
      rintro rfl
      exact absurd hdigit (by decide)
    simpa using hne
  have hline : (Entry.line ⟨signature, count⟩).toList.reverse =
      (Nat.toDigits 10 count).reverse ++ ' ' :: signature.toList.reverse := by
    simp [Entry.line]
  have hcount : (String.ofList (Nat.toDigits 10 count)).toNat? = some count := Nat.toNat?_repr count
  rw [ofLine?, hline, List.span_eq_takeWhile_dropWhile, List.takeWhile_append_of_pos hdigits,
    List.dropWhile_append_of_pos hdigits]
  simp [hcount]

end FlameFold.Stack

namespace FlameFold.Output

/-- The lines of a file, each of them closed by a newline; nothing if the file is no text or
something follows its last newline. -/
def closedLines? (content : List UInt8) : Option (List String) := do
  let pieces := Text.pieces (← Text.decode? content)
  if pieces.getLast? = some "" then return pieces.dropLast else none

/-- The file that is written for a folded dump has a line for each entry. -/
theorem closedLines?_fold (dump event : String) :
    closedLines? (collapsedBytes (Stack.fold dump event).table) =
      some ((Stack.fold dump event).table.sorted.map Stack.Entry.line) := by
  have hlines := (collapsedText_fold dump event).lines
  simp [closedLines?, collapsedBytes, Text.decode?_encode, hlines]

/-- The lines of entries give the entries. -/
theorem mapM_ofLine? (entries : List Stack.Entry) :
    (entries.map Stack.Entry.line).mapM Stack.Entry.ofLine? = some entries := by
  induction entries with
  | nil => rfl
  | cons entry rest ih => simp [Stack.Entry.ofLine?_line, ih]

/-- A table is written where its collapsed lines are saved, and their number is told. -/
theorem writeCollapsed_ok {table : Stack.CountTable} {p : Path} {before after : Session}
    {count : Nat} (h : writeCollapsed table p before = .ok (.ok count) after) :
    saved before.files p (collapsedBytes table) = (after.files, .ok ()) ∧
      count = (writtenEntries table).length := by
  obtain ⟨hresult, hfiles⟩ := (writeCollapsed_gives table p before).of_ok h
  rw [hfiles]
  cases hsaved : saved before.files p (collapsedBytes table) with
  | mk left saved =>
    rw [hsaved] at hresult
    cases saved with
    | error failure => cases hresult
    | ok _ => exact ⟨rfl, Except.ok.inj hresult⟩

/-- Where a dump is written, the number of its stacks is told. Unless a device stands there, the
lines of the file give the sorted table of the dump and nothing else: there are as many of them as
is told, and the counts come to the number of samples. -/
theorem writeCollapsed_decodes {dump event : String} {p : Path} {before after : Session}
    {count : Nat}
    (h : writeCollapsed (Stack.fold dump event).table p before = .ok (.ok count) after) :
    count = (Stack.fold dump event).table.size ∧
      ((∀ device, after.files.find? p ≠ some (.device device)) →
        ∃ content lines entries, after.files.read p = .ok content ∧
          closedLines? content = some lines ∧ lines.mapM Stack.Entry.ofLine? = some entries ∧
          entries = (Stack.fold dump event).table.sorted ∧ count = lines.length ∧
          (entries.map Stack.Entry.count).sum = (Stack.fold dump event).table.totalSamples) := by
  obtain ⟨hsaved, hcount⟩ := writeCollapsed_ok h
  rw [writtenEntries_fold] at hcount
  have hsize := Stack.CountTable.length_sorted (Stack.fold dump event).table
  exact ⟨hcount.trans hsize, fun hkeeps => ⟨_, _, _, saved_kept hsaved hkeeps,
    closedLines?_fold dump event, mapM_ofLine? _, rfl, by rw [hcount, List.length_map],
    Stack.CountTable.sum_sorted _⟩⟩

/-- A dump with two samples of one stack and one of another; the frames have spaces and
digits. -/
def spacedDump : String := "b 7\n\na 1\nmain 2\n\na 1\nmain 2\n\n"

/-- The file of this dump gives its two stacks back, the more frequent one first. -/
theorem writeCollapsed_decodes_spaced : ∃ count after content lines,
    writeCollapsed (Stack.fold spacedDump "event").table ⟨"out.txt"⟩ (Session.start ⟨[], []⟩) =
      .ok (.ok count) after ∧
    after.files.read ⟨"out.txt"⟩ = .ok content ∧
    closedLines? content = some lines ∧
    lines.mapM Stack.Entry.ofLine? = some [⟨"main 2;a 1", 2⟩, ⟨"b 7", 1⟩] := by
  have hfound : (writeCollapsed (Stack.fold spacedDump "event").table ⟨"out.txt"⟩).found?
      (Session.start ⟨[], []⟩) (fun _ after => after.files.isFile ⟨"out.txt"⟩) = some true := by
    rw [Stack.fold_eq_tallied]
    decide +kernel
  have hentries : (Stack.fold spacedDump "event").table.sorted =
      [⟨"main 2;a 1", 2⟩, ⟨"b 7", 1⟩] := by
    have htable : (Stack.fold spacedDump "event").table.toList =
        [⟨"b 7", 1⟩, ⟨"main 2;a 1", 2⟩] := by
      rw [Stack.fold_eq_tallied]
      decide +kernel
    simp [Stack.CountTable.sorted, htable, List.mergeSort]
  obtain ⟨count, after, hrun, hfile⟩ := Step.exists_of_found hfound
  obtain ⟨-, hdecodes⟩ := writeCollapsed_decodes hrun
  obtain ⟨content, lines, entries, hread, hlines, hdecoded, hsorted, -⟩ :=
    hdecodes fun device hdevice => by simp [FileSystem.isFile, hdevice] at hfile
  rw [hsorted, hentries] at hdecoded
  exact ⟨count, after, content, lines, hrun, hread, hlines, hdecoded⟩

/-- A device that keeps nothing takes the two lines of this dump and gives none of them back. -/
theorem null_device_not_decoded :
    ¬∀ (dump event : String) (p : Path) (before after : Session) (count : Nat),
      writeCollapsed (Stack.fold dump event).table p before = .ok (.ok count) after →
      ∃ content lines, after.files.read p = .ok content ∧ closedLines? content = some lines ∧
        count = lines.length := by
  intro h
  have hfound : (writeCollapsed (Stack.fold spacedDump "event").table ⟨"/dev/null"⟩).found?
      (Session.start blackHole) (fun _ after => (after.files.read ⟨"/dev/null"⟩).toOption) =
        some (some []) := by
    rw [Stack.fold_eq_tallied]
    decide +kernel
  obtain ⟨count, after, hrun, hempty⟩ := Step.exists_of_found hfound
  obtain ⟨-, htold⟩ := writeCollapsed_ok hrun
  obtain ⟨content, lines, hread, hlines, hlength⟩ := h _ _ _ _ _ _ hrun
  rw [hread] at hempty
  obtain rfl : content = [] := Option.some.inj hempty
  obtain rfl : [] = lines := Option.some.inj hlines
  -- no line is read back, though two were told
  have hsize : (Stack.fold spacedDump "event").table.toList.length = 2 := by
    rw [Stack.fold_eq_tallied]
    decide +kernel
  rw [writtenEntries_fold, (Stack.CountTable.sorted_perm _).length_eq, hsize, hlength] at htold
  cases htold

end FlameFold.Output
