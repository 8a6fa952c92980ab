import FlameFold.Proofs.Conversion.Steady
import Mathlib.Data.List.InsertIdx

/-!
# Recordings that were not dumped

A recording that is skipped, or that the dump tool gives no text for, leaves no trace in the
files. With steady programs no other recording can tell whether it was there: a run without it
is the same run for all others.
-/

namespace FlameFold.Conversion

/-- Whether there was a dump of the recording: not if it was skipped, nor if it could not be
dumped. -/
def Outcome.isDumped : Outcome → Bool
  | .skipped => false
  | .dumpFailed _ => false
  | _ => true

section

variable {settings : Settings} {runner : Runner} {answer : Answering}
  {renderer : Render.Renderer} {path : Path} {files : FileSystem}

/-- Where collapsed stacks were to be written, there was a dump. -/
theorem isDumped_tableAccount (table : Stack.CountTable) :
    (tableAccount settings answer renderer path table files).result.isDumped = true := by
  cases hsaved : Output.saved files (Recording.Artifacts.of settings.outputPath path).collapsed
      (Output.collapsedBytes table) with
  | mk after saved =>
    cases saved with
    | error failure =>
      rw [tableAccount_unsaved hsaved]
      rfl
    | ok _ =>
      rw [tableAccount_saved hsaved rfl]
      dsimp only
      unfold renderOutcome
      split <;> rfl

/-- A recording that was not dumped leaves the files as they were. At most the dump tool was
called for it. -/
theorem account_of_not_dumped
    (h : (account settings answer renderer path files).result.isDumped = false) :
    (account settings answer renderer path files).files = files ∧
      (account settings answer renderer path files).calls =
        if (account settings answer renderer path files).result = .skipped then []
        else [dumpCall settings path] := by
  cases hthere : files.pathExists path with
  | false =>
    rw [account_absent hthere]
    exact ⟨rfl, rfl⟩
  | true =>
    cases hdump : Dump.textOfAnswer (answer (dumpCall settings path)) with
    | error failure =>
      rw [account_undumped hthere hdump]
      exact ⟨rfl, rfl⟩
    | ok text =>
      rw [account_dumped hthere hdump rfl] at h
      dsimp only at h
      rw [isDumped_tableAccount] at h
      cases h

/-- Visits without one whose recording was not dumped, from the same files and calls: the
others have the same results and leave the same files, and but for the call of the dump tool in
that visit they make the same calls. -/
theorem Visits.without {earlier later others : List Visit} {visit : Visit}
    {first last first' last' : Session} (hrunner : runner.Steady answer)
    (h : Visits settings runner renderer (earlier ++ visit :: later) first last)
    (hundumped : visit.outcome.isDumped = false)
    (h' : Visits settings runner renderer others first' last')
    (hrecordings : (earlier ++ later).map Visit.recording = others.map Visit.recording)
    (hfiles : first.files = first'.files) (hcalls : first.calls = first'.calls) :
    others.map (Visit.result settings) = (earlier ++ later).map (Visit.result settings) ∧
      last'.files = last.files ∧ ∃ rest,
        last.calls = visit.before.calls ++
          (if visit.outcome = .skipped then []
            else [dumpCall settings (settings.recordingPath visit.recording)]) ++ rest ∧
        last'.calls = visit.before.calls ++ rest := by
  rw [List.map_append] at hrecordings
  obtain ⟨earlier', later', rfl, hearlier', hlater'⟩ := List.map_eq_append_iff.mp hrecordings.symm
  obtain ⟨middle, hearlier, rfl, hstep, hlater⟩ := h.split
  obtain ⟨middle', hothers, hrest⟩ := h'.split
  -- the earlier visits are the same in both
  obtain ⟨hresults, hmiddle, hblock⟩ := hearlier.accounts hrunner rfl
  obtain ⟨hresults', hmiddle', hblock'⟩ := hothers.accounts hrunner hearlier'
  rw [← hfiles] at hresults' hmiddle' hblock'
  rw [← hcalls] at hblock'
  -- the visit in between leaves the files as they were, so the later ones are the same too
  obtain ⟨houtcome, hleft, hmade⟩ := convertOne_account hrunner hstep
  rw [houtcome] at hundumped
  obtain ⟨hkept, hown⟩ := account_of_not_dumped hundumped
  rw [hkept, hmiddle, ← hmiddle'] at hleft
  obtain ⟨hlast, hend, hmore⟩ := hlater.accounts hrunner rfl
  obtain ⟨hlast', hend', hmore'⟩ := hrest.accounts hrunner hlater'
  rw [hleft] at hlast hend hmore
  have hstart : middle'.calls = visit.before.calls := hblock'.trans hblock.symm
  refine ⟨?_, hend'.trans hend.symm,
    (Conversion.accounts settings answer renderer (later.map Visit.recording)
      middle'.files).calls, ?_, ?_⟩
  · rw [List.map_append, List.map_append, hresults', hresults, hlast', hlast]
  · rw [hmore, hmade, hown, ← houtcome]
  · rw [hmore', hstart]

/-- Which recordings the settings list does not matter to the visit of one of them. -/
theorem visits_recordings (recordings : List Recording) {visits : List Visit}
    {first last : Session} :
    Visits { settings with recordings := recordings } runner renderer visits first last ↔
      Visits settings runner renderer visits first last := by
  induction visits generalizing first with
  | nil => exact Iff.rfl
  | cons visit rest ih =>
    simp only [Visits, ih]
    exact Iff.rfl

end

/-- What stands at a place of a list parts the list in two. -/
theorem exists_append_of_getElem? {α : Type} {list : List α} {i : Nat} {a : α}
    (h : list[i]? = some a) :
    ∃ earlier later, list = earlier ++ a :: later ∧ earlier.length = i := by
  obtain ⟨hi, rfl⟩ := List.getElem?_eq_some_iff.mp h
  refine ⟨list.take i, list.drop (i + 1), ?_, List.length_take_of_le (Nat.le_of_lt hi)⟩
  rw [List.getElem_cons_drop, List.take_append_drop]

/-- A recording that is skipped or cannot be dumped affects nothing else. The run without it
has the same results for all other recordings in the same order, leaves the same files, lists
the same flame graphs and makes the same calls, but for the call of the dump tool for this
recording if there was one. -/
theorem run_without_undumped {settings : Settings} {runner : Runner} {answer : Answering}
    {before after : Session} {summary : Summary} {i : Nat} {result : Result}
    (hrunner : runner.Steady answer)
    (h : run settings runner before = .ok (.ok summary) after)
    (hresult : summary.results[i]? = some result) (hundumped : result.outcome.isDumped = false)
    (hothers : 1 < settings.recordings.length) :
    ∃ reduced left,
      run { settings with recordings := settings.recordings.eraseIdx i } runner before =
        .ok (.ok reduced) left ∧
      reduced.results = summary.results.eraseIdx i ∧ reduced.graphics = summary.graphics ∧
      left.files = after.files ∧
      ∃ visits visit later, Tells settings runner before summary visits after.files after.calls ∧
        visits[i]? = some visit ∧
        after.calls = visit.before.calls ++
          (if result.outcome = .skipped then [] else [dumpCall settings result.path]) ++ later ∧
        left.calls = visit.before.calls ++ later := by
  obtain ⟨hvalid, hscript⟩ := run_started h
  obtain ⟨told, hanswer, hgraphics, visits, htells⟩ := (run_lists hvalid hscript runner).of_ok h
  obtain rfl : summary = told := Except.ok.inj hanswer
  rw [htells.results, List.getElem?_map, Option.map_eq_some_iff] at hresult
  obtain ⟨visit, hvisit, rfl⟩ := hresult
  obtain ⟨earlier, later, rfl, rfl⟩ := exists_append_of_getElem? hvisit
  have herase : (earlier ++ visit :: later).eraseIdx earlier.length = earlier ++ later := by
    rw [List.eraseIdx_append_of_length_le (Nat.le_refl _), Nat.sub_self, List.eraseIdx_zero,
      List.tail_cons]
  have hrecordings : settings.recordings.eraseIdx earlier.length =
      (earlier ++ later).map Visit.recording := by
    rw [← htells.recordings, List.eraseIdx_map, herase]
  -- the run without the recording starts and ends
  have hne : settings.recordings.eraseIdx earlier.length ≠ [] := by
    rw [← List.length_pos_iff, List.length_eraseIdx]
    split <;> omega
  have hfollows := run_lists (validate_recordings hvalid hne) hscript runner
  obtain ⟨answer', left, hrun⟩ := hfollows.returns hrunner.answers
  obtain ⟨reduced, rfl, hgraphics', others, htells'⟩ := hfollows.of_ok hrun
  obtain ⟨first, last, hfirst, hcalls, hvisits, hlast, hmade⟩ := htells.chain
  obtain ⟨first', last', hfirst', hcalls', hvisits', hlast', hmade'⟩ := htells'.chain
  obtain ⟨hresults, hfiles, rest, hrest, hrest'⟩ :=
    hvisits.without hrunner hundumped ((visits_recordings _).mp hvisits')
      (hrecordings.symm.trans htells'.recordings.symm) (hfirst.trans hfirst'.symm)
      (hcalls.trans hcalls'.symm)
  rw [hlast, hlast'] at hfiles
  refine ⟨reduced, left, hrun, ?_, ?_, hfiles, _, visit, rest, htells, hvisit, ?_, ?_⟩
  · rw [htells'.results, htells.results, List.eraseIdx_map, herase]
    exact hresults
  · rw [hgraphics', hgraphics, hfiles]
    rfl
  · rw [← hmade, hrest]
    rfl
  · rw [← hmade', hrest']

/-- Of two recordings of the branches the first cannot be dumped, and the run without it is the
same for the second. -/
theorem run_without_undumped_branches : ∃ summary result after,
    run (branchSettings ["b/web.jfr", "a/app.jfr"]) (.steady (branchAnswer 1))
      (Session.start branches) = .ok (.ok summary) after ∧
    summary.results[0]? = some result ∧ result.outcome.isDumped = false ∧
    1 < (branchSettings ["b/web.jfr", "a/app.jfr"]).recordings.length ∧
    ∃ reduced left,
      run (branchSettings ["a/app.jfr"]) (.steady (branchAnswer 1)) (Session.start branches) =
        .ok (.ok reduced) left ∧
      reduced.results = summary.results.eraseIdx 0 ∧ left.files = after.files := by
  have hfound : (run (branchSettings ["b/web.jfr", "a/app.jfr"]) (.steady (branchAnswer 1))).found?
      (Session.start branches) (fun summary _ =>
        summary.results[0]?.map fun result => result.outcome.isDumped) = some (some false) := by
    unfold run runWith
    simp only [branchSettings, List.map_cons, List.map_nil, convertAll]
    delta convertOne
    rw [Stack.fold_eq_tallied]
    decide +kernel
  obtain ⟨summary, after, hrun, hfound⟩ := Step.exists_of_found hfound
  obtain ⟨result, hresult, hundumped⟩ := Option.map_eq_some_iff.mp hfound
  have hothers : 1 < (branchSettings ["b/web.jfr", "a/app.jfr"]).recordings.length := by decide
  obtain ⟨reduced, left, hreduced, hresults, -, hfiles, -⟩ :=
    run_without_undumped (Runner.steady_steady _) hrun hresult hundumped hothers
  exact ⟨summary, result, after, hrun, hresult, hundumped, hothers, reduced, left, hreduced,
    hresults, hfiles⟩

end FlameFold.Conversion
