import FlameFold.Proofs.Conversion.Deeds

/-!
# Running again

A run that has found its output directory leaves files behind that a second run overwrites with
what they hold. With steady programs, and as long as the run did not bring a recording into
being, the second run cannot be told from the first: neither by its summary nor by its calls,
and it leaves every file as it found it.
-/

namespace FlameFold.Conversion

open FileSystem

/-- A summary is made of its results and the flame graphs that it lists. -/
theorem Summary.eq_of_parts {summary other : Summary} (hresults : summary.results = other.results)
    (hgraphics : summary.graphics = other.graphics) : summary = other := by
  cases summary
  cases other
  cases hresults
  cases hgraphics
  rfl

/-- With valid settings, the renderer script and the output directory there, a run ends with a
summary. If no recording has come to be there in it, a run from the files that it left ends with
the same summary, makes the same calls and leaves the files exactly as they were. -/
theorem run_again {settings : Settings} {runner : Runner} {answer : Answering} {before : Session}
    (hrunner : runner.Steady answer) (hvalid : settings.validate = .ok ())
    (hscript : before.files.isFile settings.rendererPath = true)
    (hdirectory : before.files.isDirectory settings.outputPath = true) :
    ∃ summary after, run settings runner before = .ok (.ok summary) after ∧
      ((∀ recording ∈ settings.recordings,
          after.files.pathExists (settings.recordingPath recording) =
            before.files.pathExists (settings.recordingPath recording)) →
        ∀ next : Session, next.files = after.files →
          ∃ again, run settings runner next = .ok (.ok summary) again ∧
            again.files = after.files ∧
            ∃ calls, after.calls = before.calls ++ calls ∧ again.calls = next.calls ++ calls) := by
  obtain ⟨summary, after, hrun, hresults, hgraphics, hfiles, hcalls⟩ :=
    run_accounts hrunner hvalid hscript
  refine ⟨summary, after, hrun, fun hthere next hnext => ?_⟩
  rw [hfiles] at hthere
  obtain ⟨hfilled, deed, hfits, hdone⟩ := runAccount_eq hdirectory hthere
  have hfirst : runAccount settings answer before.files = _ :=
    hdone _ (List.Subset.refl _) _ (.refl _) hfilled.toPersists
  have hsecond : runAccount settings answer (runAccount settings answer before.files).files = _ :=
    hdone _ (List.Subset.refl _) _ hfilled (.refl _)
  -- the files that the second run fills hold just that
  have hsame : (runAccount settings answer before.files).files.fillAll
      (written settings before.files deed settings.recordings) =
      (runAccount settings answer before.files).files := by
    rw [hfirst]
    exact fillAll_fillAll (takes_written hfits _)
  rw [hsame] at hsecond
  have hscript' : next.files.isFile settings.rendererPath = true := by
    rw [hnext, hfiles]
    exact hfilled.isFile hscript
  obtain ⟨summary', again, hrun', hresults', hgraphics', hfiles', hcalls'⟩ :=
    run_accounts hrunner hvalid hscript'
  rw [hnext, hfiles, hsecond] at hresults' hfiles' hcalls'
  have hleft : again.files = after.files := hfiles'.trans hfiles.symm
  rw [hfirst] at hresults hcalls
  obtain rfl : summary' = summary :=
    Summary.eq_of_parts (hresults'.trans hresults.symm) (by rw [hgraphics', hgraphics, hleft])
  exact ⟨again, hrun', hleft, _, hcalls, hcalls'⟩

/-- Recordings with the same stem are both rendered into the output directory that stands, and
the second run is the same as the first. -/
theorem run_again_branches :
    (Runner.steady (branchAnswer 0)).Steady (branchAnswer 0) ∧
    (branchSettings ["a/app.jfr", "b/app.jfr"]).validate = .ok () ∧
    standingBranches.isFile (branchSettings ["a/app.jfr", "b/app.jfr"]).rendererPath = true ∧
    standingBranches.isDirectory (branchSettings ["a/app.jfr", "b/app.jfr"]).outputPath = true ∧
    ∃ summary after, run (branchSettings ["a/app.jfr", "b/app.jfr"]) (.steady (branchAnswer 0))
        (Session.start standingBranches) = .ok (.ok summary) after ∧
      summary.renderedCount = 2 ∧
      ∃ again, run (branchSettings ["a/app.jfr", "b/app.jfr"]) (.steady (branchAnswer 0)) after =
          .ok (.ok summary) again ∧ again.files = after.files := by
  have hfound : (run (branchSettings ["a/app.jfr", "b/app.jfr"]) (.steady (branchAnswer 0))).found?
      (Session.start standingBranches) (fun summary after => (summary.renderedCount,
        after.files.pathExists ⟨"./a/app.jfr"⟩, after.files.pathExists ⟨"./b/app.jfr"⟩)) =
      some (2, true, true) := by
    unfold run runWith
    simp only [branchSettings, List.map_cons, List.map_nil, convertAll]
    delta convertOne
    rw [Stack.fold_eq_tallied]
    decide +kernel
  obtain ⟨summary, after, hrun, hfound⟩ := Step.exists_of_found hfound
  obtain ⟨hcount, hfirst, hsecond⟩ : _ ∧ _ ∧ _ := by simpa only [Prod.mk.injEq] using hfound
  have hrunner := Runner.steady_steady (branchAnswer 0)
  have hvalid : (branchSettings ["a/app.jfr", "b/app.jfr"]).validate = .ok () := by decide +kernel
  have hscript : (Session.start standingBranches).files.isFile
      (branchSettings ["a/app.jfr", "b/app.jfr"]).rendererPath = true := by decide +kernel
  have hdirectory : (Session.start standingBranches).files.isDirectory
      (branchSettings ["a/app.jfr", "b/app.jfr"]).outputPath = true := by decide +kernel
  obtain ⟨_, _, hrun', hagain⟩ := run_again hrunner hvalid hscript hdirectory
  rw [hrun] at hrun'
  cases hrun'
  have hthere : ∀ recording ∈ (branchSettings ["a/app.jfr", "b/app.jfr"]).recordings,
      after.files.pathExists
          ((branchSettings ["a/app.jfr", "b/app.jfr"]).recordingPath recording) =
        standingBranches.pathExists
          ((branchSettings ["a/app.jfr", "b/app.jfr"]).recordingPath recording) := by
    refine List.forall_mem_cons.mpr ⟨?_, List.forall_mem_cons.mpr ⟨?_, by simp⟩⟩
    · exact hfirst.trans (by decide +kernel)
    · exact hsecond.trans (by decide +kernel)
  obtain ⟨again, hsame, hleft, -⟩ := hagain hthere after rfl
  exact ⟨hrunner, hvalid, hscript, hdirectory, summary, after, hrun, hcount, again, hsame, hleft⟩

end FlameFold.Conversion
