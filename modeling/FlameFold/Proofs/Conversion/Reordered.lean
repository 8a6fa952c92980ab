import FlameFold.Proofs.Conversion.Deeds

/-!
# Recordings in another order

Recordings with different stems write different files, and no recording reads what another one
wrote. With steady programs and an output directory that stands the order of such recordings
does not matter, as long as none of them comes to be there in the run: each has the same result
in every order, and the same files are left.
-/

namespace FlameFold.Conversion

open FileSystem

variable {base : FileSystem} {settings : Settings} {deed : Recording → Deed}

/-- Recordings with different stems fill each file at most once. -/
theorem written_apart (h : ∀ recording, (done settings base deed recording).Fits base
      (settings.recordingPath recording)) {recordings : List Recording}
    (hstems : (recordings.map fun recording => (settings.recordingPath recording).stem).Nodup) :
    (written settings base deed recordings).Pairwise
      fun writing found => writing.place ≠ found.place := by
  refine List.pairwise_flatMap.mpr ⟨fun recording _ => (h recording).apart, ?_⟩
  refine (List.pairwise_map.mp hstems).imp fun hstem writing hwriting found hfound => ?_
  exact (h _).place_ne (h _) hstem hwriting hfound

/-- With valid settings, the renderer script and the output directory there, a run over
recordings with different stems ends with a summary. If no recording has come to be there in it,
then in every other order a run over the same recordings ends with a summary as well: each
recording has the same result, the same flame graphs are listed, and the same is left
everywhere. -/
theorem run_permuted {runner : Runner} {answer : Answering} {before : Session}
    (hrunner : runner.Steady answer) (hvalid : settings.validate = .ok ())
    (hscript : before.files.isFile settings.rendererPath = true)
    (hdirectory : before.files.isDirectory settings.outputPath = true)
    (hstems : (settings.recordings.map fun recording =>
      (settings.recordingPath recording).stem).Nodup) :
    ∃ summary after, run settings runner before = .ok (.ok summary) after ∧
      ((∀ recording ∈ settings.recordings,
          after.files.pathExists (settings.recordingPath recording) =
            before.files.pathExists (settings.recordingPath recording)) →
        ∃ told : Recording → Result, summary.results = settings.recordings.map told ∧
          ∀ recordings : List Recording, recordings.Perm settings.recordings →
            ∃ reordered left,
              run { settings with recordings := recordings } runner before =
                .ok (.ok reordered) left ∧
              reordered.results = recordings.map told ∧
              reordered.graphics = summary.graphics ∧ left.files.Same after.files) := by
  obtain ⟨summary, after, hrun, hresults, hgraphics, hfiles, -⟩ :=
    run_accounts hrunner hvalid hscript
  refine ⟨summary, after, hrun, fun hthere => ?_⟩
  rw [hfiles] at hthere
  obtain ⟨hfilled, deed, hfits, hdone⟩ := runAccount_eq hdirectory hthere
  have hfirst : runAccount settings answer before.files = _ :=
    hdone _ (List.Subset.refl _) _ (.refl _) hfilled.toPersists
  rw [hfirst] at hresults hfiles
  refine ⟨_, hresults, fun recordings hperm => ?_⟩
  have hsecond := hdone recordings hperm.subset _ (.refl _) hfilled.toPersists
  have hne : recordings ≠ [] := by
    rintro rfl
    exact recordings_ne_nil hvalid hperm.nil_eq.symm
  have hvalid' := validate_recordings hvalid hne
  obtain ⟨reordered, left, hrun', hresults', hgraphics', hfiles', -⟩ :=
    run_accounts hrunner hvalid' hscript
  rw [hsecond] at hresults' hfiles'
  -- the same files are filled with the same contents, in another order
  have hsame : left.files.Same after.files := by
    rw [hfiles, hfiles']
    refine fillAll_perm (hperm.flatMap_right _) ?_ fun writing hmem => ?_
    · exact written_apart hfits ((hperm.map _).nodup_iff.mpr hstems)
    · exact ne_root (takes_written hfits _ writing hmem)
  refine ⟨reordered, left, hrun', hresults', ?_, hsame⟩
  rw [hgraphics, hgraphics', graphicsIn, graphicsIn, Output.listGraphics_same hsame]
  rfl

/-- Recordings with different stems are rendered into the output directory that stands, and in the
other order they are so as well. -/
theorem run_permuted_branches :
    (Runner.steady (branchAnswer 0)).Steady (branchAnswer 0) ∧
    (branchSettings ["a/app.jfr", "b/web.jfr"]).validate = .ok () ∧
    standingBranches.isFile (branchSettings ["a/app.jfr", "b/web.jfr"]).rendererPath = true ∧
    standingBranches.isDirectory (branchSettings ["a/app.jfr", "b/web.jfr"]).outputPath = true ∧
    ∃ summary after, run (branchSettings ["a/app.jfr", "b/web.jfr"]) (.steady (branchAnswer 0))
        (Session.start standingBranches) = .ok (.ok summary) after ∧
      summary.renderedCount = 2 ∧
      ∃ reordered left, run (branchSettings ["b/web.jfr", "a/app.jfr"])
          (.steady (branchAnswer 0)) (Session.start standingBranches) =
            .ok (.ok reordered) left ∧
        reordered.results = summary.results.reverse ∧
        reordered.graphics = summary.graphics ∧ left.files.Same after.files := by
  have hfound : (run (branchSettings ["a/app.jfr", "b/web.jfr"]) (.steady (branchAnswer 0))).found?
      (Session.start standingBranches) (fun summary after => (summary.renderedCount,
        after.files.pathExists ⟨"./a/app.jfr"⟩, after.files.pathExists ⟨"./b/web.jfr"⟩)) =
      some (2, true, true) := by
    unfold run runWith
    simp only [branchSettings, List.map_cons, List.map_nil, convertAll]
    delta convertOne
    rw [Stack.fold_eq_tallied]
    decide +kernel
  obtain ⟨summary, after, hrun, hfound⟩ := Step.exists_of_found hfound
  obtain ⟨hcount, hfirst, hsecond⟩ : _ ∧ _ ∧ _ := by simpa only [Prod.mk.injEq] using hfound
  have hrunner := Runner.steady_steady (branchAnswer 0)
  have hvalid : (branchSettings ["a/app.jfr", "b/web.jfr"]).validate = .ok () := by decide +kernel
  have hscript : (Session.start standingBranches).files.isFile
      (branchSettings ["a/app.jfr", "b/web.jfr"]).rendererPath = true := by decide +kernel
  have hdirectory : (Session.start standingBranches).files.isDirectory
      (branchSettings ["a/app.jfr", "b/web.jfr"]).outputPath = true := by decide +kernel
  obtain ⟨_, _, hrun', hpermuted⟩ :=
    run_permuted hrunner hvalid hscript hdirectory (by decide +kernel)
  rw [hrun] at hrun'
  cases hrun'
  have hthere : ∀ recording ∈ (branchSettings ["a/app.jfr", "b/web.jfr"]).recordings,
      after.files.pathExists
          ((branchSettings ["a/app.jfr", "b/web.jfr"]).recordingPath recording) =
        standingBranches.pathExists
          ((branchSettings ["a/app.jfr", "b/web.jfr"]).recordingPath recording) := by
    refine List.forall_mem_cons.mpr ⟨?_, List.forall_mem_cons.mpr ⟨?_, by simp⟩⟩
    · exact hfirst.trans (by decide +kernel)
    · exact hsecond.trans (by decide +kernel)
  obtain ⟨result, hresults, hother⟩ := hpermuted hthere
  obtain ⟨reordered, left, hreordered, hresults', hgraphics, hsame⟩ :=
    hother (branchSettings ["b/web.jfr", "a/app.jfr"]).recordings (List.Perm.swap ..)
  refine ⟨hrunner, hvalid, hscript, hdirectory, summary, after, hrun, hcount, reordered, left,
    hreordered, ?_, hgraphics, hsame⟩
  rw [hresults, hresults', ← List.map_reverse]
  rfl

end FlameFold.Conversion
