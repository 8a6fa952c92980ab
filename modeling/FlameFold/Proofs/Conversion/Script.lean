import FlameFold.Machine.Runner
import FlameFold.Proofs.Conversion.Asking
import FlameFold.Proofs.Conversion.Listed
import FlameFold.Proofs.Machine.Lookup

/-!
# The script that renders

A run starts only if the renderer script is a file, and calls the script later by its path. The
file that was found is the one that is called, whatever the programs called before do to the
files, because a path with a slash leads nowhere else. The path of the script has a slash unless
the root directory has no text and the script is a bare name. Then the file is found in the
working directory, and the program is looked for on the search path.
-/

namespace FlameFold

/-- The programs called do not change the working directory. -/
def Runner.Stays (runner : Runner) : Prop :=
  ∀ files calls invocation, (runner files calls invocation).files.here = files.here

/-- The programs of a machine do not change the working directory. -/
theorem Machine.runner_stays : Machine.runner.Stays := by
  intro files calls invocation
  rw [Machine.runner, Program.System.runner, Machine.system]
  cases resolve files invocation.program invocation.arguments with
  | error cause => rfl
  | ok found =>
    dsimp only
    cases Shell.launch found (.start files (invocation.input.getD [])
      (invocation.limit.map lastLook)) with
    | mk status left =>
      dsimp only
      cases (invocation.run (.ok (child status left))).result <;> rfl

/-- The path of the renderer script has a slash unless the root directory has no text and the
script is a bare name. -/
theorem Settings.slash_mem_rendererPath (settings : Settings) :
    '/' ∈ settings.rendererPath.text.toList ↔
      settings.root.text ≠ "" ∨ '/' ∈ settings.rendererScript.text.toList := by
  rw [rendererPath, resolve]
  cases habsolute : settings.rendererScript.isAbsolute with
  | true =>
    have hslash : '/' ∈ settings.rendererScript.text.toList :=
      List.mem_of_mem_head? (beq_iff_eq.mp habsolute)
    rw [Path.join, if_pos habsolute]
    simp [hslash]
  | false =>
    rw [Path.join_text_relative habsolute, Path.glue]
    by_cases hroot : settings.root.text = ""
    · simp [hroot]
    · have hfull : settings.root.text.toList ≠ [] := by simpa using hroot
      by_cases hlast : settings.root.text.toList.getLast? = some '/'
      · simp [hroot, hlast, List.mem_of_mem_getLast? hlast]
      · simp [hroot, hfull, hlast]

namespace Conversion

variable {settings : Settings} {runner : Runner} {before : Session} {script : Path}

/-- A run asks for dumps of its recordings and for renderings alone, all of them in the working
directory that it starts in. -/
theorem run_asksOnly {asked : FileSystem → Program.Invocation → Prop} (hrunner : runner.Stays)
    (hdump : ∀ recording ∈ settings.recordings, ∀ files : FileSystem,
      files.here = before.files.here →
        asked files (dumpCall settings (settings.recordingPath recording)))
    (h : ∀ input (files : FileSystem), files.here = before.files.here →
      asked files (renderCall settings input)) :
    Step.AsksOnly asked (run settings) runner before := by
  intro other halike
  have hcalled : runner.Keeping fun files => files.here = before.files.here :=
    fun files calls invocation hhere => (hrunner files calls invocation).trans hhere
  have hsaved : Output.Keeping fun files => files.here = before.files.here :=
    fun files p content hhere => (Output.saved_keeps rfl).1.here.trans hhere
  exact (run_alike hcalled hsaved halike.agrees hdump h).eq halike rfl

/-- What a run asks its runner for: a dump of one of its recordings, or a rendering by a program
whose name means the file at this place. -/
inductive Meant (settings : Settings) (script : Path) (place : Location) :
    FileSystem → Program.Invocation → Prop where
  /-- The dump tool is called for a recording. -/
  | dump {recording : Recording} (h : recording ∈ settings.recordings) (files : FileSystem) :
    Meant settings script place files (dumpCall settings (settings.recordingPath recording))
  /-- The renderer is called. -/
  | render (input : List UInt8) {files : FileSystem}
    (h : Machine.Means files ((rendererOf settings script).invocation input).program place) :
    Meant settings script place files ((rendererOf settings script).invocation input)

/-- The script that a run starts with is a file. If the root directory has a text, or the script
is no bare name, this file is what every rendering in the run calls: no other path is tried for
it, the path leads to no other place, and only what stands at this place is started. Otherwise
what is started is found in a directory of the search path, and it is this file only if that
directory is the working directory. -/
theorem renderer_means_script (hrunner : runner.Stays)
    (hfound : findRenderer settings before.files = .ok script) :
    ∃ place content marked, before.files.locate script = .ok place ∧
      before.files.node? place = some (.file content marked) ∧
      (settings.root.text ≠ "" ∨ '/' ∈ settings.rendererScript.text.toList →
        Step.AsksOnly (Meant settings script place) (run settings) runner before) ∧
      (settings.root.text = "" → '/' ∉ settings.rendererScript.text.toList →
        ∀ files : FileSystem, files.here = before.files.here → ∀ input p there found,
          Machine.lookup files ((rendererOf settings script).invocation input).program =
              .ok (p, there, found) →
            ∃ directory ∈ Machine.searchPath, p = directory.join script ∧
              (there = place ↔ files.locate directory = .ok files.here)) := by
  obtain ⟨rfl, hfile⟩ := findRenderer_eq_ok_iff.mp hfound
  obtain ⟨place, hl, content, marked, hn⟩ := FileSystem.isFile_iff.mp hfile
  have hslash := settings.slash_mem_rendererPath
  refine ⟨place, content, marked, hl, hn, fun hnamed => ?_, fun hroot hbare files hhere input p
    there found hlookup => ?_⟩
  · have hmeans : ∀ files : FileSystem, files.here = before.files.here →
        Machine.Means files settings.rendererPath.text place := fun files hhere =>
      Machine.means_of_slash (hslash.mpr hnamed) hl hhere
    exact run_asksOnly hrunner (fun _ hmem files _ => .dump hmem files)
      fun input files hhere => .render input (hmeans files hhere)
  · have hname : '/' ∉ settings.rendererPath.text.toList := fun h =>
      (hslash.mp h).elim (fun hne => hne hroot) hbare
    exact Machine.lookup_of_bare hname hl hn hhere hlookup

/-- The workplace with another program that has the name of the renderer script, in a directory
of the search path. -/
def crowdedWorkplace : FileSystem where
  nodes :=
    workplace.nodes ++
      [([Text.encode "usr"], .directory), ([Text.encode "bin", Text.encode "usr"], .directory),
        ([Text.encode "render.pl", Text.encode "bin", Text.encode "usr"], .file [] true)]
  here := []

/-- In the workplace the script is called, and not its namesake. -/
theorem renderer_means_script_crowded :
    Machine.runner.Stays ∧
    findRenderer (workSettings "out") crowdedWorkplace = .ok ⟨"./render.pl"⟩ ∧
    Step.AsksOnly (Meant (workSettings "out") ⟨"./render.pl"⟩ [Text.encode "render.pl"])
      (run (workSettings "out")) Machine.runner (Session.start crowdedWorkplace) := by
  have hfound : findRenderer (workSettings "out") (Session.start crowdedWorkplace).files =
      .ok ⟨"./render.pl"⟩ := by decide +kernel
  have hplace : crowdedWorkplace.locate ⟨"./render.pl"⟩ = .ok [Text.encode "render.pl"] := by
    decide +kernel
  obtain ⟨place, content, marked, hl, hn, hcalled, -⟩ :=
    renderer_means_script Machine.runner_stays hfound
  obtain rfl : [Text.encode "render.pl"] = place := Except.ok.inj (hplace.symm.trans hl)
  exact ⟨Machine.runner_stays, hfound, hcalled (.inl (by decide))⟩

/-- Where the root directory has no text and the script is a bare name, its namesake is called. -/
theorem namesake_called :
    ¬∀ (settings : Settings) (files : FileSystem) (script : Path) (place : Location),
      settings.validate = .ok () → findRenderer settings files = .ok script →
      files.locate script = .ok place → ∀ input p there content,
        Machine.lookup files ((rendererOf settings script).invocation input).program =
          .ok (p, there, content) → there = place := by
  intro h
  let settings : Settings := { workSettings "out" with root := ⟨""⟩ }
  have hsame := h settings crowdedWorkplace ⟨"render.pl"⟩ [Text.encode "render.pl"]
    (by decide +kernel) (by decide +kernel) (by decide +kernel) []
    ⟨"/usr/bin/render.pl"⟩ [Text.encode "render.pl", Text.encode "bin", Text.encode "usr"] []
    (by decide +kernel)
  exact absurd hsame (by decide)

end Conversion

end FlameFold
