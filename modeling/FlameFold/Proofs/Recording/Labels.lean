import FlameFold.Proofs.Path.FileName
import FlameFold.Proofs.Recording.Written
import FlameFold.Settings.Basic

/-!
# Labels and the names of files

A recording that is given without a label is labelled with the stem of its file as it is written.
Its two files are named by the stem of the path that it is found at. Both stems are the same,
wherever the root directory is and however it is written, so the label says what the files are
called.
-/

namespace FlameFold.Recording

variable {spec : String} {recording : Recording}

/-- The path that a recording is found at has the stem of its file. -/
theorem fileStem?_recordingPath {stem : String} (h : recording.file.fileStem? = some stem)
    (settings : Settings) : (settings.recordingPath recording).fileStem? = some stem :=
  Path.fileStem?_join h settings.root

/-- The files of a path with a stem are this stem with their endings, in the output directory. -/
theorem artifacts_of_stem {path : Path} {stem : String} (h : path.fileStem? = some stem)
    (directory : Path) : Artifacts.of directory path =
      { collapsed := directory.join ⟨stem ++ "_collapsed.txt"⟩
        graphic := directory.join ⟨stem ++ "_flamegraph.svg"⟩ } := by
  rw [Artifacts.of, h]
  rfl

/-- A recording that is read from a text without an equals sign has the stem of the path that it
is found at as its label, and its files are the label with their endings, in the output
directory. -/
theorem label_names_artifacts (h : ofSpec spec = .ok recording) (hequals : '=' ∉ spec.toList)
    (settings : Settings) :
    (settings.recordingPath recording).fileStem? = some recording.label ∧
      Artifacts.of settings.outputPath (settings.recordingPath recording) =
        { collapsed := settings.outputPath.join ⟨recording.label ++ "_collapsed.txt"⟩
          graphic := settings.outputPath.join ⟨recording.label ++ "_flamegraph.svg"⟩ } := by
  have hstem := fileStem?_recordingPath (label_of_bare h hequals) settings
  exact ⟨hstem, artifacts_of_stem hstem settings.outputPath⟩

/-- The file of this recording ends in a slash and a dot, and so does the root directory in a
slash. -/
theorem label_names_artifacts_slashed :
    ofSpec " traces/run.v2.jfr/. " = .ok ⟨⟨"traces/run.v2.jfr/."⟩, "run.v2"⟩ ∧
      '=' ∉ " traces/run.v2.jfr/. ".toList ∧
      Artifacts.of ⟨"data/"⟩ ⟨"data/traces/run.v2.jfr/."⟩ =
        ⟨⟨"data/run.v2_collapsed.txt"⟩, ⟨"data/run.v2_flamegraph.svg"⟩⟩ := by
  have hread : ofSpec " traces/run.v2.jfr/. " = .ok ⟨⟨"traces/run.v2.jfr/."⟩, "run.v2"⟩ := by
    decide +kernel
  have hequals : '=' ∉ " traces/run.v2.jfr/. ".toList := by decide
  obtain ⟨-, hnames⟩ := label_names_artifacts hread hequals
    { Settings.standard with root := ⟨"data/"⟩ }
  have hpath : ({ Settings.standard with root := ⟨"data/"⟩ } : Settings).recordingPath
      ⟨⟨"traces/run.v2.jfr/."⟩, "run.v2"⟩ = ⟨"data/traces/run.v2.jfr/."⟩ := by decide +kernel
  have hfiles : Artifacts.mk ((Path.mk "data/").join ⟨"run.v2" ++ "_collapsed.txt"⟩)
      ((Path.mk "data/").join ⟨"run.v2" ++ "_flamegraph.svg"⟩) =
      ⟨⟨"data/run.v2_collapsed.txt"⟩, ⟨"data/run.v2_flamegraph.svg"⟩⟩ := by decide +kernel
  rw [hpath] at hnames
  exact ⟨hread, hequals, hnames.trans hfiles⟩

end FlameFold.Recording
