import FlameFold.Path.Raw
import FlameFold.Proofs.Except
import FlameFold.Proofs.Report.Reading
import FlameFold.Proofs.Text.Decoded

/-!
# Spelling out the paths of a report

A report is spelled out exactly if each of its paths is a text, and then it is printed as the
report by these texts. Paths that are texts from the start are spelled out as they are.
-/

namespace FlameFold

namespace Report

variable {π ε : Type}

/-- The entry by other paths. -/
def Entry.mapPaths {ρ : Type} (f : π → ρ) (entry : Entry π) : Entry ρ :=
  { entry with
    recording := f entry.recording
    collapsed := entry.collapsed.map f
    graphic := entry.graphic.map f }

/-- The report by other paths. -/
def mapPaths {ρ : Type} (f : π → ρ) (report : Report π) : Report ρ :=
  { report with
    recordings := report.recordings.map (Entry.mapPaths f)
    graphics := report.graphics.map f }

variable {spell : π → Except ε Path} {origin : Path → π}

/-- An entry is spelled out as the one by the texts that its paths come from. -/
theorem Entry.spelled_ok_iff (h : ∀ p q, spell p = .ok q ↔ p = origin q) {entry : Entry π}
    {texts : Entry Path} :
    entry.spelled spell = .ok texts ↔ entry = texts.mapPaths origin := by
  simp only [Entry.spelled, bind_ok_iff, h, optionMapM_ok_iff h, mapPaths]
  constructor
  · rintro ⟨recording, hrecording, collapsed, hcollapsed, graphic, hgraphic, heq⟩
    cases heq
    rw [← hrecording, ← hcollapsed, ← hgraphic]
  · rintro rfl
    exact ⟨_, rfl, _, rfl, _, rfl, rfl⟩

/-- A report is spelled out as the one by the texts that its paths come from. -/
theorem spelled_ok_iff (h : ∀ p q, spell p = .ok q ↔ p = origin q) {report : Report π}
    {texts : Report Path} :
    report.spelled spell = .ok texts ↔ report = texts.mapPaths origin := by
  simp only [spelled, bind_ok_iff, mapM_ok_iff fun _ _ => Entry.spelled_ok_iff h,
    mapM_ok_iff h, mapPaths]
  constructor
  · rintro ⟨recordings, hrecordings, graphics, hgraphics, heq⟩
    cases heq
    rw [← hrecordings, ← hgraphics]
  · rintro rfl
    exact ⟨_, rfl, _, rfl, rfl⟩

/-- A path that comes from a text is printed as the text. -/
theorem pathTree_origin (h : ∀ p q, spell p = .ok q ↔ p = origin q) (q : Path) :
    pathTree spell (origin q) = pathTree Path.spell q := by
  rw [pathTree, (h (origin q) q).mpr rfl]
  rfl

/-- A report by paths that come from texts is printed as the report by the texts. -/
theorem tree_mapPaths (h : ∀ p q, spell p = .ok q ↔ p = origin q) (texts : Report Path) :
    (texts.mapPaths origin).tree spell = texts.tree Path.spell := by
  have hpath : pathTree spell ∘ origin = pathTree Path.spell := funext (pathTree_origin h)
  have hentry : Entry.tree spell ∘ Entry.mapPaths origin = Entry.tree Path.spell := by
    funext entry
    simp only [Function.comp_apply, Entry.tree, Entry.mapPaths, Option.map_map, hpath,
      pathTree_origin h]
  simp only [tree, mapPaths, List.map_map, hpath, hentry]

/-- Of a report that is spelled out all of the text is printed. -/
theorem begun_of_spelled (h : ∀ p q, spell p = .ok q ↔ p = origin q) {report : Report π}
    {texts : Report Path} (hspelled : report.spelled spell = .ok texts) :
    report.begun spell = texts.render := by
  rw [(spelled_ok_iff h).mp hspelled, begun, tree_mapPaths h,
    Json.Tree.begun_eq_render texts.tree_fits]
  rfl

/-- A path that is a text is spelled out as it is. -/
theorem path_spell_iff (p q : Path) : p.spell = .ok q ↔ p = id q := by
  simp [Path.spell]

/-- A report by texts is spelled out as it is. -/
theorem spelled_texts (report : Report Path) : report.spelled Path.spell = .ok report := by
  refine (spelled_ok_iff path_spell_iff).mpr ?_
  have hentry : (Entry.mapPaths id : Entry Path → Entry Path) = id := by
    funext entry
    simp [Entry.mapPaths]
  simp [mapPaths, hentry]

/-- All of a report by texts is printed. -/
theorem begun_texts (report : Report Path) : report.begun Path.spell = report.render :=
  begun_of_spelled path_spell_iff report.spelled_texts

/-- A path of bytes is spelled out exactly if it is the path of a text. -/
theorem rawPath_spell_iff (p : RawPath) (q : Path) : p.spell = .ok q ↔ p = .ofText q.text := by
  obtain ⟨bytes⟩ := p
  obtain ⟨expected⟩ := q
  have htext : Text.decode? bytes = some expected ↔ RawPath.mk bytes = .ofText expected := by
    rw [Text.decode?_eq_some_iff, RawPath.ofText, RawPath.mk.injEq]
  rw [← htext, RawPath.spell]
  cases Text.decode? bytes with
  | none => simp
  | some text => simp

end Report

end FlameFold
