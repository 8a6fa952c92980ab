import FlameFold.Proofs.Output.Collapsed

/-!
# Frames in a signature

A signature is cut at its semicolons into components. The components are the frames of the
sample, from the root to the leaf, as long as no frame has a semicolon of its own: then the
signature tells the frames, and samples with different frames are counted apart. A frame with
a semicolon falls into several components, any of which may be empty or the word `null`.
-/

namespace FlameFold.Stack

/-- The components of a signature: what stands between its semicolons. -/
def components (signature : String) : List String :=
  (signature.toList.splitOn ';').map String.ofList

/-- No frame has a semicolon of its own. -/
def Separable (frames : List String) : Prop := ∀ frame ∈ frames, ';' ∉ frame.toList

/-- A semicolon parts the components before it from those after it. -/
theorem components_append (left right : String) :
    components (left ++ ";" ++ right) = components left ++ components right := by
  simp [components, List.splitOn_append_cons_self]

/-- The components of a signature are those of its frames, one frame after the other. -/
theorem components_signature {frames : List String} (h : frames ≠ []) :
    components (signature frames) = frames.flatMap components := by
  induction frames with
  | nil => exact absurd rfl h
  | cons frame rest ih =>
    cases rest with
    | nil => simp [signature]
    | cons next more =>
      have hmore := ih (List.cons_ne_nil next more)
      rw [signature] at hmore ⊢
      rw [String.intercalate_cons_cons, components_append, hmore]
      exact List.flatMap_cons.symm

/-- No component has a semicolon. -/
theorem notMem_of_mem_components {signature component : String}
    (h : component ∈ components signature) : ';' ∉ component.toList := by
  obtain ⟨chars, hchars, rfl⟩ := List.mem_map.mp h
  rw [String.toList_ofList]
  exact Text.notMem_of_mem_splitOn hchars

/-- A text without semicolons is one component. -/
theorem components_eq_singleton {frame : String} (h : ';' ∉ frame.toList) :
    components frame = [frame] := by
  simp [components, List.splitOn_eq_singleton h]

/-- The components of a signature are its frames exactly if no frame has a semicolon. -/
theorem components_signature_eq_iff {frames : List String} (h : frames ≠ []) :
    components (signature frames) = frames ↔ Separable frames := by
  constructor
  · intro heq frame hframe
    rw [← heq] at hframe
    exact notMem_of_mem_components hframe
  · intro hseparable
    rw [components_signature h]
    have hone : ∀ frame ∈ frames, components frame = [frame] :=
      fun frame hframe => components_eq_singleton (hseparable frame hframe)
    rw [List.flatMap_congr hone, List.flatMap_singleton']

theorem Separable.reverse {frames : List String} (h : Separable frames) :
    Separable frames.reverse := fun frame hframe => h frame (List.mem_reverse.mp hframe)

/-- The word `null` is no frame. -/
theorem LineKind.ne_null_of_frame {event line frame : String}
    (h : LineKind.ofLine event line = .frame frame) : frame ≠ "null" := by
  obtain ⟨-, -, hignored⟩ := LineKind.of_frame h
  intro hnull
  exact hignored (by simp [hnull])

section

variable {text event : String} {frames others : List String}

/-- The components of the signature of a sample are its frames from the root to the leaf,
exactly if no frame has a semicolon. -/
theorem components_sample_eq_iff (h : frames ∈ samples (lineKinds text event)) :
    components (signature frames.reverse) = frames.reverse ↔ Separable frames := by
  have hne : frames.reverse ≠ [] := List.reverse_ne_nil_iff.mpr (samples_text h).1
  rw [components_signature_eq_iff hne]
  refine ⟨fun hseparable => ?_, Separable.reverse⟩
  rw [← List.reverse_reverse frames]
  exact hseparable.reverse

/-- No component of the signature of a separable sample is empty or `null`. -/
theorem component_of_sample (h : frames ∈ samples (lineKinds text event))
    (hseparable : Separable frames) {component : String}
    (hcomponent : component ∈ components (signature frames.reverse)) :
    component ≠ "" ∧ component ≠ "null" := by
  rw [(components_sample_eq_iff h).mpr hseparable] at hcomponent
  obtain ⟨line, -, hline⟩ := exists_line_of_mem_sample h (List.mem_reverse.mp hcomponent)
  refine ⟨fun hempty => ?_, LineKind.ne_null_of_frame hline⟩
  exact LineKind.ne_empty_of_frame hline (by simp [hempty])

/-- The signature of a separable sample tells its frames among all such samples. -/
theorem signature_reverse_injective (h : frames ∈ samples (lineKinds text event))
    (hothers : others ∈ samples (lineKinds text event)) (hseparable : Separable frames)
    (hseparable' : Separable others)
    (heq : signature frames.reverse = signature others.reverse) : frames = others := by
  have hframes := (components_sample_eq_iff h).mpr hseparable
  rw [heq, (components_sample_eq_iff hothers).mpr hseparable'] at hframes
  exact (List.reverse_injective hframes).symm

/-- Where all samples are separable, the samples that are counted under a signature are those
with exactly its frames. -/
theorem count_signatures (hall : ∀ sample ∈ samples (lineKinds text event), Separable sample)
    (h : frames ∈ samples (lineKinds text event)) :
    (signatures (lineKinds text event)).count (signature frames.reverse) =
      (samples (lineKinds text event)).count frames := by
  rw [signatures, List.count, List.countP_map, List.count]
  refine List.countP_congr fun sample hsample => ?_
  simp only [Function.comp_apply, beq_iff_eq]
  refine ⟨fun heq => ?_, fun heq => by rw [heq]⟩
  exact signature_reverse_injective hsample h (hall sample hsample) (hall frames h) heq

end

/-- What the signatures of a dump keep of its frames. The components of the signature of a
sample are the components of its frames from the root to the leaf; they are the frames
themselves exactly if no frame has a semicolon, and then none of them is empty or `null`. Two
samples without semicolons in their frames are counted under one signature only if their
frames are the same, and every entry of the table has the signature of a sample. Where no
sample has a semicolon in its frames, each sample is counted with those that have exactly its
frames. -/
theorem fold_keeps_frames (text event : String) :
    (∀ frames ∈ samples (lineKinds text event),
      components (signature frames.reverse) = frames.reverse.flatMap components ∧
        (components (signature frames.reverse) = frames.reverse ↔ Separable frames) ∧
        (Separable frames → ∀ component ∈ components (signature frames.reverse),
          component ≠ "" ∧ component ≠ "null")) ∧
      (∀ frames ∈ samples (lineKinds text event), ∀ others ∈ samples (lineKinds text event),
        Separable frames → Separable others →
          signature frames.reverse = signature others.reverse → frames = others) ∧
      (∀ entry ∈ (fold text event).table.toList, ∃ frames ∈ samples (lineKinds text event),
        entry.signature = signature frames.reverse) ∧
      ((∀ frames ∈ samples (lineKinds text event), Separable frames) →
        ∀ frames ∈ samples (lineKinds text event),
          (fold text event).table.get? (signature frames.reverse) =
            some ((samples (lineKinds text event)).count frames)) := by
  refine ⟨fun frames h => ⟨?_, components_sample_eq_iff h,
    fun hseparable component => component_of_sample h hseparable⟩,
    fun frames h others hothers => signature_reverse_injective h hothers,
    fun entry hentry => ?_, fun hall frames h => ?_⟩
  · exact components_signature (List.reverse_ne_nil_iff.mpr (samples_text h).1)
  · obtain ⟨frames, hframes, hsignature⟩ := List.mem_map.mp (mem_signatures_of_mem_fold hentry)
    exact ⟨frames, hframes, hsignature.symm⟩
  · have hmem : signature frames.reverse ∈ signatures (lineKinds text event) :=
      List.mem_map.mpr ⟨frames, h, rfl⟩
    rw [(fold_tallies text event).get?_eq, if_pos hmem, count_signatures hall h]

/-- A dump of two stacks, one of them with two samples. -/
def crossedDump : String := "b\na\n\na\nb\n\na\nb\n\n"

/-- In this dump no frame has a semicolon, and the two stacks are counted apart. -/
theorem fold_keeps_frames_crossed :
    (∀ frames ∈ samples (lineKinds crossedDump "event"), Separable frames) ∧
      ["a", "b"] ∈ samples (lineKinds crossedDump "event") ∧
      ["b", "a"] ∈ samples (lineKinds crossedDump "event") ∧
      components (signature ["b", "a"]) = ["b", "a"] ∧
      signature ["a", "b"] ≠ signature ["b", "a"] ∧
      (fold crossedDump "event").table.get? (signature ["b", "a"]) = some 2 := by
  have hsamples : samples (lineKinds crossedDump "event") =
      [["b", "a"], ["a", "b"], ["a", "b"]] := by decide +kernel
  have hall : ∀ frames ∈ samples (lineKinds crossedDump "event"), Separable frames := by
    rw [hsamples]
    simp [Separable]
  have hfirst : ["b", "a"] ∈ samples (lineKinds crossedDump "event") := by simp [hsamples]
  have hsecond : ["a", "b"] ∈ samples (lineKinds crossedDump "event") := by simp [hsamples]
  obtain ⟨hkept, hapart, -, hcount⟩ := fold_keeps_frames crossedDump "event"
  refine ⟨hall, hsecond, hfirst, (hkept _ hsecond).2.1.mpr (hall _ hsecond), fun heq => ?_, ?_⟩
  · exact absurd (hapart _ hfirst _ hsecond (hall _ hfirst) (hall _ hsecond) heq) (by decide)
  · rw [hsamples] at hcount hall
    exact hcount hall ["a", "b"] (by simp)

/-- A dump whose frames have semicolons. -/
def pointedDump : String := "a;b\n\nb\na\n\nmain;null;\n\n"

/-- In this dump the frame `a;b` falls into two components, so its sample is counted together
with that of the frames `a` and `b`, and a frame gives the components `null` and nothing. -/
theorem frames_run_together :
    (∃ frames ∈ samples (lineKinds pointedDump "event"),
        components (signature frames.reverse) ≠ frames.reverse) ∧
      (∃ frames ∈ samples (lineKinds pointedDump "event"),
        ∃ others ∈ samples (lineKinds pointedDump "event"), frames ≠ others ∧
          signature frames.reverse = signature others.reverse ∧
          (fold pointedDump "event").table.get? (signature frames.reverse) = some 2) ∧
      (∃ entry ∈ (fold pointedDump "event").table.toList,
        "null" ∈ components entry.signature ∧ "" ∈ components entry.signature) := by
  have hsamples : samples (lineKinds pointedDump "event") =
      [["a;b"], ["b", "a"], ["main;null;"]] := by decide +kernel
  have hentries : (fold pointedDump "event").table.toList =
      [⟨"a;b", 2⟩, ⟨"main;null;", 1⟩] := by
    rw [fold_eq_tallied]
    decide +kernel
  have hcount : (fold pointedDump "event").table.get? "a;b" = some 2 := by
    rw [(fold_tallies pointedDump "event").get?_eq]
    decide +kernel
  refine ⟨⟨["a;b"], by simp [hsamples], by decide +kernel⟩, ⟨["a;b"], by simp [hsamples],
    ["b", "a"], by simp [hsamples], by decide, by decide +kernel, hcount⟩,
    ⟨⟨"main;null;", 1⟩, by simp [hentries], by decide +kernel, by decide +kernel⟩⟩

end FlameFold.Stack
