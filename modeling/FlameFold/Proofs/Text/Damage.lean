import FlameFold.Proofs.Text.Pieces
import FlameFold.Proofs.Text.Utf8

/-!
# Damaged text keeps its lines

A newline can neither continue a character nor be read from several bytes. So the reader,
wherever it stands, ends at a newline what it has begun and starts afresh behind it: the lines
of what it reads are the lines of the bytes, each read on its own.
-/

namespace FlameFold.Text

/-- The byte of a newline. -/
def newlineByte : UInt8 := 0x0A

/-- A character begun as the reader begins one: no plain byte continues it, and its value is
or becomes too large for a plain character. -/
structure Begun.Sound (begun : Begun) : Prop where
  /-- Some byte is still to come. -/
  missing : 1 ≤ begun.missing
  /-- The next byte is no plain one. -/
  low : 0x80 ≤ begun.low.toNat
  /-- The value is large enough, or the next byte makes it so and is not the last one. -/
  large : 2 ≤ begun.value ∨ (2 ≤ begun.missing ∧ (1 ≤ begun.value ∨ 0x90 ≤ begun.low.toNat))

/-- A first byte begins a character soundly. -/
theorem Begun.ofLead?_sound {b : UInt8} {begun : Begun} (h : ofLead? b = some begun) :
    begun.Sound := by
  have hplain : 0x80 ≤ (0x80 : UInt8).toNat := by decide
  unfold ofLead? at h
  extract_lets n at h
  split_ifs at h with htwo he0 hed hthree hf0 hfour hf4
  all_goals obtain rfl := Option.some.inj h
  · exact ⟨le_rfl, hplain, .inl (show 2 ≤ n - 0xC0 by omega)⟩
  · exact ⟨one_le_two, by decide, .inr (by decide)⟩
  · exact ⟨one_le_two, hplain, .inl (by decide)⟩
  · exact ⟨one_le_two, hplain, .inr ⟨le_rfl, .inl (show 1 ≤ n - 0xE0 by omega)⟩⟩
  · exact ⟨show 1 ≤ 3 by decide, by decide, .inr (by decide)⟩
  · have hlead : 1 ≤ n - 0xF0 := by omega
    exact ⟨show 1 ≤ 3 by decide, hplain, .inr ⟨show 2 ≤ 3 by decide, .inl hlead⟩⟩
  · exact ⟨show 1 ≤ 3 by decide, hplain, .inl (by decide)⟩

/-- Only its own number makes a plain character. -/
theorem ofNat_ne_plain {n plain : Nat} (h : n ≠ plain) (hpos : 0 < plain) (hplain : plain < 0x80) :
    Char.ofNat n ≠ Char.ofNat plain := by
  intro heq
  have hvalid : plain.isValidChar := .inl (by omega)
  have hnumber := congrArg Char.toNat heq
  rw [Char.ofNat, Char.ofNat, dif_pos hvalid] at hnumber
  by_cases hn : n.isValidChar
  · rw [dif_pos hn] at hnumber
    exact h hnumber
  · rw [dif_neg hn] at hnumber
    exact hpos.ne hnumber

namespace Reader

/-- The reader as it stands behind characters read before. -/
def behind (r : Reader) (earlier : List Char) (damaged : Bool) : Reader :=
  ⟨r.written ++ earlier, r.begun, damaged || r.damaged⟩

variable (r : Reader) (earlier : List Char) (damaged : Bool)

/-- What was read before makes no difference to a byte read with nothing begun. -/
theorem fresh_behind (written : List Char) (now : Bool) (b : UInt8) :
    fresh (written ++ earlier) (damaged || now) b =
      (fresh written now b).behind earlier damaged := by
  unfold fresh
  split
  · rfl
  · cases Begun.ofLead? b with
    | some begun => rfl
    | none => simp [behind]

/-- What was read before makes no difference to the next byte. -/
theorem step_behind (b : UInt8) :
    (r.behind earlier damaged).step b = (r.step b).behind earlier damaged := by
  obtain ⟨written, begun, now⟩ := r
  cases begun with
  | none => exact fresh_behind earlier damaged written now b
  | some begun =>
    simp only [step, behind]
    split
    · split <;> rfl
    · have hfresh := fresh_behind earlier damaged (replacement :: written) true b
      rw [Bool.or_true] at hfresh
      exact hfresh

/-- What was read before makes no difference to the bytes that follow. -/
theorem foldl_step_behind (bytes : List UInt8) :
    bytes.foldl step (r.behind earlier damaged) =
      (bytes.foldl step r).behind earlier damaged := by
  induction bytes generalizing r with
  | nil => rfl
  | cons b rest ih => rw [List.foldl_cons, List.foldl_cons, step_behind, ih]

/-- Nor does it to the end of the bytes. -/
theorem finish_behind :
    (r.behind earlier damaged).finish = r.finish.behind earlier damaged := by
  obtain ⟨written, begun, now⟩ := r
  cases begun with
  | none => rfl
  | some begun => simp [finish, behind]

/-- A character that the reader has begun is begun soundly. -/
def Sound (r : Reader) : Prop := ∀ begun ∈ r.begun, begun.Sound

theorem start_sound : start.Sound := by
  intro begun hbegun
  cases hbegun

/-- With nothing begun before it, a byte begins a character soundly or none. -/
theorem fresh_sound (written : List Char) (now : Bool) (b : UInt8) :
    (fresh written now b).Sound := by
  intro begun hbegun
  unfold fresh at hbegun
  split at hbegun
  · cases hbegun
  · cases hlead : Begun.ofLead? b with
    | some lead =>
      rw [hlead] at hbegun
      obtain rfl : lead = begun := Option.some.inj hbegun
      exact Begun.ofLead?_sound hlead
    | none =>
      rw [hlead] at hbegun
      cases hbegun

variable {r}

/-- What is begun stays sound from byte to byte. -/
theorem Sound.step (h : r.Sound) (b : UInt8) : (r.step b).Sound := by
  obtain ⟨written, begun, now⟩ := r
  cases begun with
  | none => exact fresh_sound written now b
  | some begun =>
    obtain ⟨hmissing, hlow, hlarge⟩ := h begun rfl
    simp only [Reader.step]
    split
    · next hrange =>
      split
      · intro other hother
        cases hother
      · next hmore =>
        intro other hother
        obtain rfl := Option.some.inj hother
        have hb : begun.low.toNat ≤ b.toNat := UInt8.le_iff_toNat_le.mp hrange.1
        have hvalue : 2 ≤ begun.value * 64 + (b.toNat - 0x80) := by omega
        exact ⟨show 1 ≤ begun.missing - 1 by omega, show 128 ≤ (0x80 : UInt8).toNat by decide,
          .inl hvalue⟩
    · exact fresh_sound _ true b

/-- What is begun stays sound over all bytes. -/
theorem Sound.foldl_step (h : r.Sound) (bytes : List UInt8) :
    (bytes.foldl Reader.step r).Sound := by
  induction bytes generalizing r with
  | nil => exact h
  | cons b rest ih => exact ih (h.step b)

/-- A newline ends what was begun, and is read as itself. -/
theorem Sound.step_newline (h : r.Sound) :
    r.step newlineByte = ⟨'\n' :: r.finish.written, none, r.finish.damaged⟩ := by
  obtain ⟨written, begun, now⟩ := r
  cases begun with
  | none => rfl
  | some begun =>
    have hlow := (h begun rfl).low
    have hnot : ¬(begun.low ≤ newlineByte ∧ newlineByte ≤ begun.high) := by
      intro hrange
      have hle : begun.low.toNat ≤ newlineByte.toNat := UInt8.le_iff_toNat_le.mp hrange.1
      have hnewline : newlineByte.toNat = 10 := rfl
      omega
    simp only [Reader.step, if_neg hnot]
    rfl

/-- A byte with another number than a plain character is not read as this character, alone or with
the bytes before it. -/
theorem Sound.plain_notMem_step (h : r.Sound) {plain : Nat} (hpos : 0 < plain)
    (hplain : plain < 0x80) (hr : Char.ofNat plain ∉ r.written) {b : UInt8}
    (hb : b.toNat ≠ plain) : Char.ofNat plain ∉ (r.step b).written := by
  have hreplacement : Char.ofNat plain ≠ replacement :=
    (ofNat_ne_plain (n := 0xFFFD) (by omega) hpos hplain).symm
  have hfresh : ∀ written now, Char.ofNat plain ∉ written →
      Char.ofNat plain ∉ (fresh written now b).written := by
    intro written now hwritten
    unfold fresh
    split
    · simp [(ofNat_ne_plain hb hpos hplain).symm, hwritten]
    · cases Begun.ofLead? b with
      | some begun => exact hwritten
      | none => simp [hreplacement, hwritten]
  obtain ⟨written, begun, now⟩ := r
  cases begun with
  | none => exact hfresh written now hr
  | some begun =>
    obtain ⟨hmissing, hlow, hlarge⟩ := h begun rfl
    simp only [Reader.step]
    split
    · next hrange =>
      split
      · next hlast =>
        have hnumber : begun.value * 64 + (b.toNat - 0x80) ≠ plain := by omega
        simp [(ofNat_ne_plain hnumber hpos hplain).symm, hr]
      · exact hr
    · exact hfresh _ true (by simp [hreplacement, hr])

/-- Bytes without a plain character are read without it. -/
theorem plain_notMem_run {bytes : List UInt8} {plain : Nat} (hpos : 0 < plain)
    (hplain : plain < 0x80) (h : UInt8.ofNat plain ∉ bytes) :
    Char.ofNat plain ∉ (run bytes).written := by
  have hfold : ∀ r : Reader, r.Sound → Char.ofNat plain ∉ r.written →
      Char.ofNat plain ∉ (bytes.foldl Reader.step r).written := by
    induction bytes with
    | nil => exact fun r _ hr => hr
    | cons b rest ih =>
      obtain ⟨hb, hrest⟩ := not_or.mp (List.mem_cons.not.mp h)
      have hnumber : b.toNat ≠ plain := by
        rintro rfl
        exact hb UInt8.ofNat_toNat
      intro r hsound hr
      exact ih hrest (r.step b) (hsound.step b) (hsound.plain_notMem_step hpos hplain hr hnumber)
  have hread := hfold start start_sound List.not_mem_nil
  have hreplacement : Char.ofNat plain ≠ replacement :=
    (ofNat_ne_plain (n := 0xFFFD) (by omega) hpos hplain).symm
  unfold run finish
  split
  · exact hread
  · simp [hreplacement, hread]

/-- What stands before a newline is read to its end, and what follows it from the start. -/
theorem run_newline (earlier later : List UInt8) :
    (run (earlier ++ newlineByte :: later)).written =
      (run later).written ++ '\n' :: (run earlier).written := by
  have hsound := start_sound.foldl_step earlier
  have hnewline : (earlier.foldl Reader.step start).step newlineByte =
      start.behind ('\n' :: (run earlier).written) (run earlier).damaged := by
    rw [hsound.step_newline, run, behind, start, Bool.or_false]
    rfl
  rw [run, List.foldl_append, List.foldl_cons, hnewline, foldl_step_behind, finish_behind]
  rfl

end Reader

/-- Bytes without a plain character give a text without it. -/
theorem plain_notMem_decodeLossy {bytes : List UInt8} {plain : Nat} (hpos : 0 < plain)
    (hplain : plain < 0x80) (h : UInt8.ofNat plain ∉ bytes) :
    Char.ofNat plain ∉ (decodeLossy bytes).toList := by
  rw [decodeLossy, String.toList_ofList, List.mem_reverse]
  exact Reader.plain_notMem_run hpos hplain h

/-- A newline parts what is read before it from what is read after it. -/
theorem decodeLossy_newline (earlier later : List UInt8) :
    decodeLossy (earlier ++ newlineByte :: later) =
      decodeLossy earlier ++ "\n" ++ decodeLossy later := by
  have hnewline : "\n" = String.ofList ['\n'] := rfl
  rw [decodeLossy, Reader.run_newline, decodeLossy, decodeLossy, hnewline,
    ← String.ofList_append, ← String.ofList_append]
  simp

/-- The bytes of a text are read as the text. -/
theorem decodeLossy_encode (text : String) : decodeLossy (encode text) = text := by
  have hrun : Reader.run (encode text) = ⟨text.toList.reverse, none, false⟩ := by
    rw [Reader.run, encode, Reader.start, Reader.foldl_step_chars, List.append_nil]
    rfl
  simp [decodeLossy, hrun]

/-- The lines of what is read are the lines of the bytes, each read on its own. -/
theorem pieces_decodeLossy (bytes : List UInt8) :
    pieces (decodeLossy bytes) = (bytes.splitOn newlineByte).map decodeLossy := by
  obtain ⟨lines, hlines⟩ : ∃ lines, bytes.splitOn newlineByte = lines := ⟨_, rfl⟩
  have hbytes : [newlineByte].intercalate lines = bytes := by
    rw [← hlines, List.intercalate_splitOn]
  have hfree : ∀ line ∈ lines, newlineByte ∉ line := by
    intro line hline
    rw [← hlines] at hline
    exact notMem_of_mem_splitOn hline
  have hne : lines ≠ [] := hlines ▸ List.splitOn_ne_nil newlineByte bytes
  rw [hlines, ← hbytes]
  clear hlines hbytes
  induction lines with
  | nil => exact absurd rfl hne
  | cons line rest ih =>
    have hline : Char.ofNat 10 ∉ (decodeLossy line).toList :=
      plain_notMem_decodeLossy (by decide) (by decide) (hfree line List.mem_cons_self)
    cases rest with
    | nil =>
      rw [List.intercalate_singleton, pieces_eq_singleton hline]
      rfl
    | cons next more =>
      have hrest := ih (fun other hother => hfree other (List.mem_cons_of_mem _ hother))
        (List.cons_ne_nil next more)
      rw [List.intercalate_cons_cons, List.append_assoc, List.singleton_append,
        decodeLossy_newline, pieces_newline, pieces_eq_singleton hline, hrest]
      rfl

end FlameFold.Text
