import FlameFold.Json.Printer
import FlameFold.Json.Reader
import FlameFold.Proofs.Text.Digits
import Mathlib.Tactic.SplitIfs

/-!
# Texts and numbers of a JSON text are read back

A character of a text is printed as itself, by a letter or by its number, and whichever of
these it is, it is read as one piece that stands for it. A whole number below `2 ^ 64` is read
as such where no further digit, point or power follows.
-/

namespace FlameFold.Json

/-- A digit in base sixteen has the value that it is printed for. -/
theorem hexValue?_hexDigit {n : Nat} (h : n < 16) : hexValue? (Text.hexDigit n) = some n := by
  have hall : ∀ n, n < 16 → hexValue? (Text.hexDigit n) = some n := by decide
  exact hall n h

/-- A unit below all halves of pairs stands for its character, whatever comes after it. -/
theorem assemble_unit {n : Nat} (h : n < 0xD800) (pieces : List Piece) :
    assemble (.unit n :: pieces) = (assemble pieces).map (Char.ofNat n :: ·) := by
  have hleading : isLeading n = false := by
    simp only [isLeading, Bool.and_eq_false_imp, decide_eq_true_eq, decide_eq_false_iff_not]
    omega
  have htrailing : isTrailing n = false := by
    simp only [isTrailing, Bool.and_eq_false_imp, decide_eq_true_eq, decide_eq_false_iff_not]
    omega
  cases pieces with
  | nil => simp [assemble, hleading, htrailing]
  | cons piece rest =>
    cases piece with
    | char c => simp [assemble, hleading, htrailing]
    | unit m => simp [assemble, hleading, htrailing]

/-- A letter after a backslash is read as the character that it stands for. -/
theorem readPieces_lettered {letter c : Char} (h : lettered? letter = some c) (hu : letter ≠ 'u')
    (rest : List Char) :
    readPieces ('\\' :: letter :: rest) = push (.char c) (readPieces rest) := by
  rw [readPieces, h]
  · rfl
  · exact fun _ _ _ _ _ heq _ => hu heq

/-- A character that needs no escape is read as itself. -/
theorem readPieces_plain {c : Char} (hquote : c ≠ '"') (hbackslash : c ≠ '\\')
    (hplain : ¬c.toNat < 0x20) (rest : List Char) :
    readPieces (c :: rest) = push (.char c) (readPieces rest) := by
  rw [readPieces, if_neg hplain]
  · exact hquote
  · exact fun _ _ _ _ _ heq _ => hbackslash heq
  · exact fun _ _ heq _ => hbackslash heq

/-- A printed character is read as one piece, which stands for it. -/
theorem readPieces_escape (c : Char) (rest : List Char) :
    ∃ piece, readPieces (escape c ++ rest) = push piece (readPieces rest) ∧
      ∀ pieces, assemble (piece :: pieces) = (assemble pieces).map (c :: ·) := by
  by_cases hnumbered : c.toNat < 0x20 ∧ c ∉ ['\x08', '\x0c', '\n', '\r', '\t']
  · obtain ⟨hcontrol, hletters⟩ := hnumbered
    simp only [List.mem_cons, List.not_mem_nil, or_false, not_or] at hletters
    obtain ⟨hb, hf, hn, hr, ht⟩ := hletters
    have hquote : c ≠ '"' := by rintro rfl; exact absurd hcontrol (by decide)
    have hbackslash : c ≠ '\\' := by rintro rfl; exact absurd hcontrol (by decide)
    have hhigh := hexValue?_hexDigit (n := c.toNat / 16) (by omega)
    have hlow := hexValue?_hexDigit (n := c.toNat % 16) (by omega)
    have hzero : hexValue? '0' = some 0 := by decide
    have hsum : ((0 * 16 + 0) * 16 + c.toNat / 16) * 16 + c.toNat % 16 = c.toNat := by omega
    refine ⟨.unit c.toNat, ?_, fun pieces => ?_⟩
    · simp only [escape, if_neg hquote, if_neg hbackslash, if_neg hb, if_neg hf, if_neg hn,
        if_neg hr, if_neg ht, if_pos hcontrol, List.cons_append, List.nil_append, readPieces,
        hzero, hhigh, hlow, hsum]
    · rw [assemble_unit (by omega), Char.ofNat_toNat]
  · refine ⟨.char c, ?_, fun pieces => rfl⟩
    unfold escape
    split_ifs with hquote hbackslash hb hf hn hr ht hcontrol
    any_goals
      subst c
      exact readPieces_lettered rfl (by decide) rest
    · exact absurd ⟨hcontrol, by simp [hb, hf, hn, hr, ht]⟩ hnumbered
    · exact readPieces_plain hquote hbackslash hcontrol rest

/-- The characters of a text, printed up to the closing quote, are read as pieces that stand
for them. -/
theorem readPieces_escapes (cs rest : List Char) :
    ∃ pieces, readPieces (cs.flatMap escape ++ '"' :: rest) = some (pieces, rest) ∧
      assemble pieces = some cs := by
  induction cs with
  | nil => exact ⟨[], rfl, rfl⟩
  | cons c cs ih =>
    obtain ⟨pieces, hread, hpieces⟩ := ih
    obtain ⟨piece, hpush, hpiece⟩ := readPieces_escape c (cs.flatMap escape ++ '"' :: rest)
    refine ⟨piece :: pieces, ?_, ?_⟩
    · rw [List.flatMap_cons, List.append_assoc, hpush, hread]
      rfl
    · rw [hpiece, hpieces]
      rfl

/-- A text after its opening quote is read back. -/
theorem readText_quote (content : String) (rest : List Char) :
    readText (content.toList.flatMap escape ++ '"' :: rest) = some (some content, rest) := by
  obtain ⟨pieces, hread, hpieces⟩ := readPieces_escapes content.toList rest
  simp [readText, hread, hpieces]

namespace Number

/-- Characters before which a whole number ends. -/
def Ends (rest : List Char) : Prop :=
  ∀ c ∈ rest.head?, isDigit c = false ∧ c ≠ '.' ∧ c ≠ 'e' ∧ c ≠ 'E'

/-- The digits of a number are digits. -/
theorem isDigit_of_mem {n : Nat} {c : Char} (h : c ∈ Nat.toDigits 10 n) : isDigit c = true := by
  have hrange := Digits.mem_range h
  simp [isDigit, hrange]

/-- More digits make the value of digits no smaller. -/
theorem le_foldl (digits : List Char) (n : Nat) :
    n ≤ digits.foldl (fun n c => n * 10 + (c.toNat - 48)) n := by
  induction digits generalizing n with
  | nil => exact Nat.le_refl n
  | cons c rest ih =>
    have hnext := ih (n * 10 + (c.toNat - 48))
    rw [List.foldl_cons]
    omega

/-- Digits are gathered as long as their value stays below `2 ^ 64`. -/
theorem gather_fits {significand : Nat} {digits : List Char}
    (h : digits.foldl (fun n c => n * 10 + (c.toNat - 48)) significand < Nat.pow 2 64) :
    gather significand digits =
      (digits.foldl (fun n c => n * 10 + (c.toNat - 48)) significand, []) := by
  induction digits generalizing significand with
  | nil => rfl
  | cons c rest ih =>
    rw [List.foldl_cons] at h
    have hnext := Nat.lt_of_le_of_lt (le_foldl rest (significand * 10 + (c.toNat - 48))) h
    rw [gather]
    simp only [if_pos hnext, ih h, List.foldl_cons]

/-- Digits are taken up to the first character that is none. -/
theorem takeWhile_digits {digits rest : List Char} (hdigits : ∀ c ∈ digits, isDigit c = true)
    (hrest : Ends rest) : (digits ++ rest).takeWhile isDigit = digits ∧
      (digits ++ rest).dropWhile isDigit = rest := by
  rw [List.takeWhile_append_of_pos hdigits, List.dropWhile_append_of_pos hdigits]
  cases rest with
  | nil => simp
  | cons c rest =>
    have hc := (hrest c rfl).1
    simp [hc]

/-- The digits of a number are read up to its end. -/
theorem readWhole_toDigits (n : Nat) {rest : List Char} (hrest : Ends rest) :
    readWhole (Nat.toDigits 10 n ++ rest) = some (Nat.toDigits 10 n, rest) := by
  obtain rfl | hn := Nat.eq_zero_or_pos n
  · rw [Nat.toDigits_zero]
    cases rest with
    | nil => rfl
    | cons c rest =>
      have hc := (hrest c rfl).1
      simp [readWhole, hc]
  · obtain ⟨first, more, hdigits, hfirst⟩ := Digits.first_ne_zero hn
    have hall : ∀ c ∈ Nat.toDigits 10 n, isDigit c = true := fun c => isDigit_of_mem
    obtain ⟨htake, hdrop⟩ := takeWhile_digits hall hrest
    rw [hdigits, List.cons_append] at htake hdrop ⊢
    rw [readWhole.eq_def]
    split
    · simp_all
    · simp_all
    · simp [htake, hdrop]

/-- A number below `2 ^ 64` is read up to its end. -/
theorem read_toDigits {n : Nat} (hn : n < Nat.pow 2 64) {rest : List Char} (hrest : Ends rest) :
    read (Nat.toDigits 10 n ++ rest) = some (.number (.natural n), rest) := by
  have hwhole := readWhole_toDigits n hrest
  have hfraction : readFraction rest = some (none, rest) := by
    unfold readFraction
    split
    · exact absurd rfl (hrest _ rfl).2.1
    · rfl
  have hexponent : readExponent rest = some (none, rest) := by
    unfold readExponent
    split
    · exact absurd rfl (hrest _ rfl).2.2.1
    · exact absurd rfl (hrest _ rfl).2.2.2
    · rfl
  have hgather : gather 0 (Nat.toDigits 10 n) = (n, []) := by
    rw [gather_fits] <;> rw [Digits.foldl_toDigits]
    exact hn
  have hminus : ∀ more, Nat.toDigits 10 n ++ rest ≠ '-' :: more := by
    intro more hmore
    obtain ⟨first, digits, hdigits⟩ :=
      List.exists_cons_of_ne_nil (Nat.toDigits_ne_nil (n := n) (b := 10))
    have hfirst : isDigit first = true := isDigit_of_mem (n := n) (by simp [hdigits])
    rw [hdigits, List.cons_append, List.cons.injEq] at hmore
    rw [hmore.1] at hfirst
    exact absurd hfirst (by decide)
  unfold read
  split
  next minus unsigned hsign =>
    split at hsign
    · next heq => exact absurd heq (hminus _)
    · cases hsign
      simp [hwhole, hfraction, hexponent, assemble, hgather, wholeValue]

end Number

end FlameFold.Json
