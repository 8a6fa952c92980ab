import FlameFold.Toml.Text
import FlameFold.Toml.Writer
import Mathlib.Data.List.Infix
import Mathlib.Tactic.SplitIfs

/-!
# Written texts of a settings document are read back

Each of the four forms is read back for the texts that it can hold, and the form that is
chosen for a text can hold it. In a text over several lines up to two delimiter characters may
stand right before the closing delimiter; they are read together with it.
-/

namespace FlameFold.Toml

namespace Form

/-- Whether a form can hold a text: with escapes any text; as it is, none with a control
character or with what would close it. -/
def Holds (cs : List Char) : Form → Prop
  | basic => True
  | literal => (∀ c ∈ cs, isControl c = false) ∧ '\n' ∉ cs ∧ '\'' ∉ cs
  | multiBasic => True
  | multiLiteral => (∀ c ∈ cs, isControl c = false) ∧ longestRun '\'' cs < 3

/-- The chosen form can hold the text. -/
theorem choose_holds (cs : List Char) : (choose cs).Holds cs := by
  unfold choose
  dsimp only
  split_ifs with hbasic hliteral hquotes hrun hnewline
  · trivial
  · simp only [Bool.and_eq_true, Bool.not_eq_true', List.any_eq_false, List.contains_eq_mem,
      decide_eq_false_iff_not] at hliteral
    obtain ⟨⟨hcontrols, hline⟩, hclosing⟩ := hliteral
    exact ⟨fun c hc => Bool.eq_false_iff.mpr (hcontrols c hc), hline, hclosing⟩
  · trivial
  · simp only [Bool.and_eq_true, Bool.not_eq_true', List.any_eq_false, decide_eq_true_eq] at hrun
    obtain ⟨hcontrols, hshort⟩ := hrun
    exact ⟨fun c hc => Bool.eq_false_iff.mpr (hcontrols c hc), hshort⟩
  · trivial
  · trivial

/-- The longest run does not get shorter by further characters. -/
theorem le_longest (c : Char) (cs : List Char) (longest run : Nat) :
    longest ≤ (cs.foldl (fun (longest, run) x =>
      let run := if x = c then run + 1 else 0
      (max longest run, run)) (longest, run)).1 := by
  induction cs generalizing longest run with
  | nil => exact Nat.le_refl longest
  | cons x rest ih =>
    rw [List.foldl_cons]
    exact Nat.le_trans (Nat.le_max_left _ _) (ih _ _)

/-- A text without a run of three has no three in a row. -/
theorem not_infix_of_longestRun {c : Char} {cs : List Char} (h : longestRun c cs < 3) :
    ¬[c, c, c] <:+: cs := by
  rintro ⟨before, after, rfl⟩
  rw [longestRun, List.foldl_append, List.foldl_append] at h
  generalize before.foldl _ _ = state at h
  obtain ⟨longest, run⟩ := state
  simp only [List.foldl_cons, List.foldl_nil, if_true] at h
  have hshort := Nat.lt_of_le_of_lt (le_longest c after _ _) h
  omega

end Form

namespace Text

open Form (isControl escape basicChars multiBasicChars)

/-- A character that needs no escape may be written as itself. -/
theorem isPlain_of_not_control {c : Char} (hcontrol : isControl c = false) (hline : c ≠ '\n') :
    isPlain c = true := by
  simp only [isControl, Bool.or_eq_false_iff, Bool.and_eq_false_iff, decide_eq_false_iff_not,
    bne_eq_false_iff_eq, beq_eq_false_iff_ne] at hcontrol
  obtain ⟨hlow, hdelete⟩ := hcontrol
  simp only [isPlain, Bool.or_eq_true, beq_iff_eq, Bool.and_eq_true, decide_eq_true_eq, bne_iff_ne]
  obtain (hlow | htab) | hnewline := hlow
  · exact .inr ⟨Nat.le_of_not_lt hlow, hdelete⟩
  · exact .inl htab
  · exact absurd hnewline hline

/-- The digit that is written for a value in base sixteen has this value. -/
theorem hexValue?_digit {d : Nat} (h : d < 16) :
    hexValue? (if d < 10 then Char.ofNat (48 + d) else Char.ofNat (55 + d)) = some d := by
  have hall : ∀ d, d < 16 →
      hexValue? (if d < 10 then Char.ofNat (48 + d) else Char.ofNat (55 + d)) = some d := by decide
  exact hall d h

/-- The four digits that are written for a control character number it. -/
theorem numbered?_digits {c : Char} (h : c.toNat < 0x10000) :
    numbered? ([c.toNat / 4096 % 16, c.toNat / 256 % 16, c.toNat / 16 % 16, c.toNat % 16].map
      fun d => if d < 10 then Char.ofNat (48 + d) else Char.ofNat (55 + d)) = some c := by
  have hvalues := hexValue?_digit (d := c.toNat / 4096 % 16) (by omega)
  have hvalues₂ := hexValue?_digit (d := c.toNat / 256 % 16) (by omega)
  have hvalues₃ := hexValue?_digit (d := c.toNat / 16 % 16) (by omega)
  have hvalues₄ := hexValue?_digit (d := c.toNat % 16) (by omega)
  have hsum : (((0 * 16 + c.toNat / 4096 % 16) * 16 + c.toNat / 256 % 16) * 16 +
      c.toNat / 16 % 16) * 16 + c.toNat % 16 = c.toNat := by omega
  have hvalid : c.toNat.isValidChar := c.valid
  simp only [numbered?, List.map_cons, List.map_nil, List.mapM_cons, List.mapM_nil, hvalues,
    hvalues₂, hvalues₃, hvalues₄, Option.bind_eq_bind, Option.bind_some, Option.pure_def,
    List.foldl_cons, List.foldl_nil, hsum, if_pos hvalid, Char.ofNat_toNat]

/-- A control character comes before the units of pairs. -/
theorem control_lt {c : Char} (h : isControl c = true) : c.toNat < 0x80 := by
  simp only [isControl, Bool.or_eq_true, Bool.and_eq_true, decide_eq_true_eq, beq_iff_eq] at h
  omega

/-- A letter after a backslash is read as the character that it stands for. -/
theorem basic_lettered {letter c : Char} (h : lettered? letter = some c) (rest : List Char) :
    basic ('\\' :: letter :: rest) = push c (basic rest) := by
  rw [basic, h]
  · rfl
  · rintro _ _ _ _ _ rfl
    cases h
  · rintro _ _ _ _ _ _ _ _ _ rfl
    cases h

/-- A character that needs no escape is read as itself. -/
theorem basic_plain {c : Char} (hquote : c ≠ '"') (hbackslash : c ≠ '\\')
    (hplain : isPlain c = true) (rest : List Char) : basic (c :: rest) = push c (basic rest) := by
  rw [basic, if_pos (by simp [hplain, hbackslash])]
  · exact hquote
  · exact fun _ _ _ _ _ heq _ => hbackslash heq
  · exact fun _ _ _ _ _ _ _ _ _ heq _ => hbackslash heq
  · exact fun _ _ heq _ => hbackslash heq

/-- A character with its escape on one line is read back. -/
theorem basic_escape {c : Char} (hquote : c ≠ '"') (hline : c ≠ '\n') (rest : List Char) :
    basic (escape c ++ rest) = push c (basic rest) := by
  unfold escape
  split_ifs with hb ht hf hr hbackslash hcontrol
  any_goals
    subst c
    exact basic_lettered rfl rest
  · have hdigits := numbered?_digits (Nat.lt_trans (control_lt hcontrol) (by decide))
    simp only [List.map_cons, List.map_nil] at hdigits
    simp only [Form.numbered, List.map_cons, List.map_nil, List.cons_append, List.nil_append,
      basic, hdigits, Option.bind_some]
  · have hplain := isPlain_of_not_control (Bool.eq_false_iff.mpr hcontrol) hline
    exact basic_plain hquote hbackslash hplain rest

/-- A text between quotes is read back. -/
theorem basic_basicChars (cs rest : List Char) :
    basic (basicChars cs ++ '"' :: rest) = some (cs, rest) := by
  induction cs with
  | nil => rfl
  | cons c cs ih =>
    have hfirst : basic (basicChars (c :: cs) ++ '"' :: rest) =
        push c (basic (basicChars cs ++ '"' :: rest)) := by
      rw [basicChars, List.flatMap_cons, List.append_assoc]
      split_ifs with hline hquote
      · subst c
        simp [basic, lettered?, basicChars]
      · subst c
        simp [basic, lettered?, basicChars]
      · exact basic_escape hquote hline _
    rw [hfirst, ih]
    rfl

/-- A text between apostrophes is read back. -/
theorem literal_read {cs : List Char} (h : Form.literal.Holds cs) (rest : List Char) :
    literal (cs ++ '\'' :: rest) = some (cs, rest) := by
  obtain ⟨hcontrols, hline, hclosing⟩ := h
  induction cs with
  | nil => rfl
  | cons c cs ih =>
    simp only [List.mem_cons, not_or] at hline hclosing
    have hplain := isPlain_of_not_control (hcontrols c List.mem_cons_self) (Ne.symm hline.1)
    have hread := ih (fun d hd => hcontrols d (List.mem_cons_of_mem c hd)) hline.2 hclosing.2
    rw [List.cons_append, literal, if_pos hplain, hread]
    · rfl
    · exact Ne.symm hclosing.1

/-- A character that needs no escape is read as itself over several lines; a quote only where
no two of them follow. -/
theorem multiBasic_plain {c : Char} {rest : List Char} (hplain : isPlain c = true)
    (hbackslash : c ≠ '\\') (hquote : c = '"' → ¬['"', '"'] <+: rest) :
    multiBasic false (c :: rest) = push c (multiBasic false rest) := by
  rw [multiBasic, if_neg (by simp), if_pos (by simp [hplain, hbackslash])]
  · exact fun more heq hrest => hquote heq ⟨more, hrest.symm⟩
  · exact fun _ _ _ _ _ heq _ => hbackslash heq
  · exact fun _ _ _ _ _ _ _ _ _ heq _ => hbackslash heq
  · exact fun _ _ heq _ => hbackslash heq
  · exact fun _ heq _ => absurd hplain (by rw [heq]; decide)
  · exact fun heq => absurd hplain (by rw [heq]; decide)

/-- A character with its escape over several lines is read back. -/
theorem multiBasic_escape {c : Char} (hquote : c ≠ '"') (hline : c ≠ '\n') (rest : List Char) :
    multiBasic false (escape c ++ rest) = push c (multiBasic false rest) := by
  unfold escape
  split_ifs with hb ht hf hr hbackslash hcontrol
  any_goals
    subst c
    simp [multiBasic, lettered?, continues, isSpace]
  · have hdigits := numbered?_digits (Nat.lt_trans (control_lt hcontrol) (by decide))
    simp only [List.map_cons, List.map_nil] at hdigits
    simp only [Form.numbered, List.map_cons, List.map_nil, List.cons_append, List.nil_append,
      multiBasic, hdigits, Option.bind_some]
  · have hplain := isPlain_of_not_control (Bool.eq_false_iff.mpr hcontrol) hline
    exact multiBasic_plain hplain hbackslash fun heq => absurd heq hquote

/-- Delimiter characters right after the closing delimiter belong to the text, and what
follows them does not begin with one more. -/
theorem closing_replicate {delimiter : Char} {rest : List Char}
    (hrest : rest.head? ≠ some delimiter) {count : Nat} (hcount : count ≤ 2) :
    closing delimiter (List.replicate count delimiter ++ rest) =
      (List.replicate count delimiter, rest) := by
  have hfirst : ∀ c more, rest = c :: more → c ≠ delimiter := by
    rintro c more rfl rfl
    exact hrest rfl
  obtain rfl | rfl | rfl : count = 0 ∨ count = 1 ∨ count = 2 := by omega
  · cases rest with
    | nil => rfl
    | cons c more =>
      have hc := hfirst c more rfl
      cases more with
      | nil => simp [closing, hc]
      | cons d more => simp [closing, hc]
  · cases rest with
    | nil => simp [closing]
    | cons c more =>
      have hc := hfirst c more rfl
      simp [closing, hc]
  · simp [closing, List.replicate]

/-- The escape of a character begins with a quote or a line end only if it is one. -/
theorem escape_first {c : Char} (hquote : c ≠ '"') (hline : c ≠ '\n') :
    ∃ d more, escape c = d :: more ∧ d ≠ '"' ∧ d ≠ '\n' ∧ d ≠ '\r' := by
  unfold escape
  split_ifs with hb ht hf hr
  all_goals first
    | exact ⟨'\\', _, rfl, by decide, by decide, by decide⟩
    | exact ⟨c, [], rfl, hquote, hline, hr⟩

/-- A character other than a quote, or after two quotes, is written without a quote in
front. -/
theorem multiBasicChars_first {run : Nat} {c : Char} (h : c ≠ '"' ∨ run = 2) (cs rest : List Char) :
    ∃ d more, multiBasicChars run (c :: cs) ++ rest = d :: more ∧ d ≠ '"' := by
  rw [multiBasicChars]
  split_ifs with hquote hrun hline
  · exact ⟨'\\', _, rfl, by decide⟩
  · exact absurd (h.resolve_left (not_not_intro hquote)) hrun
  · exact ⟨'\n', _, rfl, by decide⟩
  · obtain ⟨d, more, hescape, hd, -⟩ := escape_first hquote hline
    exact ⟨d, _, by rw [hescape]; rfl, hd⟩

/-- After a quote that is not the last one possible in its run, two quotes follow only where
the text ends, at once or after one more quote. -/
theorem multiBasicChars_closed {run : Nat} (hrun : run ≤ 1) {cs rest : List Char}
    (h : ['"', '"'] <+: multiBasicChars (run + 1) cs ++ '"' :: '"' :: '"' :: rest) :
    cs = [] ∨ (run = 0 ∧ cs = ['"']) := by
  cases cs with
  | nil => exact .inl rfl
  | cons d cs =>
    by_cases hd : d ≠ '"' ∨ run + 1 = 2
    · obtain ⟨e, more, hfirst, he⟩ := multiBasicChars_first hd cs ('"' :: '"' :: '"' :: rest)
      rw [hfirst] at h
      exact absurd (List.cons_prefix_cons.mp h).1 (Ne.symm he)
    · obtain ⟨rfl, hnot⟩ := not_or.mp hd |>.imp_left not_not.mp
      obtain rfl : run = 0 := by omega
      cases cs with
      | nil => exact .inr ⟨rfl, rfl⟩
      | cons e cs =>
        have htwo : multiBasicChars 1 ('"' :: e :: cs) = '"' :: multiBasicChars 2 (e :: cs) := rfl
        obtain ⟨g, more, hfirst, hg⟩ :=
          multiBasicChars_first (.inr rfl) cs ('"' :: '"' :: '"' :: rest) (c := e)
        rw [htwo, List.cons_append, hfirst] at h
        have hnext := (List.cons_prefix_cons.mp h).2
        exact absurd (List.cons_prefix_cons.mp hnext).1 (Ne.symm hg)

/-- A text between three quotes is read back, where `run` quotes have been written just
before. -/
theorem multiBasic_multiBasicChars {rest : List Char} (hrest : rest.head? ≠ some '"')
    (cs : List Char) {run : Nat} (hrun : run ≤ 2) :
    multiBasic false (multiBasicChars run cs ++ '"' :: '"' :: '"' :: rest) = some (cs, rest) := by
  induction cs generalizing run with
  | nil => exact congrArg some (closing_replicate hrest (Nat.zero_le 2))
  | cons c cs ih =>
    by_cases hquote : c = '"'
    · subst c
      by_cases hlast : run = 2
      · have hread := ih (Nat.zero_le 2)
        simp [multiBasicChars, hlast, multiBasic, continues, isSpace, lettered?, hread, push]
      · have hwritten : multiBasicChars run ('"' :: cs) = '"' :: multiBasicChars (run + 1) cs := by
          simp [multiBasicChars, hlast]
        rw [hwritten, List.cons_append]
        by_cases hclosed : ['"', '"'] <+: multiBasicChars (run + 1) cs ++ '"' :: '"' :: '"' :: rest
        · obtain rfl | ⟨rfl, rfl⟩ := multiBasicChars_closed (by omega) hclosed
          · exact congrArg some (closing_replicate hrest (by decide : 1 ≤ 2))
          · exact congrArg some (closing_replicate hrest (by decide : 2 ≤ 2))
        · rw [multiBasic_plain (by decide) (by decide) fun _ => hclosed, ih (by omega)]
          rfl
    · by_cases hline : c = '\n'
      · subst c
        have hread := ih (Nat.zero_le 2)
        simp [multiBasicChars, multiBasic, hread, push]
      · rw [multiBasicChars, if_neg hquote, if_neg hline, List.append_assoc,
          multiBasic_escape hquote hline, ih (Nat.zero_le 2)]
        rfl

/-- A character that needs no escape is read as itself over several lines; an apostrophe only
where no two of them follow. -/
theorem multiLiteral_plain {c : Char} {rest : List Char} (hcontrol : isControl c = false)
    (hquote : c = '\'' → ¬['\'', '\''] <+: rest) :
    multiLiteral (c :: rest) = push c (multiLiteral rest) := by
  by_cases hline : c = '\n'
  · subst c
    rw [multiLiteral]
  · have hplain := isPlain_of_not_control hcontrol hline
    rw [multiLiteral, if_pos hplain]
    · exact fun more heq hrest => hquote heq ⟨more, hrest.symm⟩
    · exact fun _ heq _ => absurd hplain (by rw [heq]; decide)
    · exact hline

/-- A text between three apostrophes is read back. -/
theorem multiLiteral_read {cs : List Char} (hcontrols : ∀ c ∈ cs, isControl c = false)
    (hrun : ¬['\'', '\'', '\''] <:+: cs) {rest : List Char} (hrest : rest.head? ≠ some '\'') :
    multiLiteral (cs ++ '\'' :: '\'' :: '\'' :: rest) = some (cs, rest) := by
  induction cs with
  | nil => exact congrArg some (closing_replicate hrest (Nat.zero_le 2))
  | cons c cs ih =>
    have hread := ih (fun d hd => hcontrols d (List.mem_cons_of_mem c hd))
      (fun hwithin => hrun (hwithin.trans (List.suffix_cons c cs).isInfix))
    rw [List.cons_append]
    by_cases hclosed : c = '\'' ∧ ['\'', '\''] <+: cs ++ '\'' :: '\'' :: '\'' :: rest
    -- three apostrophes close the text only where it ends with the first one or two of them
    · obtain ⟨rfl, hclosed⟩ := hclosed
      match cs with
      | [] => exact congrArg some (closing_replicate hrest (by decide : 1 ≤ 2))
      | [d] =>
        obtain rfl := (List.cons_prefix_cons.mp hclosed).1
        exact congrArg some (closing_replicate hrest (by decide : 2 ≤ 2))
      | d :: e :: cs =>
        obtain ⟨rfl, hnext⟩ := List.cons_prefix_cons.mp hclosed
        obtain ⟨rfl, -⟩ := List.cons_prefix_cons.mp hnext
        exact absurd ⟨[], cs, rfl⟩ hrun
    · rw [multiLiteral_plain (hcontrols c List.mem_cons_self)
        fun heq hprefix => hclosed ⟨heq, hprefix⟩, hread]
      rfl

/-- A line end that is written after the opening delimiter is dropped, and nothing else. -/
theorem afterOpening_opening {cs body : List Char}
    (h : '\n' ∉ cs → body.head? ≠ some '\n' ∧ body.head? ≠ some '\r') :
    afterOpening (Form.opening cs ++ body) = body := by
  unfold Form.opening
  split_ifs with hline
  · rfl
  · obtain ⟨hnewline, hreturn⟩ := h (by simpa using hline)
    simp only [List.nil_append]
    unfold afterOpening
    split
    · exact absurd rfl hnewline
    · exact absurd rfl hreturn
    · rfl

/-- A text on one line with escapes does not begin with a quote. -/
theorem basicChars_first (c : Char) (cs : List Char) :
    ∃ d more, basicChars (c :: cs) = d :: more ∧ d ≠ '"' := by
  rw [basicChars, List.flatMap_cons]
  split_ifs with hline hquote
  · exact ⟨'\\', _, rfl, by decide⟩
  · exact ⟨'\\', _, rfl, by decide⟩
  · obtain ⟨d, more, hescape, hd, -⟩ := escape_first hquote hline
    exact ⟨d, _, by rw [hescape]; rfl, hd⟩

/-- A text is read on one line between quotes, unless it begins with two more of them. -/
theorem read_basic {text : List Char} (h : ¬['"', '"'] <+: text) :
    read ('"' :: text) = basic text := by
  rw [read]
  exact fun rest hrest => h ⟨rest, hrest.symm⟩

/-- A text is read on one line between apostrophes, unless it begins with two more of them. -/
theorem read_literal {text : List Char} (h : ¬['\'', '\''] <+: text) :
    read ('\'' :: text) = literal text := by
  rw [read]
  exact fun rest hrest => h ⟨rest, hrest.symm⟩

/-- Each form is read back for the texts that it can hold, where no delimiter follows. -/
theorem read_write {form : Form} {cs : List Char} (h : form.Holds cs) (rest : List Char)
    (hrest : rest.head? ≠ some '"' ∧ rest.head? ≠ some '\'') :
    read (form.write cs ++ rest) = some (cs, rest) := by
  obtain ⟨hquote, hapostrophe⟩ := hrest
  cases form with
  | basic =>
    have hopen : ¬['"', '"'] <+: basicChars cs ++ '"' :: rest := by
      intro hprefix
      cases cs with
      | nil =>
        obtain ⟨more, rfl⟩ := (List.cons_prefix_cons.mp hprefix).2
        exact hquote rfl
      | cons c cs =>
        obtain ⟨d, more, hfirst, hd⟩ := basicChars_first c cs
        rw [hfirst, List.cons_append] at hprefix
        exact hd (List.cons_prefix_cons.mp hprefix).1.symm
    have hread := basic_basicChars cs rest
    simp [Form.write, read_basic hopen, hread]
  | literal =>
    have hopen : ¬['\'', '\''] <+: cs ++ '\'' :: rest := by
      intro hprefix
      cases cs with
      | nil =>
        obtain ⟨more, rfl⟩ := (List.cons_prefix_cons.mp hprefix).2
        exact hapostrophe rfl
      | cons c cs =>
        obtain rfl := (List.cons_prefix_cons.mp hprefix).1
        exact h.2.2 List.mem_cons_self
    have hread := literal_read h rest
    simp [Form.write, read_literal hopen, hread]
  | multiBasic =>
    have hbody : '\n' ∉ cs →
        (multiBasicChars 0 cs ++ '"' :: '"' :: '"' :: rest).head? ≠ some '\n' ∧
        (multiBasicChars 0 cs ++ '"' :: '"' :: '"' :: rest).head? ≠ some '\r' := by
      intro hline
      cases cs with
      | nil => exact ⟨by simp [multiBasicChars], by simp [multiBasicChars]⟩
      | cons c cs =>
        rw [multiBasicChars]
        split_ifs with hc hrun hnewline
        · cases hrun
        · simp
        · exact absurd (hnewline ▸ List.mem_cons_self) hline
        · obtain ⟨d, more, hescape, -, hd⟩ := escape_first hc hnewline
          simpa [hescape] using hd
    have hread := multiBasic_multiBasicChars hquote cs (Nat.zero_le 2)
    simp [Form.write, read, afterOpening_opening hbody, hread]
  | multiLiteral =>
    obtain ⟨hcontrols, hrun⟩ := h
    have hbody : '\n' ∉ cs → (cs ++ '\'' :: '\'' :: '\'' :: rest).head? ≠ some '\n' ∧
        (cs ++ '\'' :: '\'' :: '\'' :: rest).head? ≠ some '\r' := by
      intro hline
      cases cs with
      | nil => simp
      | cons c cs =>
        have hc := hcontrols c List.mem_cons_self
        have hreturn : c ≠ '\r' := by
          rintro rfl
          exact absurd hc (by decide)
        have hnewline : c ≠ '\n' := by
          rintro rfl
          exact hline List.mem_cons_self
        simpa using ⟨hnewline, hreturn⟩
    have hread := multiLiteral_read hcontrols (Form.not_infix_of_longestRun hrun) hapostrophe
    simp [Form.write, read, afterOpening_opening hbody, hread]

end Text

end FlameFold.Toml
