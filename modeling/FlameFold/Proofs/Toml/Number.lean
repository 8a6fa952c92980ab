import FlameFold.Proofs.Text.Digits
import FlameFold.Toml.Reader
import Mathlib.Data.List.Basic

/-!
# Whole numbers of a settings document are read back

The digits of a number, up to the end of their line, are no date, no time and no number with
a fraction or a power of ten; so they are read as the whole number that they stand for.
-/

namespace FlameFold.Toml

namespace Number

/-- The digits of a number are digits. -/
theorem isDigit_of_mem {n : Nat} {c : Char} (h : c ∈ Nat.toDigits 10 n) : isDigit c = true := by
  have hrange := Digits.mem_range h
  simp [isDigit, hrange]

/-- The value of a digit. -/
theorem hexValue?_of_isDigit {c : Char} (h : isDigit c = true) :
    Text.hexValue? c = some (c.toNat - 48) := by
  have hrange : '0' ≤ c ∧ c ≤ '9' := by simpa [isDigit] using h
  rw [Text.hexValue?, if_pos hrange]

/-- The digits of a number have this number as their value. -/
theorem value_toDigits (n : Nat) : value 10 (Nat.toDigits 10 n) = n := by
  have hdigits : value 10 (Nat.toDigits 10 n) =
      (Nat.toDigits 10 n).foldl (fun m c => m * 10 + (c.toNat - 48)) 0 := by
    apply List.foldl_ext
    intro m c hc
    rw [hexValue?_of_isDigit (isDigit_of_mem hc)]
    rfl
  rw [hdigits, Digits.foldl_toDigits]

/-- Digits are read up to the end of their line. -/
theorem moreDigits_line {ds : List Char} (hds : ∀ c ∈ ds, isDigit c = true) (rest : List Char) :
    moreDigits isDigit (ds ++ '\n' :: rest) = (ds, '\n' :: rest) := by
  induction ds with
  | nil => rfl
  | cons c cs ih =>
    have hc := hds c List.mem_cons_self
    have hread := ih fun d hd => hds d (List.mem_cons_of_mem c hd)
    rw [List.cons_append, moreDigits.eq_def]
    split
    · next heq => exact absurd heq (Digits.cons_ne_of_kind hc rfl)
    · next heq =>
      cases heq
      rw [if_pos hc, hread]
    · next heq => cases heq

/-- A digit is no sign. -/
theorem sign_digit {c : Char} (hc : isDigit c = true) (cs : List Char) :
    sign (c :: cs) = (false, c :: cs) := by
  unfold sign
  split
  · next heq => exact absurd heq (Digits.cons_ne_of_kind hc rfl)
  · next heq => exact absurd heq (Digits.cons_ne_of_kind hc rfl)
  · rfl

/-- The digits of a number begin with one. -/
theorem toDigits_cons (n : Nat) : ∃ c cs, Nat.toDigits 10 n = c :: cs ∧ isDigit c = true := by
  obtain ⟨c, cs, hdigits⟩ := List.exists_cons_of_ne_nil (Nat.toDigits_ne_nil (n := n) (b := 10))
  exact ⟨c, cs, hdigits, isDigit_of_mem (n := n) (by simp [hdigits])⟩

/-- There is no sign in front of the digits of a number. -/
theorem sign_toDigits (n : Nat) (rest : List Char) :
    sign (Nat.toDigits 10 n ++ rest) = (false, Nat.toDigits 10 n ++ rest) := by
  obtain ⟨c, cs, hdigits, hc⟩ := toDigits_cons n
  rw [hdigits, List.cons_append, sign_digit hc]

/-- The digits of a number are read up to the end of their line. -/
theorem wholeDigits_toDigits (n : Nat) (rest : List Char) :
    wholeDigits (Nat.toDigits 10 n ++ '\n' :: rest) = some (Nat.toDigits 10 n, '\n' :: rest) := by
  obtain rfl | hn := Nat.eq_zero_or_pos n
  · rfl
  · obtain ⟨first, more, hdigits, hfirst⟩ := Digits.first_ne_zero hn
    have hall : ∀ c ∈ first :: more, isDigit c = true := fun c hc => isDigit_of_mem (hdigits ▸ hc)
    have hread := moreDigits_line (fun c hc => hall c (List.mem_cons_of_mem first hc)) rest
    rw [hdigits, List.cons_append]
    unfold wholeDigits
    split
    · next heq => exact absurd (List.cons.inj heq).1 hfirst
    · rw [digits, if_pos (hall first List.mem_cons_self), hread]

/-- A whole number has no fraction and no power of ten. -/
theorem float_toDigits (n : Nat) (rest : List Char) :
    float (Nat.toDigits 10 n ++ '\n' :: rest) = none := by
  have htail : tail ('\n' :: rest) = none := rfl
  have hdecimal : decimal (Nat.toDigits 10 n ++ '\n' :: rest) = none := by
    rw [decimal, sign_toDigits]
    simp [wholeDigits_toDigits, htail]
  have hword : word (Nat.toDigits 10 n ++ '\n' :: rest) = none := by
    obtain ⟨c, cs, hdigits, hc⟩ := toDigits_cons n
    have hi : c ≠ 'i' := Digits.ne_of_kind hc rfl
    have hn : c ≠ 'n' := Digits.ne_of_kind hc rfl
    rw [word, sign_toDigits, hdigits, List.cons_append]
    split
    · next heq => exact absurd (List.cons.inj (Prod.ext_iff.mp heq).2).1 hi
    · next heq => exact absurd (List.cons.inj (Prod.ext_iff.mp heq).2).1 hn
    · rfl
  rw [float, hdecimal, hword]
  rfl

/-- A number that has 63 bits is in range. -/
theorem ranged_natCast {n : Nat} (hn : n < bound) (rest : List Char) :
    ranged (n : Int) rest = some ((n : Int), rest) := by
  have hrange : inRange (n : Int) = true := by
    simp only [inRange, Bool.and_eq_true, decide_eq_true_eq]
    omega
  rw [ranged, if_pos hrange]

/-- A number that has 63 bits is read back. -/
theorem integer_toDigits {n : Nat} (hn : n < bound) (rest : List Char) :
    integer (Nat.toDigits 10 n ++ '\n' :: rest) = some ((n : Int), '\n' :: rest) := by
  have hvalue : (value 10 (Nat.toDigits 10 n) : Int) = n := congrArg _ (value_toDigits n)
  have hsecond : ∀ c more, Nat.toDigits 10 n ++ '\n' :: rest = '0' :: c :: more → c = '\n' := by
    intro c more heq
    obtain rfl | hpos := Nat.eq_zero_or_pos n
    · rw [Nat.toDigits_zero] at heq
      simp at heq
      exact heq.1.symm
    · obtain ⟨first, others, hdigits, hfirst⟩ := Digits.first_ne_zero hpos
      rw [hdigits] at heq
      exact absurd (List.cons.inj heq).1 hfirst
  unfold integer
  split
  · next heq => exact absurd (hsecond _ _ heq) (by decide)
  · next heq => exact absurd (hsecond _ _ heq) (by decide)
  · next heq => exact absurd (hsecond _ _ heq) (by decide)
  · rw [sign_toDigits]
    refine Option.bind_eq_some_iff.mpr ⟨_, wholeDigits_toDigits n rest, ?_⟩
    show ranged (value 10 (Nat.toDigits 10 n) : Int) ('\n' :: rest) = _
    rw [hvalue, ranged_natCast hn]

end Number

namespace Moment

open Number (isDigit)

/-- Before the end of a line of digits no mark stands. -/
theorem mark_digits {ds : List Char} (hds : ∀ c ∈ ds, isDigit c = true) {c : Char}
    (hc : isDigit c = false) (hline : c ≠ '\n') (rest : List Char) :
    mark c (ds ++ '\n' :: rest) = none := by
  cases ds with
  | nil => exact if_neg (Ne.symm hline)
  | cons d ds => exact if_neg (Digits.ne_of_kind (hds d List.mem_cons_self) hc)

/-- Two digits are read from the digits of a line, which go on after them. -/
theorem two_digits {ds : List Char} (hds : ∀ c ∈ ds, isDigit c = true) {least most n : Nat}
    {rest after : List Char} (h : two least most (ds ++ '\n' :: rest) = some (n, after)) :
    ∃ more, (∀ c ∈ more, isDigit c = true) ∧ after = more ++ '\n' :: rest := by
  match ds with
  | [] =>
    cases rest with
    | nil => cases h
    | cons c rest => cases h
  | [c] => simp [two, isDigit] at h
  | c :: d :: more =>
    refine ⟨more, fun x hx => hds x (List.mem_cons_of_mem c (List.mem_cons_of_mem d hx)), ?_⟩
    simp only [List.cons_append, two, Option.ite_none_right_eq_some, Option.some.injEq,
      Prod.mk.injEq] at h
    exact h.2.2.symm

/-- Digits up to the end of their line are no time of day. -/
theorem time_digits {ds : List Char} (hds : ∀ c ∈ ds, isDigit c = true) (rest : List Char) :
    time (ds ++ '\n' :: rest) = none := by
  rw [time]
  cases htwo : two 0 23 (ds ++ '\n' :: rest) with
  | none => rfl
  | some read =>
    obtain ⟨hour, after⟩ := read
    obtain ⟨more, hmore, rfl⟩ := two_digits hds htwo
    have hmark : mark ':' (more ++ '\n' :: rest) = none := mark_digits hmore rfl (by decide) rest
    simp [hmark]

/-- Digits up to the end of their line are no date. -/
theorem date_digits {ds : List Char} (hds : ∀ c ∈ ds, isDigit c = true) (rest : List Char) :
    date (ds ++ '\n' :: rest) = none := by
  match ds with
  | a :: b :: c :: d :: more =>
    have hmore : ∀ x ∈ more, isDigit x = true := fun x hx => hds x (by simp [hx])
    have hmark : mark '-' (more ++ '\n' :: rest) = none := mark_digits hmore rfl (by decide) rest
    simp [date, hmark]
  | [] | [_] | [_, _] | [_, _, _] =>
    -- the end of the line is among the first four characters
    unfold date
    split
    · next a b c d after heq =>
      have hmem : '\n' ∈ [a, b, c, d] := by grind
      exact if_neg fun hall => absurd (List.all_eq_true.mp hall _ hmem) (by decide)
    · rfl

/-- A number is no moment. -/
theorem read_toDigits (n : Nat) (rest : List Char) :
    read (Nat.toDigits 10 n ++ '\n' :: rest) = none := by
  have hds : ∀ c ∈ Nat.toDigits 10 n, isDigit c = true := fun c => Number.isDigit_of_mem
  rw [read, skip, date_digits hds, time_digits hds]
  rfl

end Moment

end FlameFold.Toml
