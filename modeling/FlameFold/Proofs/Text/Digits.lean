/-!
# Decimal digits of a number

A number is written without zeros in front, and its digits give it back. The readers of both
document formats rely on this, and on what kind of character they find next.
-/

namespace FlameFold.Digits

/-- A character of some kind is none of those that are not of this kind. -/
theorem ne_of_kind {kind : Char → Bool} {c d : Char} (hc : kind c = true) (hd : kind d = false) :
    c ≠ d := by
  rintro rfl
  rw [hc] at hd
  cases hd

/-- Characters that begin with one of some kind do not begin with one of another kind. -/
theorem cons_ne_of_kind {kind : Char → Bool} {c d : Char} {cs ds : List Char}
    (hc : kind c = true) (hd : kind d = false) : c :: cs ≠ d :: ds :=
  fun heq => ne_of_kind hc hd (List.cons.inj heq).1

/-- The characters of a number are digits. -/
theorem mem_range {n : Nat} {c : Char} (h : c ∈ Nat.toDigits 10 n) : '0' ≤ c ∧ c ≤ '9' := by
  have hdigit : c.isDigit = true := Nat.isDigit_of_mem_toDigits (by decide) (by decide) h
  simp only [Char.isDigit, Bool.and_eq_true, decide_eq_true_eq] at hdigit
  exact hdigit

/-- The first digit of a number is not zero, unless the number is. -/
theorem first_ne_zero {n : Nat} (hn : 0 < n) :
    ∃ first rest, Nat.toDigits 10 n = first :: rest ∧ first ≠ '0' := by
  induction n using Nat.strongRecOn with
  | ind n ih =>
    by_cases hsmall : n < 10
    · refine ⟨n.digitChar, [], Nat.toDigits_of_lt_base hsmall, ?_⟩
      have hne : ∀ d, d < 10 → 0 < d → d.digitChar ≠ '0' := by decide
      exact hne n hsmall hn
    · obtain ⟨first, rest, hdigits, hfirst⟩ := ih (n / 10) (by omega) (by omega)
      refine ⟨first, rest ++ [(n % 10).digitChar], ?_, hfirst⟩
      rw [Nat.toDigits_of_base_le (by decide) (by omega), hdigits, List.cons_append]

/-- The digits of a number give the number. -/
theorem foldl_toDigits (n : Nat) :
    (Nat.toDigits 10 n).foldl (fun m c => m * 10 + (c.toNat - 48)) 0 = n := by
  have hvalue := Nat.ofDigitChars_ten_toDigits (n := n)
  rw [Nat.ofDigitChars_eq_foldl] at hvalue
  simpa only [Nat.mul_comm, Char.reduceToNat] using hvalue

end FlameFold.Digits
