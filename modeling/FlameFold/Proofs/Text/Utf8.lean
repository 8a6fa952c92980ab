import FlameFold.Text.Utf8
import Mathlib.Tactic.IntervalCases
import Mathlib.Tactic.SplitIfs

/-!
# The bytes of a text are read back

The first byte of a character tells how many bytes it has and which range the second one is
in, and each further byte adds six bits. So the reader, which takes one byte at a time, is
between two characters again with exactly this character read.
-/

namespace FlameFold.Text

/-- The number of a byte given by its number. -/
theorem toNat_byte {n : Nat} (h : n < 256) : (UInt8.ofNat n).toNat = n :=
  UInt8.toNat_ofNat_of_lt' h

/-- The first byte of a character of two bytes. -/
theorem Begun.ofLead?_two {n : Nat} (hlow : 2 ≤ n) (hhigh : n < 32) :
    ofLead? (UInt8.ofNat (n + 0xC0)) = some ⟨n, 1, 0x80, 0xBF⟩ := by
  have hbyte : (UInt8.ofNat (n + 0xC0)).toNat = n + 0xC0 := toNat_byte (by omega)
  have hrange : 0xC2 ≤ n + 0xC0 ∧ n + 0xC0 ≤ 0xDF := by omega
  simp only [ofLead?, hbyte, if_pos hrange, Nat.add_sub_cancel]

/-- The first byte of a character of three bytes. It narrows the range of the second one
where that could make a shorter character or half of a pair. -/
theorem Begun.ofLead?_three {n : Nat} (hn : n < 16) :
    ofLead? (UInt8.ofNat (n + 0xE0)) =
      some ⟨n, 2, if n = 0 then 0xA0 else 0x80, if n = 13 then 0x9F else 0xBF⟩ := by
  interval_cases n <;> rfl

/-- The first byte of a character of four bytes. It narrows the range of the second one
where that could make a shorter character or go beyond the last one. -/
theorem Begun.ofLead?_four {n : Nat} (hn : n < 5) :
    ofLead? (UInt8.ofNat (n + 0xF0)) =
      some ⟨n, 3, if n = 0 then 0x90 else 0x80, if n = 4 then 0x8F else 0xBF⟩ := by
  interval_cases n <;> rfl

namespace Reader

variable (written : List Char) (damaged : Bool)

/-- A byte that begins a character of several bytes is kept as its beginning. -/
theorem step_lead {n : Nat} {begun : Begun} (hn : 0x80 ≤ n) (hbyte : n < 256)
    (hlead : Begun.ofLead? (UInt8.ofNat n) = some begun) :
    step ⟨written, none, damaged⟩ (UInt8.ofNat n) = ⟨written, some begun, damaged⟩ := by
  have hlarge : ¬UInt8.ofNat n < 0x80 := by
    rw [UInt8.lt_iff_toNat_lt, toNat_byte hbyte]
    exact Nat.not_lt.mpr hn
  simp only [step, fresh, if_neg hlarge, hlead]

/-- A byte that can continue the character begun adds its six bits to it. -/
theorem step_continue {begun : Begun} {n : Nat} (hn : n < 64)
    (hlow : begun.low.toNat ≤ n + 0x80) (hhigh : n + 0x80 ≤ begun.high.toNat) :
    step ⟨written, some begun, damaged⟩ (UInt8.ofNat (n + 0x80)) =
      if begun.missing = 1 then ⟨Char.ofNat (begun.value * 64 + n) :: written, none, damaged⟩
      else ⟨written, some ⟨begun.value * 64 + n, begun.missing - 1, 0x80, 0xBF⟩, damaged⟩ := by
  have hbyte : (UInt8.ofNat (n + 0x80)).toNat = n + 0x80 := toNat_byte (by omega)
  have hrange : begun.low ≤ UInt8.ofNat (n + 0x80) ∧ UInt8.ofNat (n + 0x80) ≤ begun.high := by
    rw [UInt8.le_iff_toNat_le, UInt8.le_iff_toNat_le, hbyte]
    exact ⟨hlow, hhigh⟩
  simp only [step, if_pos hrange, hbyte, Nat.add_sub_cancel]

/-- The last byte of a character completes it. -/
theorem step_last {value n : Nat} (hn : n < 64) :
    step ⟨written, some ⟨value, 1, 0x80, 0xBF⟩, damaged⟩ (UInt8.ofNat (n + 0x80)) =
      ⟨Char.ofNat (value * 64 + n) :: written, none, damaged⟩ := by
  rw [step_continue written damaged hn (by simp) (by simp; omega)]
  rfl

/-- The bytes of a character are read as this character. -/
theorem foldl_step_char (c : Char) :
    (String.utf8EncodeChar c).foldl step ⟨written, none, damaged⟩ =
      ⟨c :: written, none, damaged⟩ := by
  have hc : Char.ofNat c.val.toNat = c := Char.ofNat_toNat c
  have hvalid : c.val.toNat < 0xD800 ∨ 0xDFFF < c.val.toNat ∧ c.val.toNat < 0x110000 := c.valid
  unfold String.utf8EncodeChar
  generalize c.val.toNat = v at hc hvalid
  dsimp only
  split_ifs with hone htwo hthree
  · have hsmall : UInt8.ofNat v < 0x80 := by
      rw [UInt8.lt_iff_toNat_lt, toNat_byte (by omega)]
      exact Nat.lt_succ_of_le hone
    have hbyte : (UInt8.ofNat v).toNat = v := toNat_byte (by omega)
    simp only [List.foldl_cons, List.foldl_nil, step, fresh, if_pos hsmall, hbyte, hc]
  · have hlead := Begun.ofLead?_two (n := v / 64 % 0x20) (by omega) (by omega)
    have hsum : v / 64 % 0x20 * 64 + v % 0x40 = v := by omega
    simp only [List.foldl_cons, List.foldl_nil]
    rw [step_lead written damaged (by omega) (by omega) hlead,
      step_last written damaged (by omega), hsum, hc]
  · have hlead := Begun.ofLead?_three (n := v / 4096 % 0x10) (by omega)
    have hsum : (v / 4096 % 0x10 * 64 + v / 64 % 0x40) * 64 + v % 0x40 = v := by omega
    -- the narrowed range is kept to: the character is neither shorter nor half of a pair
    have hlow : (if v / 4096 % 0x10 = 0 then (0xA0 : UInt8) else 0x80).toNat ≤
        v / 64 % 0x40 + 0x80 := by
      split <;> simp
      omega
    have hhigh : v / 64 % 0x40 + 0x80 ≤
        (if v / 4096 % 0x10 = 13 then (0x9F : UInt8) else 0xBF).toNat := by
      split <;> (simp; omega)
    simp only [List.foldl_cons, List.foldl_nil]
    rw [step_lead written damaged (by omega) (by omega) hlead,
      step_continue written damaged (by omega) hlow hhigh]
    simp only [OfNat.ofNat_ne_one, if_false, Nat.reduceSub]
    rw [step_last written damaged (by omega), hsum, hc]
  · have hlead := Begun.ofLead?_four (n := v / 262144 % 0x08) (by omega)
    have hsum : ((v / 262144 % 0x08 * 64 + v / 4096 % 0x40) * 64 + v / 64 % 0x40) * 64 +
        v % 0x40 = v := by omega
    have hlow : (if v / 262144 % 0x08 = 0 then (0x90 : UInt8) else 0x80).toNat ≤
        v / 4096 % 0x40 + 0x80 := by
      split <;> simp
      omega
    have hhigh : v / 4096 % 0x40 + 0x80 ≤
        (if v / 262144 % 0x08 = 4 then (0x8F : UInt8) else 0xBF).toNat := by
      split <;> (simp; omega)
    simp only [List.foldl_cons, List.foldl_nil]
    rw [step_lead written damaged (by omega) (by omega) hlead,
      step_continue written damaged (by omega) hlow hhigh]
    simp only [OfNat.ofNat_ne_one, if_false, Nat.reduceSub]
    rw [step_continue written damaged (by omega) (by simp) (by simp; omega)]
    simp only [OfNat.ofNat_ne_one, if_false, Nat.reduceSub]
    rw [step_last written damaged (by omega), hsum, hc]

/-- The bytes of characters are read as these characters. -/
theorem foldl_step_chars (cs : List Char) :
    (cs.flatMap String.utf8EncodeChar).foldl step ⟨written, none, damaged⟩ =
      ⟨cs.reverse ++ written, none, damaged⟩ := by
  induction cs generalizing written with
  | nil => rfl
  | cons c rest ih =>
    rw [List.flatMap_cons, List.foldl_append, foldl_step_char, ih, List.reverse_cons,
      List.append_assoc, List.singleton_append]

end Reader

/-- The bytes of a text say which text it is. -/
theorem encoded_injective {text other : List Char}
    (h : text.flatMap String.utf8EncodeChar = other.flatMap String.utf8EncodeChar) :
    text = other := by
  have hbytes : text.utf8Encode = other.utf8Encode := by
    rw [List.utf8Encode, List.utf8Encode, h]
  rw [← String.toByteArray_ofList, ← String.toByteArray_ofList, String.toByteArray_inj] at hbytes
  exact String.ofList_injective hbytes

/-- The bytes of a text are read back as this text. -/
theorem decode?_encode (text : String) : decode? (encode text) = some text := by
  have hrun : Reader.run (encode text) = ⟨text.toList.reverse, none, false⟩ := by
    rw [Reader.run, encode, Reader.start, Reader.foldl_step_chars, List.append_nil]
    rfl
  simp [decode?, hrun]

end FlameFold.Text
