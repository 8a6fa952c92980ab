import FlameFold.Proofs.Text.Utf8

/-!
# Only the bytes of a text are read as this text

As long as nothing is damaged, the bytes read so far are those of the characters written, and
behind them those of the character begun. What the next byte may be and how many are to come
is such that the last one spells a character out in the only way that it has.
-/

namespace FlameFold.Text

/-- A character has the number it is made from, if any character has it. -/
theorem toNat_ofNat {n : Nat} (h : n.isValidChar) : (Char.ofNat n).val.toNat = n := by
  have hchar : Char.ofNat n = Char.ofNatAux n h := dif_pos h
  rw [hchar]
  rfl

/-- The bytes of a character that takes one. -/
theorem encodeChar_one {n : Nat} (hn : n < 0x80) :
    String.utf8EncodeChar (Char.ofNat n) = [UInt8.ofNat n] := by
  rw [String.utf8EncodeChar, toNat_ofNat (.inl (by omega))]
  exact if_pos (by omega)

/-- The bytes of a character that takes two, by the bits that each of them adds. -/
theorem encodeChar_two {n m : Nat} (hn : 2 ≤ n) (hn' : n < 32) (hm : m < 64) :
    String.utf8EncodeChar (Char.ofNat (n * 64 + m)) =
      [UInt8.ofNat (n + 0xC0), UInt8.ofNat (m + 0x80)] := by
  rw [String.utf8EncodeChar, toNat_ofNat (.inl (by omega))]
  have hlead : (n * 64 + m) / 64 % 0x20 = n := by omega
  have hlast : (n * 64 + m) % 0x40 = m := by omega
  rw [if_neg (by omega), if_pos (by omega), hlead, hlast]

/-- The bytes of a character that takes three, by the bits that each of them adds. -/
theorem encodeChar_three {n m k : Nat} (hn : n < 16) (hm : m < 64) (hk : k < 64)
    (hlong : n = 0 → 0x20 ≤ m) (hpair : n = 13 → m < 0x20) :
    String.utf8EncodeChar (Char.ofNat ((n * 64 + m) * 64 + k)) =
      [UInt8.ofNat (n + 0xE0), UInt8.ofNat (m + 0x80), UInt8.ofNat (k + 0x80)] := by
  have hvalid : ((n * 64 + m) * 64 + k).isValidChar := by
    unfold Nat.isValidChar
    omega
  rw [String.utf8EncodeChar, toNat_ofNat hvalid]
  have hlead : ((n * 64 + m) * 64 + k) / 4096 % 0x10 = n := by omega
  have hsecond : ((n * 64 + m) * 64 + k) / 64 % 0x40 = m := by omega
  have hlast : ((n * 64 + m) * 64 + k) % 0x40 = k := by omega
  rw [if_neg (by omega), if_neg (by omega), if_pos (by omega), hlead, hsecond, hlast]

/-- The bytes of a character that takes four, by the bits that each of them adds. -/
theorem encodeChar_four {n m k l : Nat} (hn : n < 5) (hm : m < 64) (hk : k < 64) (hl : l < 64)
    (hlong : n = 0 → 0x10 ≤ m) (hend : n = 4 → m < 0x10) :
    String.utf8EncodeChar (Char.ofNat (((n * 64 + m) * 64 + k) * 64 + l)) =
      [UInt8.ofNat (n + 0xF0), UInt8.ofNat (m + 0x80), UInt8.ofNat (k + 0x80),
        UInt8.ofNat (l + 0x80)] := by
  have hvalid : (((n * 64 + m) * 64 + k) * 64 + l).isValidChar := by
    unfold Nat.isValidChar
    omega
  rw [String.utf8EncodeChar, toNat_ofNat hvalid]
  have hlead : (((n * 64 + m) * 64 + k) * 64 + l) / 262144 % 0x08 = n := by omega
  have hsecond : (((n * 64 + m) * 64 + k) * 64 + l) / 4096 % 0x40 = m := by omega
  have hthird : (((n * 64 + m) * 64 + k) * 64 + l) / 64 % 0x40 = k := by omega
  have hlast : (((n * 64 + m) * 64 + k) * 64 + l) % 0x40 = l := by omega
  rw [if_neg (by omega), if_neg (by omega), if_neg (by omega), hlead, hsecond, hthird, hlast]

namespace Begun

/-- The number of a byte within its bounds, counted from the least one of a byte that continues
a character. -/
theorem toNat_of_within {low high b : UInt8} (hlow : low ≤ b) (hhigh : b ≤ high)
    (hleast : 0x80 ≤ low.toNat) (hmost : high.toNat ≤ 0xBF) :
    ∃ m < 64, b = UInt8.ofNat (m + 0x80) ∧ low.toNat ≤ m + 0x80 ∧ m + 0x80 ≤ high.toNat := by
  rw [UInt8.le_iff_toNat_le] at hlow hhigh
  have hm : b.toNat - 0x80 + 0x80 = b.toNat := by omega
  refine ⟨b.toNat - 0x80, by omega, ?_, by omega, by omega⟩
  rw [hm, UInt8.ofNat_toNat]

/-- The bytes that have been read of a character begun. Its bits are those that they add, and
what the first one narrows holds of the second one. -/
inductive Spelled : Begun → List UInt8 → Prop where
  /-- The first byte of two. -/
  | two {n : Nat} (hlow : 2 ≤ n) (hhigh : n < 32) :
      Spelled ⟨n, 1, 0x80, 0xBF⟩ [UInt8.ofNat (n + 0xC0)]
  /-- The first byte of three. -/
  | three {n : Nat} (hn : n < 16) :
      Spelled ⟨n, 2, if n = 0 then 0xA0 else 0x80, if n = 13 then 0x9F else 0xBF⟩
        [UInt8.ofNat (n + 0xE0)]
  /-- Two bytes of three. -/
  | threeSecond {n m : Nat} (hn : n < 16) (hm : m < 64) (hlong : n = 0 → 0x20 ≤ m)
      (hpair : n = 13 → m < 0x20) :
      Spelled ⟨n * 64 + m, 1, 0x80, 0xBF⟩ [UInt8.ofNat (n + 0xE0), UInt8.ofNat (m + 0x80)]
  /-- The first byte of four. -/
  | four {n : Nat} (hn : n < 5) :
      Spelled ⟨n, 3, if n = 0 then 0x90 else 0x80, if n = 4 then 0x8F else 0xBF⟩
        [UInt8.ofNat (n + 0xF0)]
  /-- Two bytes of four. -/
  | fourSecond {n m : Nat} (hn : n < 5) (hm : m < 64) (hlong : n = 0 → 0x10 ≤ m)
      (hend : n = 4 → m < 0x10) :
      Spelled ⟨n * 64 + m, 2, 0x80, 0xBF⟩ [UInt8.ofNat (n + 0xF0), UInt8.ofNat (m + 0x80)]
  /-- Three bytes of four. -/
  | fourThird {n m k : Nat} (hn : n < 5) (hm : m < 64) (hk : k < 64) (hlong : n = 0 → 0x10 ≤ m)
      (hend : n = 4 → m < 0x10) :
      Spelled ⟨(n * 64 + m) * 64 + k, 1, 0x80, 0xBF⟩
        [UInt8.ofNat (n + 0xF0), UInt8.ofNat (m + 0x80), UInt8.ofNat (k + 0x80)]

/-- A byte that begins a character is its first one. -/
theorem spelled_of_ofLead? {b : UInt8} {begun : Begun} (h : ofLead? b = some begun) :
    Spelled begun [b] := by
  have hbyte : b = UInt8.ofNat b.toNat := UInt8.ofNat_toNat.symm
  by_cases htwo : 0xC2 ≤ b.toNat ∧ b.toNat ≤ 0xDF
  · obtain ⟨n, hn⟩ : ∃ n, b.toNat = n + 0xC0 := ⟨b.toNat - 0xC0, by omega⟩
    rw [hn] at hbyte
    rw [hbyte, ofLead?_two (by omega) (by omega)] at h
    rw [← Option.some.inj h, hbyte]
    exact .two (by omega) (by omega)
  by_cases hthree : 0xE0 ≤ b.toNat ∧ b.toNat ≤ 0xEF
  · obtain ⟨n, hn⟩ : ∃ n, b.toNat = n + 0xE0 := ⟨b.toNat - 0xE0, by omega⟩
    rw [hn] at hbyte
    rw [hbyte, ofLead?_three (by omega)] at h
    rw [← Option.some.inj h, hbyte]
    exact .three (by omega)
  by_cases hfour : 0xF0 ≤ b.toNat ∧ b.toNat ≤ 0xF4
  · obtain ⟨n, hn⟩ : ∃ n, b.toNat = n + 0xF0 := ⟨b.toNat - 0xF0, by omega⟩
    rw [hn] at hbyte
    rw [hbyte, ofLead?_four (by omega)] at h
    rw [← Option.some.inj h, hbyte]
    exact .four (by omega)
  · unfold ofLead? at h
    extract_lets n at h
    split_ifs at h <;> omega

/-- A byte that continues a character spells it out, if it is the last one, and otherwise spells
more of it. -/
theorem Spelled.next {begun : Begun} {bytes : List UInt8} {b : UInt8} (h : Spelled begun bytes)
    (hlow : begun.low ≤ b) (hhigh : b ≤ begun.high) :
    if begun.missing = 1 then
      String.utf8EncodeChar (Char.ofNat (begun.value * 64 + (b.toNat - 0x80))) = bytes ++ [b]
    else Spelled ⟨begun.value * 64 + (b.toNat - 0x80), begun.missing - 1, 0x80, 0xBF⟩
      (bytes ++ [b]) := by
  have hleast : 0x80 ≤ (0x80 : UInt8).toNat := by decide
  have hmost : (0xBF : UInt8).toNat ≤ 0xBF := by decide
  cases h with
  | two hn hn' =>
    obtain ⟨m, hm, rfl, -, -⟩ := toNat_of_within hlow hhigh hleast hmost
    simp only [toNat_byte (show m + 0x80 < 256 by omega), Nat.add_sub_cancel, if_true]
    exact encodeChar_two hn hn' hm
  | @three n hn =>
    obtain ⟨m, hm, rfl, hfrom, hto⟩ := toNat_of_within hlow hhigh
      (by dsimp only; split <;> decide) (by dsimp only; split <;> decide)
    simp only [toNat_byte (show m + 0x80 < 256 by omega), Nat.add_sub_cancel,
      OfNat.ofNat_ne_one, if_false]
    refine .threeSecond hn hm (fun h => ?_) fun h => ?_
    · rw [if_pos h] at hfrom
      exact Nat.le_of_add_le_add_right (show 0x20 + 0x80 ≤ m + 0x80 from hfrom)
    · rw [if_pos h] at hto
      exact Nat.lt_of_add_lt_add_right (Nat.lt_succ_of_le hto)
  | threeSecond hn hm hlong hpair =>
    obtain ⟨k, hk, rfl, -, -⟩ := toNat_of_within hlow hhigh hleast hmost
    simp only [toNat_byte (show k + 0x80 < 256 by omega), Nat.add_sub_cancel, if_true]
    exact encodeChar_three hn hm hk hlong hpair
  | @four n hn =>
    obtain ⟨m, hm, rfl, hfrom, hto⟩ := toNat_of_within hlow hhigh
      (by dsimp only; split <;> decide) (by dsimp only; split <;> decide)
    simp only [toNat_byte (show m + 0x80 < 256 by omega), Nat.add_sub_cancel,
      OfNat.ofNat_ne_one, if_false]
    refine .fourSecond hn hm (fun h => ?_) fun h => ?_
    · rw [if_pos h] at hfrom
      exact Nat.le_of_add_le_add_right (show 0x10 + 0x80 ≤ m + 0x80 from hfrom)
    · rw [if_pos h] at hto
      exact Nat.lt_of_add_lt_add_right (Nat.lt_succ_of_le hto)
  | fourSecond hn hm hlong hend =>
    obtain ⟨k, hk, rfl, -, -⟩ := toNat_of_within hlow hhigh hleast hmost
    simp only [toNat_byte (show k + 0x80 < 256 by omega), Nat.add_sub_cancel,
      OfNat.ofNat_ne_one, if_false]
    exact .fourThird hn hm hk hlong hend
  | fourThird hn hm hk hlong hend =>
    obtain ⟨l, hl, rfl, -, -⟩ := toNat_of_within hlow hhigh hleast hmost
    simp only [toNat_byte (show l + 0x80 < 256 by omega), Nat.add_sub_cancel, if_true]
    exact encodeChar_four hn hm hk hl hlong hend

end Begun

namespace Reader

/-- The bytes read are those of what is written and of what is begun, or some are damaged. -/
def Reads (r : Reader) (bytes : List UInt8) : Prop :=
  r.damaged = true ∨ ∃ partly, bytes = r.written.reverse.flatMap String.utf8EncodeChar ++ partly ∧
    match r.begun with
    | none => partly = []
    | some begun => begun.Spelled partly

variable {r : Reader} {bytes : List UInt8}

/-- A byte read with nothing begun is written, begins a character or is damaged. -/
theorem reads_fresh (written : List Char) (damaged : Bool) (b : UInt8) :
    (fresh written damaged b).Reads (written.reverse.flatMap String.utf8EncodeChar ++ [b]) := by
  unfold fresh
  split_ifs with hsmall
  · have hchar := encodeChar_one (UInt8.lt_iff_toNat_lt.mp hsmall)
    rw [UInt8.ofNat_toNat] at hchar
    exact .inr ⟨[], by simp [hchar], rfl⟩
  · cases hlead : Begun.ofLead? b with
    | some begun => exact .inr ⟨[b], rfl, Begun.spelled_of_ofLead? hlead⟩
    | none => exact .inl rfl

/-- What is damaged before a byte is read with nothing begun stays so. -/
theorem damaged_fresh (written : List Char) (b : UInt8) :
    (fresh written true b).damaged = true := by
  unfold fresh
  split
  · rfl
  · cases Begun.ofLead? b <;> rfl

/-- What is damaged stays so. -/
theorem damaged_step (h : r.damaged = true) (b : UInt8) : (r.step b).damaged = true := by
  obtain ⟨written, begun, damaged⟩ := r
  obtain rfl : damaged = true := h
  cases begun with
  | none => exact damaged_fresh written b
  | some begun =>
    simp only [step]
    split_ifs
    · rfl
    · rfl
    · exact damaged_fresh _ b

/-- The reader keeps to the bytes that it reads. -/
theorem Reads.step (h : r.Reads bytes) (b : UInt8) : (r.step b).Reads (bytes ++ [b]) := by
  obtain ⟨written, begun, damaged⟩ := r
  obtain hdamaged | ⟨partly, rfl, hpartly⟩ := h
  · exact .inl (damaged_step hdamaged b)
  cases begun with
  | none =>
    obtain rfl : partly = [] := hpartly
    rw [List.append_nil]
    exact reads_fresh written damaged b
  | some begun =>
    simp only [Reader.step, List.append_assoc]
    split_ifs with hwithin hlast
    · have hchar := Begun.Spelled.next hpartly hwithin.1 hwithin.2
      rw [if_pos hlast] at hchar
      exact .inr ⟨[], by simp [hchar], rfl⟩
    · have hmore := Begun.Spelled.next hpartly hwithin.1 hwithin.2
      rw [if_neg hlast] at hmore
      exact .inr ⟨partly ++ [b], rfl, hmore⟩
    · exact .inl (damaged_fresh _ b)

/-- The reader keeps to all of the bytes that it reads. -/
theorem Reads.foldl (h : r.Reads bytes) (more : List UInt8) :
    (more.foldl Reader.step r).Reads (bytes ++ more) := by
  induction more generalizing r bytes with
  | nil => rwa [List.append_nil]
  | cons b rest ih =>
    have hrest := ih (h.step b)
    rwa [List.append_assoc, List.singleton_append] at hrest

end Reader

/-- What is read to the end without damage is what is written. -/
theorem Reader.eq_encode_of_run {bytes : List UInt8} (h : (run bytes).damaged = false) :
    bytes = (run bytes).written.reverse.flatMap String.utf8EncodeChar := by
  have hstart : start.Reads [] := .inr ⟨[], rfl, rfl⟩
  have hreads := hstart.foldl bytes
  rw [List.nil_append] at hreads
  rw [run] at h ⊢
  generalize bytes.foldl step start = r at h hreads ⊢
  obtain ⟨written, begun, damaged⟩ := r
  cases begun with
  | some begun => cases h
  | none =>
    obtain hdamaged | ⟨partly, rfl, rfl⟩ := hreads
    · exact absurd (h.symm.trans hdamaged) (by decide)
    · exact List.append_nil _

/-- Bytes are read as a text exactly if they are its bytes. -/
theorem decode?_eq_some_iff {bytes : List UInt8} {text : String} :
    decode? bytes = some text ↔ bytes = encode text := by
  constructor
  · intro h
    rw [decode?] at h
    split_ifs at h with hdamaged
    rw [← Option.some.inj h, encode, String.toList_ofList]
    exact Reader.eq_encode_of_run (by simpa using hdamaged)
  · rintro rfl
    exact decode?_encode text

end FlameFold.Text
