import DeviceAuth.Proofs.Text.Utf8
import Mathlib.Tactic.Common

/-! Lenient reading changes nothing about a text. The first byte of a character says how many
follow and leaves out the values that no character has; each of those that follow adds six bits, so
the code point comes back. -/
namespace DeviceAuth.Text

/-- Lenient reading, byte by byte. -/
def lossyByte (s : Array Char × Option PartialChar) (b : UInt8) :
    Array Char × Option PartialChar :=
  (s.1.append (nextByte s.2 b).1.toArray, (nextByte s.2 b).2)

theorem nextByte_lead_two {n : Nat} (hlow : 0xC2 ≤ n) (hhigh : n ≤ 0xDF) :
    nextByte none (UInt8.ofNat n) = ([], some ⟨1, 0x80, 0xBF, n - 0xC0⟩) := by
  have hn : (UInt8.ofNat n).toNat = n := UInt8.toNat_ofNat_of_lt (by simp only [UInt8.size]; omega)
  simp only [nextByte, firstByte, hn]
  rw [if_neg (by omega), if_pos ⟨hlow, hhigh⟩]

theorem nextByte_lead_three {n : Nat} (hlow : 0xE0 ≤ n) (hhigh : n ≤ 0xEF) :
    ∃ low high : UInt8,
      nextByte none (UInt8.ofNat n) = ([], some ⟨2, low, high, n - 0xE0⟩) ∧
      low.toNat = (if n = 0xE0 then 0xA0 else 0x80) ∧
      high.toNat = if n = 0xED then 0x9F else 0xBF := by
  have hn : (UInt8.ofNat n).toNat = n := UInt8.toNat_ofNat_of_lt (by simp only [UInt8.size]; omega)
  simp only [nextByte, firstByte, hn]
  rw [if_neg (by omega), if_neg (by omega)]
  by_cases hfirst : n = 0xE0
  · subst hfirst
    exact ⟨_, _, rfl, rfl, rfl⟩
  by_cases hsurrogate : n = 0xED
  · subst hsurrogate
    exact ⟨_, _, rfl, rfl, rfl⟩
  · rw [if_neg hfirst, if_neg hsurrogate, if_pos (by omega)]
    exact ⟨_, _, rfl, by rw [if_neg hfirst]; rfl, by rw [if_neg hsurrogate]; rfl⟩

theorem nextByte_lead_four {n : Nat} (hlow : 0xF0 ≤ n) (hhigh : n ≤ 0xF4) :
    ∃ low high : UInt8,
      nextByte none (UInt8.ofNat n) = ([], some ⟨3, low, high, n - 0xF0⟩) ∧
      low.toNat = (if n = 0xF0 then 0x90 else 0x80) ∧
      high.toNat = if n = 0xF4 then 0x8F else 0xBF := by
  obtain rfl | rfl | rfl | rfl | rfl : n = 0xF0 ∨ n = 0xF1 ∨ n = 0xF2 ∨ n = 0xF3 ∨ n = 0xF4 := by
    omega
  all_goals exact ⟨_, _, rfl, rfl, rfl⟩

theorem nextByte_tail {p : PartialChar} {n : Nat} (hlow : p.low.toNat ≤ n + 0x80)
    (hhigh : n + 0x80 ≤ p.high.toNat) :
    nextByte (some p) (UInt8.ofNat (n + 0x80)) =
      if p.owed ≤ 1 then ([Char.ofNat (p.code * 64 + n)], none)
      else ([], some ⟨p.owed - 1, 0x80, 0xBF, p.code * 64 + n⟩) := by
  have hbyte : n + 0x80 < UInt8.size := Nat.lt_of_le_of_lt hhigh p.high.toNat_lt_size
  have hn : (UInt8.ofNat (n + 0x80)).toNat = n + 0x80 := UInt8.toNat_ofNat_of_lt hbyte
  have hfits : p.low ≤ UInt8.ofNat (n + 0x80) ∧ UInt8.ofNat (n + 0x80) ≤ p.high := by
    rw [UInt8.le_iff_toNat_le, UInt8.le_iff_toNat_le, hn]
    exact ⟨hlow, hhigh⟩
  rw [nextByte]
  simp only [if_pos hfits, hn, Nat.add_sub_cancel]

theorem nextByte_middle {owed code n : Nat} (hn : n < 64) :
    nextByte (some ⟨owed + 2, 0x80, 0xBF, code⟩) (UInt8.ofNat (n + 0x80)) =
      ([], some ⟨owed + 1, 0x80, 0xBF, code * 64 + n⟩) := by
  rw [nextByte_tail (Nat.le_add_left _ _) (show n + 0x80 ≤ 0xBF by omega), if_neg (by simp)]
  rfl

theorem nextByte_last {code n : Nat} {c : Char} (hn : n < 64)
    (hc : Char.ofNat (code * 64 + n) = c) :
    nextByte (some ⟨1, 0x80, 0xBF, code⟩) (UInt8.ofNat (n + 0x80)) = ([c], none) := by
  rw [nextByte_tail (Nat.le_add_left _ _) (show n + 0x80 ≤ 0xBF by omega), if_pos (by simp), hc]

theorem foldl_utf8EncodeChar (acc : Array Char) (c : Char) :
    (String.utf8EncodeChar c).foldl lossyByte (acc, none) = (acc.append #[c], none) := by
  have hvalid : c.toNat < 0xD800 ∨ 0xDFFF < c.toNat ∧ c.toNat < 0x110000 := c.valid
  have hc : Char.ofNat c.toNat = c := Char.ofNat_toNat c
  unfold String.utf8EncodeChar
  simp only [Char.toNat_val]
  generalize c.toNat = v at hvalid hc
  -- One case for each number of bytes. The bounds of the second byte exclude what could be written
  -- shorter, surrogates and what no character reaches, so a character always meets them.
  split
  · rename_i hone
    have hlead : nextByte none (UInt8.ofNat v) = ([c], none) := by
      have hn : (UInt8.ofNat v).toNat = v :=
        UInt8.toNat_ofNat_of_lt (by simp only [UInt8.size]; omega)
      simp only [nextByte, firstByte, hn, hc, if_pos (show v < 0x80 by omega)]
    simp only [List.foldl_cons, List.foldl_nil, lossyByte, hlead]
  split
  · rename_i htwo
    have hlead := nextByte_lead_two (n := v / 64 % 32 + 192) (by omega) (by omega)
    have hcode : (v / 64 % 32 + 192 - 192) * 64 + v % 64 = v := by omega
    have hlast := nextByte_last (n := v % 64) (by omega) ((congrArg Char.ofNat hcode).trans hc)
    simp only [List.foldl_cons, List.foldl_nil, lossyByte, hlead, hlast]
    simp
  split
  · rename_i hthree
    obtain ⟨low, high, hlead, hlow, hhigh⟩ :=
      nextByte_lead_three (n := v / 4096 % 16 + 224) (by omega) (by omega)
    have hnext : nextByte (some ⟨2, low, high, v / 4096 % 16 + 224 - 224⟩)
        (UInt8.ofNat (v / 64 % 64 + 128)) =
        ([], some ⟨1, 0x80, 0xBF, (v / 4096 % 16 + 224 - 224) * 64 + v / 64 % 64⟩) :=
      nextByte_tail (by dsimp only; split at hlow <;> omega)
        (by dsimp only; split at hhigh <;> omega)
    have hcode : ((v / 4096 % 16 + 224 - 224) * 64 + v / 64 % 64) * 64 + v % 64 = v := by omega
    have hlast := nextByte_last (n := v % 64) (by omega) ((congrArg Char.ofNat hcode).trans hc)
    simp only [List.foldl_cons, List.foldl_nil, lossyByte, hlead, hnext, hlast]
    simp
  · rename_i hfour
    obtain ⟨low, high, hlead, hlow, hhigh⟩ :=
      nextByte_lead_four (n := v / 262144 % 8 + 240) (by omega) (by omega)
    have hnext : nextByte (some ⟨3, low, high, v / 262144 % 8 + 240 - 240⟩)
        (UInt8.ofNat (v / 4096 % 64 + 128)) =
        ([], some ⟨2, 0x80, 0xBF, (v / 262144 % 8 + 240 - 240) * 64 + v / 4096 % 64⟩) :=
      nextByte_tail (by dsimp only; split at hlow <;> omega)
        (by dsimp only; split at hhigh <;> omega)
    have hthird : nextByte
        (some ⟨2, 0x80, 0xBF, (v / 262144 % 8 + 240 - 240) * 64 + v / 4096 % 64⟩)
        (UInt8.ofNat (v / 64 % 64 + 128)) =
        ([], some ⟨1, 0x80, 0xBF,
          ((v / 262144 % 8 + 240 - 240) * 64 + v / 4096 % 64) * 64 + v / 64 % 64⟩) :=
      nextByte_middle (by omega)
    have hcode : (((v / 262144 % 8 + 240 - 240) * 64 + v / 4096 % 64) * 64 + v / 64 % 64) * 64 +
        v % 64 = v := by omega
    have hlast := nextByte_last (n := v % 64) (by omega) ((congrArg Char.ofNat hcode).trans hc)
    simp only [List.foldl_cons, List.foldl_nil, lossyByte, hlead, hnext, hthird, hlast]
    simp

theorem foldl_encoded (acc : Array Char) (cs : List Char) :
    (encoded cs).foldl lossyByte (acc, none) = (acc.append cs.toArray, none) := by
  induction cs generalizing acc with
  | nil => simp
  | cons c rest ih =>
    rw [encoded_cons, List.foldl_append, foldl_utf8EncodeChar, ih]
    simp

/-- Nothing in a text is ill-formed. -/
@[simp] theorem ofUtf8Lossy_utf8 (s : String) : ofUtf8Lossy (utf8 s) = s := by
  have hfold := foldl_encoded #[] s.toList
  rw [← utf8_eq_encoded] at hfold
  have hlossy : ofUtf8Lossy (utf8 s) = String.ofList
      (if ((utf8 s).foldl lossyByte (#[], none)).2.isSome then
        ((utf8 s).foldl lossyByte (#[], none)).1.push replacement
      else ((utf8 s).foldl lossyByte (#[], none)).1).toList := rfl
  rw [hlossy, hfold]
  simp

end DeviceAuth.Text
