import DeviceAuth.Proofs.Text.Utf8
import Mathlib.Tactic.SplitIfs

/-! Texts in order. They are compared character by character, which comes to the same as comparing
their bytes. -/
namespace DeviceAuth.Text

variable {c d : Char}

theorem utf8EncodeChar_append_lt_of_four (hc : 65535 < c.toNat) (h : c < d) (as bs : List UInt8) :
    String.utf8EncodeChar c ++ as < String.utf8EncodeChar d ++ bs := by
  have hlt : c.toNat < d.toNat := h
  have hvalid : d.toNat < 0xD800 ∨ 0xDFFF < d.toNat ∧ d.toNat < 0x110000 := d.valid
  have hdigits : c.toNat / 262144 < d.toNat / 262144 ∨ c.toNat / 262144 = d.toNat / 262144 ∧
      (c.toNat / 4096 < d.toNat / 4096 ∨ c.toNat / 4096 = d.toNat / 4096 ∧
        (c.toNat / 64 < d.toNat / 64 ∨
          c.toNat / 64 = d.toNat / 64 ∧ c.toNat % 64 < d.toNat % 64)) := by
    omega
  unfold String.utf8EncodeChar
  simp only [Char.toNat_val, show ¬c.toNat ≤ 127 by omega, show ¬c.toNat ≤ 2047 by omega,
    show ¬c.toNat ≤ 65535 by omega, show ¬d.toNat ≤ 127 by omega, show ¬d.toNat ≤ 2047 by omega,
    show ¬d.toNat ≤ 65535 by omega, if_false, List.cons_append, List.nil_append,
    List.cons_lt_cons_iff, UInt8.lt_iff_toNat_lt, ← UInt8.toNat_inj, UInt8.toNat_ofNat']
  obtain h | ⟨h₁, h | ⟨h₂, h | ⟨h₃, h⟩⟩⟩ := hdigits
  · exact .inl (by omega)
  · exact .inr ⟨by omega, .inl (by omega)⟩
  · exact .inr ⟨by omega, .inr ⟨by omega, .inl (by omega)⟩⟩
  · exact .inr ⟨by omega, .inr ⟨by omega, .inr ⟨by omega, .inl (by omega)⟩⟩⟩

theorem utf8EncodeChar_append_lt (h : c < d) (as bs : List UInt8) :
    String.utf8EncodeChar c ++ as < String.utf8EncodeChar d ++ bs := by
  have hlt : c.toNat < d.toNat := h
  by_cases hc : 65535 < c.toNat
  · exact utf8EncodeChar_append_lt_of_four hc h as bs
  -- with fewer bytes on the left its first byte is the smaller one, with as many a digit decides
  · have hvalid : d.toNat < 0xD800 ∨ 0xDFFF < d.toNat ∧ d.toNat < 0x110000 := d.valid
    unfold String.utf8EncodeChar
    simp only [Char.toNat_val]
    split_ifs <;>
      simp only [List.cons_append, List.nil_append, List.cons_lt_cons_iff, UInt8.lt_iff_toNat_lt,
        ← UInt8.toNat_inj, UInt8.toNat_ofNat'] <;>
      omega

theorem encoded_lt_cons (c : Char) (cs : List Char) : encoded [] < encoded (c :: cs) := by
  rw [encoded_nil, encoded_cons]
  cases hbytes : String.utf8EncodeChar c with
  | nil =>
    have hpos := Char.utf8Size_pos c
    rw [← String.length_utf8EncodeChar, hbytes] at hpos
    cases hpos
  | cons b bs => exact List.nil_lt_cons b _

theorem utf8_lt_utf8 {s t : String} (h : s < t) : utf8 s < utf8 t := by
  have hchars := String.lt_iff.mp h
  rw [utf8_eq_encoded, utf8_eq_encoded]
  generalize s.toList = cs, t.toList = ds at hchars
  induction hchars with
  | nil => exact encoded_lt_cons _ _
  | cons _ ih => exact List.append_left_lt ih
  | rel h => exact utf8EncodeChar_append_lt h _ _

end DeviceAuth.Text
