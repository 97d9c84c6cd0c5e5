import DeviceAuth.Json.Literal
import DeviceAuth.Json.Write
import DeviceAuth.Proofs.Text.Utf8
import Mathlib.Tactic.IntervalCases

/-! Written literals: the scanner takes each as one token, and the token says what was written. -/
namespace DeviceAuth.Json

open Text (encoded)

def IsPlain (c : Char) : Prop := 32 ≤ c.toNat ∧ c ≠ '"' ∧ c ≠ '\\'

instance (c : Char) : Decidable (IsPlain c) := inferInstanceAs (Decidable (_ ∧ _))

theorem escapeChar_of_isPlain {c : Char} (h : IsPlain c) : escapeChar c = [c] := by
  obtain ⟨hlow, hquote, hslash⟩ := h
  have hne : ∀ d : Char, d.toNat < 32 → c ≠ d := by
    rintro d hd rfl
    omega
  have hval : ∀ n : UInt32, n.toNat < 32 → c.val ≠ n := by
    rintro n hn rfl
    exact absurd hlow (Nat.not_le.mpr hn)
  have hcontrol : ¬c.val < 0x20 := Nat.not_lt.mpr hlow
  simp [escapeChar, hquote, hslash, hne '\n' (by decide), hne '\r' (by decide),
    hne '\t' (by decide), hval 8 (by decide), hval 12 (by decide), hcontrol]

theorem exists_ofNat_of_not_isPlain {c : Char} (h : ¬IsPlain c) :
    ∃ n, (n < 32 ∨ n = 34 ∨ n = 92) ∧ c = Char.ofNat n := by
  by_cases hlow : c.toNat < 32
  · exact ⟨c.toNat, .inl hlow, by simp⟩
  by_cases hquote : c = '"'
  · exact ⟨34, .inr (.inl rfl), hquote⟩
  by_cases hslash : c = '\\'
  · exact ⟨92, .inr (.inr rfl), hslash⟩
  · exact absurd ⟨Nat.not_lt.mp hlow, hquote, hslash⟩ h

def IsPlainByte (b : UInt8) : Prop := 32 ≤ b ∧ b ≠ 0x22 ∧ b ≠ 0x5C

theorem isPlainByte_of_mem {c : Char} (h : IsPlain c) :
    ∀ b ∈ String.utf8EncodeChar c, IsPlainByte b := by
  intro b hb
  by_cases hc : c.toNat < 128
  · obtain ⟨hlow, hquote, hslash⟩ := h
    rw [Text.utf8EncodeChar_of_lt hc, List.mem_singleton] at hb
    have hne : ∀ d : Char, c ≠ d → c.toNat ≠ d.toNat := fun d hd hn => hd (Char.toNat_inj.mp hn)
    have hn := hne _ hquote
    have hn' := hne _ hslash
    have hbn : b.toNat = c.toNat := by
      rw [hb, UInt8.toNat_ofNat', Nat.mod_eq_of_lt (by omega)]
    refine ⟨?_, ?_, ?_⟩
    · rw [UInt8.le_iff_toNat_le, hbn]
      exact hlow
    · rintro rfl
      exact hn hbn.symm
    · rintro rfl
      exact hn' hbn.symm
  · have hb128 := Text.le_of_mem_utf8EncodeChar (by omega) b hb
    refine ⟨?_, ?_, ?_⟩
    · rw [UInt8.le_iff_toNat_le]
      exact le_trans (by decide) hb128
    · rintro rfl
      exact absurd hb128 (by decide)
    · rintro rfl
      exact absurd hb128 (by decide)

namespace RawString

/-- What stands between the quotes of a written text. -/
def ofString (s : String) : RawString := ⟨encoded (s.toList.flatMap escapeChar), none⟩

theorem unescape_plain {closed : Bool} {acc rest plain : List UInt8}
    (h : ∀ b ∈ plain, IsPlainByte b) :
    unescape closed acc .plain (plain ++ rest) =
      unescape closed (plain.reverse ++ acc) .plain rest := by
  induction plain generalizing acc with
  | nil => rfl
  | cons b bs ih =>
    obtain ⟨⟨hlow, -, hslash⟩, hbs⟩ := List.forall_mem_cons.mp h
    have hbyte : byte acc .plain b = .ok (b :: acc, .plain) := by
      simp [byte, hslash, UInt8.not_lt.mpr hlow]
    simp only [List.cons_append, unescape, hbyte, ih hbs]
    simp

theorem unescape_escapeChar (closed : Bool) (acc rest : List UInt8) (c : Char) :
    unescape closed acc .plain (encoded (escapeChar c) ++ rest) =
      unescape closed ((String.utf8EncodeChar c).reverse ++ acc) .plain rest := by
  by_cases h : IsPlain c
  · rw [escapeChar_of_isPlain h, Text.encoded_cons, Text.encoded_nil, List.append_nil,
      unescape_plain (isPlainByte_of_mem h)]
  · obtain ⟨n, hn | rfl | rfl, rfl⟩ := exists_ofNat_of_not_isPlain h
    · interval_cases n <;> rfl
    · rfl
    · rfl

theorem unescape_escaped (acc : List UInt8) (cs : List Char) :
    unescape true acc .plain (encoded (cs.flatMap escapeChar)) =
      .ok (acc.reverse ++ encoded cs) := by
  induction cs generalizing acc with
  | nil => simp [unescape]
  | cons c rest ih =>
    rw [List.flatMap_cons, Text.encoded_append, unescape_escapeChar, ih, Text.encoded_cons]
    simp

@[simp] theorem decode_ofString (s : String) : (ofString s).decode = .ok s := by
  have hbytes : unescape true [] .plain (ofString s).bytes = .ok (Text.utf8 s) := by
    rw [Text.utf8_eq_encoded]
    exact unescape_escaped [] s.toList
  have hclosed : (ofString s).fault.isNone = true := rfl
  simp only [decode, hclosed, hbytes, Text.ofUtf8?_utf8]
  rfl

end RawString

namespace Scan

theorem foldl_plain {ts : List Token} {seen plain : List UInt8}
    (h : ∀ b ∈ plain, IsPlainByte b) :
    plain.foldl byte ⟨ts, .string seen .plain⟩ = ⟨ts, .string (plain.reverse ++ seen) .plain⟩ := by
  induction plain generalizing seen with
  | nil => rfl
  | cons b bs ih =>
    obtain ⟨⟨hlow, hquote, hslash⟩, hbs⟩ := List.forall_mem_cons.mp h
    have hbyte : byte ⟨ts, .string seen .plain⟩ b = ⟨ts, .string (b :: seen) .plain⟩ := by
      simp [byte, hquote, hslash, UInt8.not_lt.mpr hlow]
    simp only [List.foldl_cons, hbyte, ih hbs]
    simp

theorem foldl_escapeChar (ts : List Token) (seen : List UInt8) (c : Char) :
    (encoded (escapeChar c)).foldl byte ⟨ts, .string seen .plain⟩ =
      ⟨ts, .string ((encoded (escapeChar c)).reverse ++ seen) .plain⟩ := by
  by_cases h : IsPlain c
  · rw [escapeChar_of_isPlain h, Text.encoded_cons, Text.encoded_nil, List.append_nil,
      foldl_plain (isPlainByte_of_mem h)]
  · obtain ⟨n, hn | rfl | rfl, rfl⟩ := exists_ofNat_of_not_isPlain h
    · interval_cases n <;> rfl
    · rfl
    · rfl

theorem foldl_escaped (ts : List Token) (seen : List UInt8) (cs : List Char) :
    (encoded (cs.flatMap escapeChar)).foldl byte ⟨ts, .string seen .plain⟩ =
      ⟨ts, .string ((encoded (cs.flatMap escapeChar)).reverse ++ seen) .plain⟩ := by
  induction cs generalizing seen with
  | nil => rfl
  | cons c rest ih =>
    rw [List.flatMap_cons, Text.encoded_append, List.foldl_append, foldl_escapeChar, ih]
    simp

theorem foldl_writeString (ts : List Token) (s : String) :
    (encoded (writeString s)).foldl byte ⟨ts, .gap⟩ = ⟨.string (.ofString s) :: ts, .gap⟩ := by
  have hquote : encoded ['"'] = [0x22] := by decide
  have hopen : byte ⟨ts, .gap⟩ 0x22 = ⟨ts, .string [] .plain⟩ := rfl
  rw [writeString, ← List.singleton_append, Text.encoded_append, Text.encoded_append, hquote,
    List.foldl_append, List.foldl_append]
  simp only [List.foldl_cons, List.foldl_nil, hopen, foldl_escaped]
  simp [byte, emit, RawString.ofString]

end Scan

end DeviceAuth.Json
