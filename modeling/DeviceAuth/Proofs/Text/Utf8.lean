import DeviceAuth.Text.Utf8
import Mathlib.Data.Nat.Notation

/-! The bytes of a text are those of its characters one after another. A character below 128 is one
byte, and no byte of any other character is below 128. -/
namespace DeviceAuth.Text

theorem utf8_inj {a b : String} (h : utf8 a = utf8 b) : a = b := by
  have hs : ofUtf8? (utf8 a) = ofUtf8? (utf8 b) := by rw [h]
  rw [ofUtf8?_utf8, ofUtf8?_utf8] at hs
  exact Option.some.inj hs

def encoded (cs : List Char) : List UInt8 := cs.flatMap String.utf8EncodeChar

@[simp] theorem encoded_nil : encoded [] = [] := rfl

@[simp] theorem encoded_append (a b : List Char) : encoded (a ++ b) = encoded a ++ encoded b :=
  List.flatMap_append

theorem encoded_cons (c : Char) (cs : List Char) :
    encoded (c :: cs) = String.utf8EncodeChar c ++ encoded cs := rfl

theorem utf8_ofList (cs : List Char) : utf8 (String.ofList cs) = encoded cs := by
  simp [utf8, encoded, List.utf8Encode]

theorem utf8_eq_encoded (s : String) : utf8 s = encoded s.toList := by
  rw [← utf8_ofList, String.ofList_toList]

@[simp] theorem utf8_append (a b : String) : utf8 (a ++ b) = utf8 a ++ utf8 b := by
  simp only [utf8_eq_encoded, String.toList_append, encoded_append]

theorem utf8EncodeChar_of_lt {c : Char} (h : c.toNat < 128) :
    String.utf8EncodeChar c = [UInt8.ofNat c.toNat] := by
  have hsmall : c.toNat ≤ 127 := by omega
  unfold String.utf8EncodeChar
  exact if_pos hsmall

def byteOf (c : Char) : UInt8 := UInt8.ofNat c.toNat

theorem toNat_byteOf {c : Char} (h : c.toNat < 128) : (byteOf c).toNat = c.toNat :=
  UInt8.toNat_ofNat_of_lt (Nat.lt_of_lt_of_le h (by decide))

theorem byteOf_inj {c d : Char} (hc : c.toNat < 128) (hd : d.toNat < 128)
    (h : byteOf c = byteOf d) : c = d := by
  have hn : (byteOf c).toNat = (byteOf d).toNat := congrArg UInt8.toNat h
  rw [toNat_byteOf hc, toNat_byteOf hd] at hn
  exact Char.toNat_inj.mp hn

theorem encoded_ascii {cs : List Char} (h : ∀ c ∈ cs, c.toNat < 128) :
    encoded cs = cs.map byteOf := by
  induction cs with
  | nil => rfl
  | cons c cs ih =>
    obtain ⟨hc, hcs⟩ := List.forall_mem_cons.mp h
    rw [encoded_cons, utf8EncodeChar_of_lt hc, ih hcs]
    rfl

theorem le_of_mem_utf8EncodeChar {c : Char} (h : 128 ≤ c.toNat) :
    ∀ b ∈ String.utf8EncodeChar c, 128 ≤ b.toNat := by
  have hlarge : ¬c.toNat ≤ 127 := by omega
  unfold String.utf8EncodeChar
  intro b hb
  simp only [Char.toNat_val, hlarge, if_false] at hb
  split at hb
  · simp only [List.mem_cons, List.not_mem_nil, or_false] at hb
    rcases hb with rfl | rfl <;> simp only [UInt8.toNat_ofNat'] <;> omega
  split at hb
  · simp only [List.mem_cons, List.not_mem_nil, or_false] at hb
    rcases hb with rfl | rfl | rfl <;> simp only [UInt8.toNat_ofNat'] <;> omega
  · simp only [List.mem_cons, List.not_mem_nil, or_false] at hb
    rcases hb with rfl | rfl | rfl | rfl <;> simp only [UInt8.toNat_ofNat'] <;> omega

theorem utf8Length_ofList (cs : List Char) :
    utf8Length (String.ofList cs) = (encoded cs).length := by
  rw [← utf8_ofList]
  rfl

theorem length_le_utf8Length (s : String) : s.length ≤ utf8Length s := by
  rw [← String.ofList_toList (s := s), utf8Length_ofList, String.length_ofList]
  induction s.toList with
  | nil => exact Nat.le_refl 0
  | cons c cs ih =>
    have hpos := Char.utf8Size_pos c
    rw [encoded_cons, List.length_append, String.length_utf8EncodeChar, List.length_cons]
    omega

end DeviceAuth.Text
