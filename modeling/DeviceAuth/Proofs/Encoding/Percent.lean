import DeviceAuth.Encoding.Percent
import DeviceAuth.Proofs.Text.Lossy

/-! What is written as a form is read back, whatever characters stand in it. A byte of a text is
kept or escaped, so that `&`, `=` and `+` never stand for themselves and the fields come apart where
they were joined. -/
namespace DeviceAuth.Encoding

open Text (encoded encoded_ascii byteOf byteOf_inj)

theorem hexValue?_hexDigit : ∀ n < 16, hexValue? (byteOf (hexDigit n)) = some n := by
  decide

theorem percentDecode_cons {b : UInt8} (hb : b ≠ 0x25) (rest : List UInt8) :
    percentDecode (b :: rest) = b :: percentDecode rest := by
  rw [percentDecode]
  intro h l rest' e _
  exact hb e

namespace Form

/-- A character of ASCII that parts neither fields nor a name from its value. -/
def IsInner (c : Char) : Prop := c.toNat < 128 ∧ c ≠ '&' ∧ c ≠ '='

instance (c : Char) : Decidable (IsInner c) := inferInstanceAs (Decidable (_ ∧ _))

theorem isInner_hexDigit : ∀ n < 16, IsInner (hexDigit n) := by
  decide

theorem isInner_of_mem_percentByte {b : UInt8} {c : Char} (h : c ∈ percentByte b) : IsInner c := by
  have hb : b.toNat < 256 := b.toNat_lt
  simp only [percentByte, List.mem_cons, List.not_mem_nil, or_false] at h
  rcases h with rfl | rfl | rfl
  · decide
  · exact isInner_hexDigit _ (by omega)
  · exact isInner_hexDigit _ (by omega)

theorem encoded_percentByte (b : UInt8) :
    encoded (percentByte b) =
      [0x25, byteOf (hexDigit (b.toNat / 16)), byteOf (hexDigit (b.toNat % 16))] :=
  encoded_ascii fun _ hc => (isInner_of_mem_percentByte hc).1

def spaced (b : UInt8) : UInt8 := if b = 0x2B then 0x20 else b

def resolved (bytes : List UInt8) : List UInt8 := percentDecode (bytes.map spaced)

theorem decodeText_eq (bytes : List UInt8) : decodeText bytes = Text.ofUtf8Lossy (resolved bytes) :=
  rfl

theorem spaced_hexDigit :
    ∀ n < 16, spaced (byteOf (hexDigit n)) = byteOf (hexDigit n) := by
  decide

theorem resolved_percentByte (b : UInt8) (rest : List UInt8) :
    resolved (encoded (percentByte b) ++ rest) = b :: resolved rest := by
  have hb : b.toNat < 256 := b.toNat_lt
  have hhigh : b.toNat / 16 < 16 := by omega
  have hlow : b.toNat % 16 < 16 := by omega
  have hbyte : b.toNat / 16 * 16 + b.toNat % 16 = b.toNat := by omega
  have hpercent : spaced 0x25 = 0x25 := rfl
  simp only [encoded_percentByte, resolved, List.cons_append, List.nil_append, List.map_cons,
    spaced_hexDigit _ hhigh, spaced_hexDigit _ hlow, hpercent, percentDecode,
    hexValue?_hexDigit _ hhigh, hexValue?_hexDigit _ hlow, hbyte, UInt8.ofNat_toNat]

theorem resolved_percentBytes (bytes rest : List UInt8) :
    resolved (encoded (bytes.flatMap percentByte) ++ rest) = bytes ++ resolved rest := by
  induction bytes with
  | nil => rfl
  | cons b bytes ih =>
    rw [List.flatMap_cons, Text.encoded_append, List.append_assoc, resolved_percentByte, ih,
      List.cons_append]

def encodeChar (c : Char) : List Char := if c = ' ' then ['+'] else percentChar keeps c

theorem encodeText_eq (s : String) : encodeText s = s.toList.flatMap encodeChar := rfl

theorem ne_of_keeps {c d : Char} (hc : keeps c = true) (hd : keeps d = false) : c ≠ d := by
  rintro rfl
  rw [hc] at hd
  cases hd

theorem resolved_encodeChar (c : Char) (rest : List UInt8) :
    resolved (encoded (encodeChar c) ++ rest) = String.utf8EncodeChar c ++ resolved rest := by
  unfold encodeChar
  split
  · rename_i hspace
    subst hspace
    exact percentDecode_cons (by decide) (rest.map spaced)
  unfold percentChar
  split
  · rename_i hkeeps
    have hsmall : c.toNat < 128 := hkeeps.1
    have hpercent : byteOf c ≠ byteOf '%' := fun h =>
      ne_of_keeps hkeeps.2 (by decide) (byteOf_inj hsmall (by decide) h)
    have hplus : byteOf c ≠ byteOf '+' := fun h =>
      ne_of_keeps hkeeps.2 (by decide) (byteOf_inj hsmall (by decide) h)
    have hspaced : spaced (byteOf c) = byteOf c := if_neg hplus
    rw [encoded_ascii (by simpa using hsmall), Text.utf8EncodeChar_of_lt hsmall]
    simp only [resolved, List.map_cons, List.map_nil, List.cons_append, List.nil_append, hspaced]
    exact percentDecode_cons hpercent (rest.map spaced)
  · exact resolved_percentBytes (String.utf8EncodeChar c) rest

theorem resolved_encodeText (s : String) : resolved (encoded (encodeText s)) = Text.utf8 s := by
  rw [Text.utf8_eq_encoded, encodeText_eq]
  induction s.toList with
  | nil => rfl
  | cons c rest ih =>
    rw [List.flatMap_cons, Text.encoded_append, resolved_encodeChar, ih, Text.encoded_cons]

theorem decodeText_encodeText (s : String) : decodeText (encoded (encodeText s)) = s := by
  rw [decodeText_eq, resolved_encodeText, Text.ofUtf8Lossy_utf8]

theorem isInner_of_mem_encodeText {s : String} {c : Char} (h : c ∈ encodeText s) : IsInner c := by
  rw [encodeText_eq, List.mem_flatMap] at h
  obtain ⟨d, -, h⟩ := h
  unfold encodeChar percentChar at h
  split at h
  · rw [List.mem_singleton.mp h]
    decide
  split at h
  · rename_i hkeeps
    rw [List.mem_singleton.mp h]
    exact ⟨hkeeps.1, ne_of_keeps hkeeps.2 (by decide), ne_of_keeps hkeeps.2 (by decide)⟩
  · obtain ⟨b, -, hb⟩ := List.mem_flatMap.mp h
    exact isInner_of_mem_percentByte hb

theorem ne_of_mem_encodeText {s : String} {b : UInt8} (h : b ∈ encoded (encodeText s)) :
    b ≠ 0x26 ∧ b ≠ 0x3D := by
  rw [encoded_ascii fun c hc => (isInner_of_mem_encodeText hc).1, List.mem_map] at h
  obtain ⟨c, hc, rfl⟩ := h
  obtain ⟨hsmall, hand, hequals⟩ := isInner_of_mem_encodeText hc
  exact ⟨fun h => hand (byteOf_inj hsmall (by decide) h),
    fun h => hequals (byteOf_inj hsmall (by decide) h)⟩

theorem encoded_encodePair (pair : String × String) :
    encoded (encodePair pair) =
      encoded (encodeText pair.1) ++ 0x3D :: encoded (encodeText pair.2) := by
  rw [encodePair, Text.encoded_append, Text.encoded_cons]
  rfl

theorem decodeField_encodePair (pair : String × String) :
    decodeField (encoded (encodePair pair)) = pair := by
  have hname : ∀ b ∈ encoded (encodeText pair.1), decide (b ≠ 0x3D) = true := fun b hb =>
    decide_eq_true (ne_of_mem_encodeText hb).2
  rw [decodeField, encoded_encodePair, List.takeWhile_append_of_pos hname,
    List.dropWhile_append_of_pos hname]
  simp [decodeText_encodeText]

theorem decode_append (front back : List UInt8) :
    decode (front ++ 0x26 :: back) = decode front ++ decode back := by
  simp [decode, List.splitOnP_append_cons]

@[simp] theorem decode_nil : decode [] = [] := by
  simp [decode]

theorem decode_encodePair (pair : String × String) :
    decode (encoded (encodePair pair)) = [pair] := by
  have hwhole : ∀ b ∈ encoded (encodePair pair), decide (b = 0x26) = false := by
    intro b hb
    rw [encoded_encodePair, List.mem_append, List.mem_cons] at hb
    rcases hb with hb | rfl | hb
    · exact decide_eq_false (ne_of_mem_encodeText hb).1
    · decide
    · exact decide_eq_false (ne_of_mem_encodeText hb).1
  have hsome : (encoded (encodePair pair)).isEmpty = false := by
    rw [encoded_encodePair]
    simp
  rw [decode, List.splitOnP_eq_singleton hwhole]
  simp [hsome, decodeField_encodePair]

theorem encode_cons (pair next : String × String) (rest : List (String × String)) :
    encode (pair :: next :: rest) = encodePair pair ++ '&' :: encode (next :: rest) := by
  simp [encode, List.intercalate_cons_cons]

theorem decode_encode (pairs : List (String × String)) :
    decode (encoded (encode pairs)) = pairs := by
  induction pairs with
  | nil => exact decode_nil
  | cons pair rest ih =>
    cases rest with
    | nil =>
      rw [encode, List.map_singleton, List.intercalate_singleton]
      exact decode_encodePair pair
    | cons next rest =>
      have hand : String.utf8EncodeChar '&' = [0x26] := rfl
      rw [encode_cons, Text.encoded_append, Text.encoded_cons, hand, List.singleton_append,
        decode_append, decode_encodePair, ih, List.singleton_append]

end Form

end DeviceAuth.Encoding
