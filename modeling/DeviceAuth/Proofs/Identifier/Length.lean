import DeviceAuth.Proofs.Json.Value
import DeviceAuth.Proofs.Record
import DeviceAuth.Proofs.Text.Utf8

/-! Which texts are identifiers. A text is judged alike wherever an identifier is made of it, and
what is accepted is read back as it was written. The messages speak of characters, but it is bytes
that are counted, and that shows on long texts beyond ASCII. -/
namespace DeviceAuth.Identifier

/-- The first rule that a text breaks, as the rules are worded: no identifier has more than so many
characters. -/
def countedFault? (s : String) : Option IdentifierFault :=
  if s = "" then some .empty
  else if s.toList.any Text.isBlank then some .blank
  else if maxLength < s.length then some .tooLong
  else none

variable {kind : IdentifierKind} {s : String}

def outcome {ε : Type} (s : String) (error : IdentifierFault → ε) :
    Option IdentifierFault → Except ε String
  | none => .ok s
  | some fault => .error (error fault)

/-- Wherever an identifier is made of the text, be it plain or spelled in JSON in any way, it is
refused for the one fault, or accepted if there is none. -/
structure Judged (kind : IdentifierKind) (s : String) (fault : Option IdentifierFault) : Prop where
  made : (ofString kind s).map text = outcome s (IdentifierError.mk kind) fault
  decoded : ∀ json, Json.decode .value json = .ok (.string s) →
    (Json.decode (decoder kind) json).map text =
      outcome s (fun f => .ofMismatch (.refused (IdentifierError.mk kind f).message)) fault

theorem map_text_ofString (kind : IdentifierKind) (s : String) :
    (ofString kind s).map text = outcome s (IdentifierError.mk kind) (fault? s) := by
  unfold ofString
  split
  · rename_i h
    exact (congrArg (outcome s (IdentifierError.mk kind)) h).symm
  · rename_i fault h
    exact (congrArg (outcome s (IdentifierError.mk kind)) h).symm

theorem decode_of_spelling {json : List UInt8} (h : Json.decode .value json = .ok (.string s)) :
    Json.decode (decoder kind) json =
      (ofString kind s).mapError fun e => .ofMismatch (.refused e.message) := by
  obtain ⟨hvalue, htrailing⟩ := Json.decode_eq_ok_iff.mp h
  obtain ⟨raw, hraw, hs⟩ : ∃ raw, (Json.read json).value = .string raw ∧ raw.decode = .ok s := by
    rw [Json.decodeFirst] at hvalue
    generalize (Json.read json).value = r at hvalue ⊢
    cases Json.Decoder.spells_of_value_ok hvalue with
    | string hs => exact ⟨_, rfl, hs⟩
  rw [Json.decode, hraw, htrailing]
  simp only [decoder, Json.Decoder.refine, Json.Decoder.string, hs, Json.Decoder.lift, bind,
    Except.bind]
  cases ofString kind s <;> rfl

/-- Every way to make an identifier of a text counts its bytes. -/
theorem judged (kind : IdentifierKind) (s : String) : Judged kind s (fault? s) := by
  refine ⟨map_text_ofString kind s, fun json hjson => ?_⟩
  have hcomm (f : IdentifierError → Json.Error) :
      ((ofString kind s).mapError f).map text = ((ofString kind s).map text).mapError f := by
    cases ofString kind s <;> rfl
  rw [decode_of_spelling hjson, hcomm, map_text_ofString]
  cases fault? s <;> rfl

theorem Judged.unique {a b : Option IdentifierFault} (ha : Judged kind s a)
    (hb : Judged kind s b) : a = b := by
  have hsame := ha.made.symm.trans hb.made
  cases a <;> cases b <;> cases hsame <;> rfl

theorem fault?_eq_countedFault?_iff (s : String) :
    fault? s = countedFault? s ↔ (countedFault? s = none → Text.utf8Length s ≤ maxLength) := by
  have hlength := Text.length_le_utf8Length s
  have hblank : s.toList.any Text.isBlank = Text.hasBlank s := rfl
  rw [fault?, countedFault?, hblank]
  split_ifs <;> simp <;> omega

/-- A text that is accepted is the identifier's, and comes back when that is written. Whether the
rules hold as they are worded depends on the length alone: they do unless they admit a text that
takes more bytes than it may have characters. -/
theorem judged_iff_of_countedFault? (kind : IdentifierKind) (s : String) :
    Judged kind s (fault? s) ∧
      (∀ id, ofString kind s = .ok id →
        id.text = s ∧ Json.decode (decoder kind) (Text.utf8 id.toJson.compact) = .ok id) ∧
      (Judged kind s (countedFault? s) ↔
        (countedFault? s = none → Text.utf8Length s ≤ maxLength)) := by
  refine ⟨judged kind s, fun id hid => ⟨text_of_ofString hid, ?_⟩, ?_⟩
  · rw [Json.decode_compact _ id.isExact_toJson]
    exact id.decoder_reading _
  · rw [← fault?_eq_countedFault?_iff]
    exact ⟨fun h => (judged kind s).unique h, fun h => h ▸ judged kind s⟩

/-- Sixty-five letters that take two bytes each are refused as more than 128 characters. -/
theorem not_judged_sixty_five :
    countedFault? (String.ofList (List.replicate 65 'é')) = none ∧
      (IdentifierError.mk .device .tooLong).message =
        "Device identifier exceeds 128 characters." ∧
      (ofString .device (String.ofList (List.replicate 65 'é'))).map text =
        .error ⟨.device, .tooLong⟩ ∧
      ¬ Judged .device (String.ofList (List.replicate 65 'é'))
        (countedFault? (String.ofList (List.replicate 65 'é'))) := by
  have hne : String.ofList (List.replicate 65 'é') ≠ "" :=
    fun h => absurd (String.ofList_eq_empty_iff.mp h) (by decide)
  have hblank : (String.ofList (List.replicate 65 'é')).toList.any Text.isBlank = false := by
    rw [String.toList_ofList]
    rfl
  have hcounted : countedFault? (String.ofList (List.replicate 65 'é')) = none := by
    rw [countedFault?, if_neg hne, hblank, String.length_ofList]
    rfl
  have hfault : fault? (String.ofList (List.replicate 65 'é')) = some .tooLong := by
    have hsize : Text.utf8Length (String.ofList (List.replicate 65 'é')) = 130 := by
      rw [Text.utf8Length_ofList]
      rfl
    rw [fault?, if_neg hne, Text.hasBlank, hblank, hsize]
    rfl
  refine ⟨hcounted, by decide +kernel, ?_, fun hjudged => ?_⟩
  · rw [map_text_ofString, hfault]
    rfl
  · have hsame := (judged _ _).unique hjudged
    rw [hcounted, hfault] at hsame
    cases hsame

end DeviceAuth.Identifier
