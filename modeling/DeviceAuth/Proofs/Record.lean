import DeviceAuth.Proofs.Json.Decode
import DeviceAuth.Proofs.Time.Instant
import DeviceAuth.Record

/-! A record is read back as it was written, with every instant in its own offset, whatever its
tokens hold. -/
namespace DeviceAuth

namespace Identifier

variable {kind : IdentifierKind}

theorem isExact_toJson (id : Identifier kind) : id.toJson.IsExact := .string id.text

theorem decoder_reading (id : Identifier kind) (levels : Nat) :
    decoder kind levels id.toJson.reading = .ok id := by
  rw [toJson, decoder, Json.Decoder.refine, Json.Decoder.string_reading]
  simp only [bind, Except.bind, ofString_text, Except.mapError]

end Identifier

namespace Secret

theorem isExact_toJson (s : Secret) : s.toJson.IsExact := .string s.text

theorem decoder_reading (s : Secret) (levels : Nat) :
    decoder levels s.toJson.reading = .ok s := by
  rw [toJson, decoder, Json.Decoder.string_reading]
  rfl

end Secret

namespace Record

structure IsRepresentable (r : Record) : Prop where
  issuedAt : r.issuedAt.IsRepresentable
  expiresAt : ∀ t, r.expiresAt = some t → t.IsRepresentable
  signedOutAt : ∀ t, r.signedOutAt = some t → t.IsRepresentable

theorem IsRepresentable.signOut {r : Record} (h : r.IsRepresentable) {now : Instant}
    (hnow : now.IsRepresentable) : (r.signOut now).IsRepresentable := by
  refine ⟨h.issuedAt, h.expiresAt, fun t ht => ?_⟩
  have hfirst : r.signedOutAt.getD now = t := Option.some.inj ht
  cases hout : r.signedOutAt with
  | none =>
    rw [hout] at hfirst
    exact hfirst ▸ hnow
  | some first =>
    rw [hout] at hfirst
    exact h.signedOutAt t (hout.trans (congrArg some hfirst))

theorem isExact_toJson {r : Record} (h : r.IsRepresentable) : r.toJson.IsExact := by
  refine .object fun m hm => ?_
  simp only [List.mem_cons, List.not_mem_nil, or_false] at hm
  rcases hm with rfl | rfl | rfl | rfl | rfl | rfl | rfl | rfl
  · exact r.device.isExact_toJson
  · exact r.owner.isExact_toJson
  · exact r.provider.isExact_toJson
  · exact r.accessToken.isExact_toJson
  · exact Json.isExact_optional fun s _ => s.isExact_toJson
  · exact Instant.isExact_toJson h.issuedAt
  · exact Json.isExact_optional fun t ht => Instant.isExact_toJson (h.expiresAt t ht)
  · exact Json.isExact_optional fun t ht => Instant.isExact_toJson (h.signedOutAt t ht)

def Members.ofRecord (r : Record) : Members :=
  ⟨some r.device, some r.owner, some r.provider, some r.accessToken, some r.refreshToken,
    some r.issuedAt, some r.expiresAt, some r.signedOutAt⟩

theorem decoder_reading {r : Record} (h : r.IsRepresentable) (levels : Nat) :
    decoder (levels + 4) r.toJson.reading = .ok r := by
  have hdevice := r.device.decoder_reading (levels + 3)
  have howner := r.owner.decoder_reading (levels + 3)
  have hprovider := r.provider.decoder_reading (levels + 3)
  have haccess := r.accessToken.decoder_reading (levels + 3)
  have hrefresh : Json.Decoder.optional Secret.decoder (levels + 3)
      (Json.optional Secret.toJson r.refreshToken).reading = .ok r.refreshToken :=
    Json.Decoder.optional_reading (fun s _ => s.decoder_reading _) fun s hs => nomatch hs
  have hissued := Instant.decoder_reading h.issuedAt (levels + 1)
  have hexpires : Json.Decoder.optional Instant.decoder (levels + 3)
      (Json.optional Instant.toJson r.expiresAt).reading = .ok r.expiresAt :=
    Json.Decoder.optional_reading (fun t ht => Instant.decoder_reading (h.expiresAt t ht) _)
      fun t ht => nomatch ht
  have hsignedOut : Json.Decoder.optional Instant.decoder (levels + 3)
      (Json.optional Instant.toJson r.signedOutAt).reading = .ok r.signedOutAt :=
    Json.Decoder.optional_reading (fun t ht => Instant.decoder_reading (h.signedOutAt t ht) _)
      fun t ht => nomatch ht
  refine (Json.Decoder.Shape.decoder_object (s := Members.ofRecord r) ?_).trans rfl
  simp only [List.map_cons, List.map_nil]
  rw [Json.Decoder.Shape.fromMembers_cons hdevice rfl rfl,
    Json.Decoder.Shape.fromMembers_cons howner rfl rfl,
    Json.Decoder.Shape.fromMembers_cons hprovider rfl rfl,
    Json.Decoder.Shape.fromMembers_cons haccess rfl rfl,
    Json.Decoder.Shape.fromMembers_cons hrefresh rfl rfl,
    Json.Decoder.Shape.fromMembers_cons hissued rfl rfl,
    Json.Decoder.Shape.fromMembers_cons hexpires rfl rfl,
    Json.Decoder.Shape.fromMembers_cons hsignedOut rfl rfl]
  rfl

structure Members.IsRepresentable (s : Members) : Prop where
  issuedAt : ∀ t, s.issuedAt = some t → t.IsRepresentable
  expiresAt : ∀ t, s.expiresAt = some (some t) → t.IsRepresentable
  signedOutAt : ∀ t, s.signedOutAt = some (some t) → t.IsRepresentable

theorem Members.isRepresentable_start : ({} : Members).IsRepresentable := ⟨nofun, nofun, nofun⟩

theorem isRepresentable_of_read {f : Json.Decoder.Field Members} (hf : f ∈ fields) {levels : Nat}
    {reading : Json.Reading} {s s' : Members} (hs : s.IsRepresentable)
    (h : f.read levels reading s = .ok s') : s'.IsRepresentable := by
  simp only [fields, List.mem_cons, List.not_mem_nil, or_false] at hf
  rcases hf with rfl | rfl | rfl | rfl | rfl | rfl | rfl | rfl <;>
    obtain ⟨a, ha, rfl⟩ := Except.map_ok h
  · exact ⟨hs.issuedAt, hs.expiresAt, hs.signedOutAt⟩
  · exact ⟨hs.issuedAt, hs.expiresAt, hs.signedOutAt⟩
  · exact ⟨hs.issuedAt, hs.expiresAt, hs.signedOutAt⟩
  · exact ⟨hs.issuedAt, hs.expiresAt, hs.signedOutAt⟩
  · exact ⟨hs.issuedAt, hs.expiresAt, hs.signedOutAt⟩
  · refine ⟨fun t ht => ?_, hs.expiresAt, hs.signedOutAt⟩
    exact Option.some.inj ht ▸ Instant.isRepresentable_of_decoder ha
  · refine ⟨hs.issuedAt, fun t ht => ?_, hs.signedOutAt⟩
    exact Instant.isRepresentable_of_decoder (Json.Decoder.optional_ok (Option.some.inj ht ▸ ha))
  · refine ⟨hs.issuedAt, hs.expiresAt, fun t ht => ?_⟩
    exact Instant.isRepresentable_of_decoder (Json.Decoder.optional_ok (Option.some.inj ht ▸ ha))

theorem isRepresentable_of_decoder {levels : Nat} {reading : Json.Reading} {r : Record}
    (h : decoder levels reading = .ok r) : r.IsRepresentable := by
  obtain ⟨s, hs, hfinish⟩ := Json.Decoder.Shape.decoder_ok
    (fun f hf levels reading s s' => isRepresentable_of_read hf)
    Members.isRepresentable_start h
  obtain ⟨device, -, hfinish⟩ := Except.bind_ok hfinish
  obtain ⟨owner, -, hfinish⟩ := Except.bind_ok hfinish
  obtain ⟨provider, -, hfinish⟩ := Except.bind_ok hfinish
  obtain ⟨accessToken, -, hfinish⟩ := Except.bind_ok hfinish
  obtain ⟨issuedAt, hissued, hfinish⟩ := Except.bind_ok hfinish
  cases hfinish
  refine ⟨hs.issuedAt _ (Json.Decoder.required_ok hissued), fun t ht => ?_, fun t ht => ?_⟩
  · refine hs.expiresAt t ?_
    cases hmember : s.expiresAt with
    | none => simp [hmember] at ht
    | some a => simpa [hmember] using ht
  · refine hs.signedOutAt t ?_
    cases hmember : s.signedOutAt with
    | none => simp [hmember] at ht
    | some a => simpa [hmember] using ht

/-- A session of a second in the first hour east, which ended before it began. -/
def sample : Record :=
  ⟨⟨"d", by decide⟩, ⟨"u", by decide⟩, ⟨"p", by decide⟩, ⟨"t"⟩, some ⟨"é\n"⟩, ⟨0, 3600⟩, none,
    some ⟨-1, -61⟩⟩

theorem isRepresentable_sample : sample.IsRepresentable := by
  refine ⟨⟨by decide, by decide, by decide⟩, nofun, fun t ht => ?_⟩
  cases ht
  exact ⟨by decide, by decide, by decide⟩

end Record

end DeviceAuth
