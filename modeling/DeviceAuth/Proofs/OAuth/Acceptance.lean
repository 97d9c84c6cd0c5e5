import DeviceAuth.Proofs.OAuth.Failure
import DeviceAuth.Proofs.Time.Instant

/-! Which lifetimes are accepted. The literal is read as an unsigned number within 64 bits, and what
is read has to be positive and to end within the calendar. -/
namespace DeviceAuth

namespace OAuth

open Json (Reading RawString RawNumber)

namespace TokenResponse

/-- The body is a token response with one lifetime, which is the literal; the rest without it is
what the response says otherwise. -/
structure Lasts (t : TokenResponse) (body : List UInt8) (literal : RawNumber) : Prop where
  split : ∃ before key after,
    (Json.read body).value = .object (before ++ (key, .number literal) :: after) none none ∧
    key.decode = .ok "expires_in" ∧
    (∀ m ∈ before ++ after, m.1.decode ≠ .ok "expires_in") ∧
    decoder Json.maxLevels (.object (before ++ after) none none) = .ok t

theorem Lasts.body_ne_nil {t : TokenResponse} {body : List UInt8} {literal : RawNumber}
    (h : t.Lasts body literal) : ¬body.isEmpty = true := by
  intro hnil
  obtain ⟨_, _, _, hbody, -⟩ := h.split
  rw [List.isEmpty_iff.mp hnil] at hbody
  cases hbody

variable {levels : Nat} {s s' : Members} {members : List (RawString × Reading)}

theorem fromMembers_lifetime {x : Option (Option Int)}
    (hother : ∀ m ∈ members, m.1.decode ≠ .ok "expires_in")
    (h : shape.fromMembers levels members s = .ok s') :
    shape.fromMembers levels members { s with lifetime := x } =
      .ok { s' with lifetime := x } := by
  have hignored : ∀ f ∈ shape.fields, (∃ m ∈ members, m.1.decode = .ok f.name) →
      f.Ignores fun s => { s with lifetime := x } := by
    rintro f hf ⟨m, hm, hname⟩
    have hne : f.name ≠ "expires_in" := fun h => hother m hm (h ▸ hname)
    simp only [shape, List.mem_cons, List.not_mem_nil, or_false] at hf
    rcases hf with rfl | rfl | rfl | rfl | rfl | rfl
    case inr.inr.inl => exact absurd rfl hne
    all_goals exact Json.Decoder.Field.ignores_of (fun _ => rfl) fun _ _ => rfl
  exact Json.Decoder.Shape.fromMembers_change hignored h

theorem lifetime_eq_none (hother : ∀ m ∈ members, m.1.decode ≠ .ok "expires_in")
    (hs : s.lifetime = none) (h : shape.fromMembers levels members s = .ok s') :
    s'.lifetime = none := by
  have hsame : { s with lifetime := none } = s := by rw [← hs]
  have hkept := fromMembers_lifetime (x := none) hother h
  rw [hsame, h] at hkept
  exact congrArg Members.lifetime (Except.ok.inj hkept)

def seconds : Json.Decoder Int := Json.Decoder.integer "u64" 0 (Decimal.naturalEnd 64 - 1)

def lifetimeField : Json.Decoder.Field Members :=
  .of "expires_in" (Json.Decoder.optional seconds) (·.lifetime) fun a s =>
    { s with lifetime := some a }

theorem read_lifetimeField (levels : Nat) (literal : RawNumber) (s : Members) :
    lifetimeField.read levels (.number literal) s =
      (seconds levels (.number literal)).map fun i => { s with lifetime := some (some i) } := by
  simp only [lifetimeField, Json.Decoder.Field.of, Json.Decoder.optional]
  cases seconds levels (.number literal) <;> rfl

theorem finish_lifetime {t : TokenResponse} (h : shape.finish s = .ok t) (i : Int) :
    shape.finish { s with lifetime := some (some i) } =
      .ok { t with lifetime := some i.toNat } := by
  obtain ⟨accessToken, haccess, h⟩ := Except.bind_ok h
  obtain ⟨tokenType, htype, h⟩ := Except.bind_ok h
  cases h
  simp only [shape, haccess, htype]
  rfl

/-- The response is read with the lifetime that is read from the literal, or not at all. -/
theorem decode_lasts {body : List UInt8} {literal : RawNumber} {t : TokenResponse}
    (h : t.Lasts body literal) :
    ∃ levels, Json.decodeFirst decoder body =
      Json.Decoder.within (.key "expires_in") (seconds levels (.number literal)) >>= fun i =>
        .ok { t with lifetime := some i.toNat } := by
  obtain ⟨before, key, after, hbody, hkey, hother, ht⟩ := h.split
  obtain ⟨hbefore, hafter⟩ := List.forall_mem_append.mp hother
  obtain ⟨s, hs, hfinish⟩ :=
    Except.bind_ok ((Json.Decoder.Shape.decoder_members (before ++ after)).symm.trans ht)
  rw [Json.Decoder.Shape.fromMembers_append] at hs
  obtain ⟨s₁, hs₁, hs⟩ := Except.bind_ok hs
  -- What stands before the literal sets no lifetime, and what stands behind it leaves it alone.
  have hunset : lifetimeField.isSet s₁ = false := by
    simp [lifetimeField, Json.Decoder.Field.of, lifetime_eq_none hbefore rfl hs₁]
  have hfield : shape.fields.find? (·.name = "expires_in") = some lifetimeField := rfl
  have hwhole : decoder Json.maxLevels
      (.object (before ++ (key, .number literal) :: after) none none) =
      shape.fromMembers 127 (before ++ (key, .number literal) :: after) shape.start >>=
        shape.finish := Json.Decoder.Shape.decoder_members _
  have hread : shape.fromMembers 127 ((key, .number literal) :: after) s₁ =
      Json.Decoder.within (.key "expires_in") (lifetimeField.read 127 (.number literal) s₁) >>=
        shape.fromMembers 127 after :=
    Json.Decoder.Shape.fromMembers_field hkey hfield hunset after
  have hfront : shape.fromMembers 127 before shape.start = .ok s₁ := hs₁
  refine ⟨127, ?_⟩
  rw [Json.decodeFirst, hbody, hwhole, Json.Decoder.Shape.fromMembers_append, hfront]
  simp only [bind, Except.bind] at hread ⊢
  rw [hread, read_lifetimeField]
  cases seconds 127 (.number literal) with
  | error e => rfl
  | ok i =>
    have hlast := fromMembers_lifetime (x := some (some i)) hafter hs
    simp only [Except.map, Json.Decoder.within]
    exact (congrArg (· >>= shape.finish) hlast).trans (finish_lifetime hfinish i)

end TokenResponse

namespace Client

/-- What a lifetime of so many seconds comes to at an instant. -/
def verdict (n : Int) (now : Instant) : Except Error (Option Span) :=
  if n ≤ 0 then .error (.config .nonPositiveExpiresIn)
  else if Instant.calendarEnd ≤ now.localNanos + n * Span.nanosPerSecond then
    .error (.config .expiresInOutOfRange)
  else .ok (some (.seconds n))

theorem verdict_of_large {n : Int} {now : Instant} (h : now.IsRepresentable)
    (hn : Decimal.signedEnd 64 ≤ n) : verdict n now = .error (.config .expiresInOutOfRange) := by
  have hlarge : Decimal.signedEnd 64 = 9223372036854775808 := rfl
  have hstart : Instant.calendarStart = -377705116800000000000 := rfl
  have hend : Instant.calendarEnd = 253402300800000000000 := rfl
  have hrange := (Instant.inRange_iff.mp h.1).1
  rw [verdict, if_neg (by omega), if_pos]
  simp only [Span.nanosPerSecond]
  omega

theorem lifetime?_eq_verdict {now : Instant} (h : now.IsRepresentable) (n : Nat) :
    lifetime? (some n) now = verdict n now := by
  unfold lifetime?
  by_cases hlarge : Decimal.signedEnd 64 ≤ n
  · rw [verdict_of_large h hlarge]
    exact if_pos hlarge
  have hiff := Instant.isNone_add?_iff h.1 (Int.natCast_nonneg n)
  dsimp only
  rw [if_neg hlarge, verdict]
  by_cases hzero : n = 0
  · rw [if_pos hzero, if_pos (by omega)]
  · rw [if_neg hzero, if_neg (show ¬(n : Int) ≤ 0 by omega)]
    simp only [hiff]

variable {c : Client} {grant : Grant} {call : Http.Call} {trace : Trace} {now : Instant}
  {r : Http.Response}

theorem map_accept (t : TokenResponse) (now : Instant) :
    (accept t now).map (·.lifetime) = lifetime? t.lifetime now := by
  rw [accept]
  cases lifetime? t.lifetime now <;> rfl

theorem unreadable_ne_config (c : Client) (type : GrantType) (cause : Json.Error)
    (r : Http.Response) (now : Instant) (e : ConfigError) :
    c.unreadable type cause r now ≠ .config e := by
  unfold unreadable
  dsimp only
  generalize c.strategy _ = kind
  cases kind <;> exact nofun

theorem ofResponse_eq_ofBody (hstatus : r.status = 200)
    (hannounced : ∀ value, r.headers.get? "content-type" = some value →
      announcesJson value = true) (type : GrantType) :
    c.ofResponse type r now = ofResponse.ofBody c type r now := by
  rw [ofResponse, if_neg (not_not_intro hstatus)]
  split
  · rename_i value hvalue
    exact if_pos (hannounced value hvalue)
  · rfl

theorem verdict_isError {n : Int} (h : now.IsRepresentable)
    (hn : n ≤ 0 ∨ Decimal.signedEnd 64 ≤ n) : ∃ e, verdict n now = .error (.config e) := by
  rcases hn with hn | hn
  · exact ⟨_, if_pos hn⟩
  · exact ⟨_, verdict_of_large h hn⟩

/-- A lifetime is judged by its value exactly if it has no sign and fits into 64 bits; the body
around any other is taken for one that cannot be read. -/
theorem lifetime_eq_verdict_iff {result : Except Error Tokens} {negative : Bool} {ds : List Nat}
    {m : Nat} {t : TokenResponse} (hcall : c.call grant = .ok call)
    (h : (c.request grant).Yields trace result) (hanswer : trace.Returns call (.answered r))
    (hrepr : ∀ now ∈ trace.readings, now.IsRepresentable) (hstatus : r.status = 200)
    (hannounced : ∀ value, r.headers.get? "content-type" = some value →
      announcesJson value = true)
    (hbody : t.Lasts r.body ⟨RawNumber.signed negative ds, none⟩) (hdigits : Json.Spells ds m) :
    trace.calls = [call] ∧ ∃ now, trace.readings = [now] ∧
      (result.map (·.lifetime) = verdict (if negative then -m else m) now ↔
        negative = false ∧ m < 2 ^ 64) ∧
      (¬(negative = false ∧ m < 2 ^ 64) →
        ∃ cause, result = .error (c.unreadable grant.type cause r now)) := by
  obtain ⟨hcalls, now, hreadings, hresult⟩ := request_of_returns h hcall hanswer
  replace hrepr : now.IsRepresentable := hrepr now (by simp [hreadings])
  obtain ⟨levels, hread⟩ := TokenResponse.decode_lasts hbody
  have hliteral {i : Int} : TokenResponse.seconds levels
      (.number ⟨RawNumber.signed negative ds, none⟩) = .ok i ↔
        negative = false ∧ m ≤ RawNumber.maxNatural ∧ i = m :=
    Json.Decoder.integer_signed_iff hdigits
  have hfits : m < 2 ^ 64 ↔ m ≤ RawNumber.maxNatural := Nat.lt_iff_le_pred (by decide)
  refine ⟨hcalls, now, hreadings, ?_⟩
  rw [hresult, ofDelivery, ofResponse_eq_ofBody hstatus hannounced, ofResponse.ofBody,
    if_neg hbody.body_ne_nil]
  by_cases hexact : negative = false ∧ m < 2 ^ 64
  · obtain ⟨rfl, hm⟩ := hexact
    rw [hliteral.mpr ⟨rfl, hfits.mp hm, rfl⟩] at hread
    refine ⟨iff_of_true ?_ ⟨rfl, hm⟩, fun hnot => absurd ⟨rfl, hm⟩ hnot⟩
    rw [hread]
    exact (map_accept _ now).trans (lifetime?_eq_verdict hrepr m)
  · have hjudged : ∃ e, verdict (if negative then -m else m) now = .error (.config e) := by
      refine verdict_isError hrepr ?_
      cases negative with
      | true => exact .inl (by simp)
      | false =>
        have hend : Decimal.signedEnd 64 ≤ 2 ^ 64 := by decide
        have hm : 2 ^ 64 ≤ m := by simpa using hexact
        exact .inr (le_trans hend (Int.ofNat_le.mpr hm))
    obtain ⟨e, he⟩ := hjudged
    cases hnumber : TokenResponse.seconds levels
        (.number ⟨RawNumber.signed negative ds, none⟩) with
    | ok i =>
      obtain ⟨hsign, hm, -⟩ := hliteral.mp hnumber
      exact absurd ⟨hsign, hfits.mpr hm⟩ hexact
    | error cause =>
      rw [hnumber] at hread
      rw [hread, he]
      refine ⟨iff_of_false (fun heq => ?_) hexact, fun _ => ⟨_, rfl⟩⟩
      exact unreadable_ne_config c _ _ r now e (Except.error.inj heq)

def sampleTokens (lifetime : String) : Http.Response :=
  ⟨200, ⟨[]⟩, Text.utf8
    ("\x7b\"access_token\":\"a\",\"token_type\":\"bearer\",\"expires_in\":" ++ lifetime ++ "\x7d")⟩

def sampleReading (literal : RawNumber) : Reading :=
  .object ([(.ofString "access_token", .string (.ofString "a")),
    (.ofString "token_type", .string (.ofString "bearer"))] ++
    [(.ofString "expires_in", .number literal)]) none none

theorem lasts_sampleTokens {lifetime : String} {literal : RawNumber}
    (hread : (Json.read (sampleTokens lifetime).body).value = sampleReading literal) :
    (⟨"a", "bearer", none, none, none, none⟩ : TokenResponse).Lasts (sampleTokens lifetime).body
      literal :=
  ⟨_, _, [], hread, Json.RawString.decode_ofString _, by simp, rfl⟩

/-- On the last day of the calendar, tokens may last up to its last second. -/
theorem lifetime_eq_verdict_last_day :
    let w (lifetime : String) : World :=
      { sampleWorld (sampleTokens lifetime) with clock := ⟨253402214400000000000, 0⟩ }
    let request := sample.request .clientCredentials
    ((w "86399").runCommand request).1.map (·.lifetime) = .ok (some (.seconds 86399)) ∧
      ((w "86400").runCommand request).1.map (·.lifetime) =
        .error (.config .expiresInOutOfRange) := by
  intro w request
  have hclock : (w "0").clock.IsRepresentable := ⟨by decide, by decide, by decide⟩
  have hjudged {lifetime : String} {ds : List Nat} {m : Nat} (hdigits : Json.Spells ds m)
      (hm : m < 2 ^ 64) (hread : (Json.read (sampleTokens lifetime).body).value =
        sampleReading ⟨RawNumber.signed false ds, none⟩) :
      ((w lifetime).runCommand request).1.map (·.lifetime) = verdict m (w lifetime).clock := by
    obtain ⟨-, now, hreadings, hiff, -⟩ := lifetime_eq_verdict_iff (c := sample) rfl
      (Command.yields_runCommand (w lifetime) request) ((w lifetime).returns_trace _ _)
      (fun now hnow => (w lifetime).isStill_trace _ now hnow ▸ hclock)
      rfl nofun (lasts_sampleTokens hread) hdigits
    cases hreadings
    exact hiff.mpr ⟨rfl, hm⟩
  have hlast : Json.Spells [8, 6, 3, 9, 9] 86399 :=
    ⟨by decide, rfl, .inr ⟨8, _, rfl, by decide⟩⟩
  have hnext : Json.Spells [8, 6, 4, 0, 0] 86400 :=
    ⟨by decide, rfl, .inr ⟨8, _, rfl, by decide⟩⟩
  exact ⟨hjudged hlast (by decide) rfl, hjudged hnext (by decide) rfl⟩

/-- A negative lifetime makes the body unreadable, and the failure one that may pass. -/
theorem lifetime_ne_verdict_negative :
    (∃ t : TokenResponse, t.Lasts (sampleTokens "-1").body ⟨RawNumber.signed true [1], none⟩) ∧
      Json.Spells [1] 1 ∧ verdict (-1) ⟨0, 0⟩ = .error (.config .nonPositiveExpiresIn) ∧
      ∃ e, ((sampleWorld (sampleTokens "-1")).runCommand
        (sample.request (.refreshToken "r"))).1 = .error e ∧ e.kind = .transient := by
  have hdigits : Json.Spells [1] 1 := ⟨by decide, rfl, .inr ⟨1, [], rfl, by decide⟩⟩
  exact ⟨⟨_, lasts_sampleTokens rfl⟩, hdigits, rfl, _, rfl, rfl⟩

end Client

end OAuth

end DeviceAuth
