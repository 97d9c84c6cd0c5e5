import DeviceAuth.OAuth.Client
import DeviceAuth.Proofs.Json.Value
import Mathlib.Data.List.Nodup

/-! One error body, answered in two ways. With the status of a failure its code is looked up among
all codes; with the status of a success only its text is searched, for fewer words and in another
order. Both come to the same kind exactly if the text shows the kind of the code. -/
namespace DeviceAuth.OAuth

namespace RefusalKind

/-- The place of a kind in the order in which a text is searched. -/
def rank : RefusalKind → Nat
  | .invalidGrant => 0
  | .invalidClient => 1
  | .insufficientScope => 2
  | .revoked => 3
  | .transient => 4

theorem eq_of_rank_eq {kind kind' : RefusalKind} (h : kind.rank = kind'.rank) : kind = kind' := by
  cases kind <;> cases kind' <;> first | rfl | cases h

theorem rank_le_transient (kind : RefusalKind) : kind.rank ≤ transient.rank := by
  cases kind <;> decide

def errorKind : RefusalKind → Error.Kind
  | .invalidGrant => .invalidGrant
  | .invalidClient => .invalidClient
  | .insufficientScope => .insufficientScope
  | .revoked => .revoked
  | .transient => .transient

theorem errorKind_inj {kind kind' : RefusalKind} :
    kind.errorKind = kind'.errorKind ↔ kind = kind' := by
  cases kind <;> cases kind' <;> simp [errorKind]

theorem kind_toError (kind : RefusalKind) (reason : String) (status : Option Nat)
    (retryAfter : Option Span) : (kind.toError reason status retryAfter).kind = kind.errorKind := by
  cases kind <;> rfl

end RefusalKind

namespace Strategy

/-- The text holds a word for the kind, in any case. -/
def Mentions (text : String) (kind : RefusalKind) : Prop :=
  ∃ word, (word, kind) ∈ words ∧ Text.contains (Text.lower text) word = true

/-- The text mentions the kind, unless it is the one that is taken for want of others, and mentions
none that is looked for before it. -/
structure Shows (text : String) (kind : RefusalKind) : Prop where
  mentions : kind = .transient ∨ Mentions text kind
  first : ∀ other : RefusalKind, other.rank < kind.rank → ¬Mentions text other

theorem Shows.unique {text : String} {kind kind' : RefusalKind} (h : Shows text kind)
    (h' : Shows text kind') : kind = kind' := by
  have hle {kind kind' : RefusalKind} (h : Shows text kind) (h' : Shows text kind') :
      kind'.rank ≤ kind.rank := by
    by_contra hlt
    rcases h.mentions with rfl | hmentions
    · exact hlt kind'.rank_le_transient
    · exact h'.first kind (Nat.lt_of_not_le hlt) hmentions
  exact RefusalKind.eq_of_rank_eq (Nat.le_antisymm (hle h' h) (hle h h'))

theorem ofText_eq (text : String) :
    ofText text = (words.find? fun entry => Text.contains (Text.lower text) entry.1).map (·.2) :=
  rfl

theorem pairwise_words : words.Pairwise fun a b => a.2.rank ≤ b.2.rank := by
  decide

theorem not_mentions_of_rank_lt {text word : String} {kind other : RefusalKind}
    {before after : List (String × RefusalKind)} (hwords : words = before ++ (word, kind) :: after)
    (hbefore : ∀ entry ∈ before, Text.contains (Text.lower text) entry.1 = false)
    (hother : other.rank < kind.rank) : ¬Mentions text other := by
  rintro ⟨word', hword', hcontains⟩
  have hordered := pairwise_words
  rw [hwords] at hword' hordered
  rcases List.mem_append.mp hword' with hmem | hmem
  · rw [hbefore _ hmem] at hcontains
    cases hcontains
  · rcases List.mem_cons.mp hmem with heq | hmem
    · cases heq
      exact Nat.lt_irrefl _ hother
    · have hafter := (List.pairwise_cons.mp (List.pairwise_append.mp hordered).2.1).1 _ hmem
      exact Nat.not_lt_of_le hafter hother

theorem shows_ofText (text : String) : Shows text ((ofText text).getD .transient) := by
  rw [ofText_eq]
  cases hfound : words.find? fun entry => Text.contains (Text.lower text) entry.1 with
  | none =>
    refine ⟨.inl rfl, fun other _ => ?_⟩
    rintro ⟨word, hword, hcontains⟩
    exact List.find?_eq_none.mp hfound (word, other) hword hcontains
  | some entry =>
    obtain ⟨word, kind⟩ := entry
    obtain ⟨hcontains, before, after, hwords, hbefore⟩ :=
      List.find?_eq_some_iff_append.mp hfound
    refine ⟨.inr ⟨word, List.mem_of_find?_eq_some hfound, hcontains⟩, fun other hother => ?_⟩
    exact not_mentions_of_rank_lt hwords (fun entry h => by simpa using hbefore entry h) hother

theorem getD_ofText_eq_iff {text : String} {kind : RefusalKind} :
    (ofText text).getD .transient = kind ↔ Shows text kind := by
  constructor
  · rintro rfl
    exact shows_ofText text
  · exact (shows_ofText text).unique

end Strategy

open Json (Reading RawString)
open Json.Decoder (SpellsMember)

def IsOptionalText (v : Json) : Prop := v = .null ∨ ∃ text, v = .string text

/-- The members of an error body: the code, perhaps a description and a URI, and whatever else does
not pass for tokens. -/
structure IsErrorBody (ms : List (String × Json)) (code : String) : Prop where
  distinct : (ms.map (·.1)).Nodup
  code : ("error", .string code) ∈ ms
  optional : ∀ m ∈ ms, m.1 = "error_description" ∨ m.1 = "error_uri" → IsOptionalText m.2
  noToken : ∀ m ∈ ms, m.1 ≠ "access_token"

theorem IsErrorBody.eq_code {ms : List (String × Json)} {code : String} (h : IsErrorBody ms code)
    {m : String × Json} (hm : m ∈ ms) (hname : m.1 = "error") : m.2 = .string code := by
  have hsame := List.inj_on_of_nodup_map h.distinct hm h.code hname
  rw [hsame]

theorem IsOptionalText.exists_ok {levels : Nat} {r : Reading} {v : Json} (hv : IsOptionalText v)
    (h : Json.Decoder.Spells levels r v) :
    ∃ text, Json.Decoder.optional Json.Decoder.string levels r = .ok text := by
  rcases hv with rfl | ⟨text, rfl⟩
  · cases h
    exact ⟨none, rfl⟩
  · have hstring := h.string_eq
    cases h with
    | string hdecode => exact ⟨some text, congrArg (Except.map some) hstring⟩

namespace ErrorResponse

/-- What is read so far leaves room for the members to come, and the code is among these or those.
-/
structure Awaits (code : String) (ms : List (String × Json)) (s : Members) : Prop where
  distinct : (ms.map (·.1)).Nodup
  error : ∀ m ∈ ms, m.1 = "error" → m.2 = .string code ∧ s.code = none
  description : ∀ m ∈ ms, m.1 = "error_description" → IsOptionalText m.2 ∧ s.description = none
  uri : ∀ m ∈ ms, m.1 = "error_uri" → IsOptionalText m.2 ∧ s.uri = none
  found : (∃ m ∈ ms, m.1 = "error") ∨ s.code = some code

variable {levels : Nat} {code : String} {m : RawString × Reading} {member : String × Json}
  {rest : List (String × Json)} {s : Members}

open Json.Decoder.Shape in
theorem Awaits.step (hm : SpellsMember levels m member) (h : Awaits code (member :: rest) s) :
    ∃ s', (∀ tail, shape.fromMembers levels (m :: tail) s = shape.fromMembers levels tail s') ∧
      Awaits code rest s' := by
  obtain ⟨k, r⟩ := m
  obtain ⟨key, v⟩ := member
  obtain ⟨hkey, hvalue⟩ := hm
  have hspells := Json.Decoder.spells_of_value_ok hvalue
  obtain ⟨hnew, hdistinct⟩ := List.nodup_cons.mp h.distinct
  obtain ⟨herror, herrors⟩ := List.forall_mem_cons.mp h.error
  obtain ⟨hdescription, hdescriptions⟩ := List.forall_mem_cons.mp h.description
  obtain ⟨huri, huris⟩ := List.forall_mem_cons.mp h.uri
  have hlast {P : String × Json → Prop} : ∀ m' ∈ rest, m'.1 = key → P m' := by
    intro m' hm' hsame
    exact absurd (List.mem_map.mpr ⟨m', hm', hsame⟩) hnew
  by_cases hname : key = "error"
  · subst hname
    obtain ⟨rfl, hset⟩ := herror rfl
    refine ⟨{ s with code := some code }, fromMembers_known hkey rfl
      (congrArg Option.isSome hset) (congrArg (Except.map _) hspells.string_eq), ?_⟩
    exact ⟨hdistinct, hlast, hdescriptions, huris, .inr rfl⟩
  have hfound : (∃ m ∈ rest, m.1 = "error") ∨ s.code = some code := by
    simpa [hname] using h.found
  by_cases hname' : key = "error_description"
  · subst hname'
    obtain ⟨htext, hset⟩ := hdescription rfl
    obtain ⟨text, hread⟩ := htext.exists_ok hspells
    refine ⟨{ s with description := some text }, fromMembers_known hkey rfl
      (congrArg Option.isSome hset) (congrArg (Except.map _) hread), ?_⟩
    exact ⟨hdistinct, herrors, hlast, huris, hfound⟩
  by_cases hname'' : key = "error_uri"
  · subst hname''
    obtain ⟨htext, hset⟩ := huri rfl
    obtain ⟨text, hread⟩ := htext.exists_ok hspells
    refine ⟨{ s with uri := some text }, fromMembers_known hkey rfl
      (congrArg Option.isSome hset) (congrArg (Except.map _) hread), ?_⟩
    exact ⟨hdistinct, herrors, hdescriptions, hlast, hfound⟩
  · have hskip : shape.other levels r = .ok () := by
      show Json.Decoder.stopAt r.fault? = .ok ()
      rw [hspells.fault?]
      rfl
    have hfield : shape.fields.find? (·.name = key) = none := by
      simp [shape, Json.Decoder.Field.of, Ne.symm hname, Ne.symm hname', Ne.symm hname'']
    refine ⟨s, fromMembers_other hkey hfield hskip, ?_⟩
    exact ⟨hdistinct, herrors, hdescriptions, huris, hfound⟩

theorem exists_decodeFirst {body : List UInt8} {ms : List (String × Json)}
    (hbody : Json.decode Json.Decoder.value body = .ok (.object ms)) (h : IsErrorBody ms code) :
    ∃ e : ErrorResponse, Json.decodeFirst decoder body = .ok e ∧ e.code = code := by
  obtain ⟨members, hread, hmembers⟩ := Json.exists_members_of_decode hbody
  have hstart : Awaits code ms shape.start :=
    ⟨h.distinct, fun m hm hname => ⟨h.eq_code hm hname, rfl⟩,
      fun m hm hname => ⟨h.optional m hm (.inl hname), rfl⟩,
      fun m hm hname => ⟨h.optional m hm (.inr hname), rfl⟩, .inl ⟨_, h.code, rfl⟩⟩
  obtain ⟨s, hs, hend⟩ := Json.Decoder.Shape.exists_fromMembers (P := Awaits code)
    (fun _ _ _ _ hm hawaits => hawaits.step hm) hmembers hstart
  have hcode : s.code = some code := by simpa using hend.found
  refine ⟨⟨code, s.description.getD none, s.uri.getD none⟩, ?_, rfl⟩
  have hfinish : shape.finish s = .ok ⟨code, s.description.getD none, s.uri.getD none⟩ := by
    simp only [shape, hcode, Json.Decoder.required]
    rfl
  exact (congrArg (decoder Json.maxLevels) hread).trans
    ((Json.Decoder.Shape.decoder_members members).trans
      ((congrArg (· >>= shape.finish) hs).trans hfinish))

end ErrorResponse

/-- Without an access token there is no token response. -/
theorem exists_decodeFirst_tokenResponse {body : List UInt8} {ms : List (String × Json)}
    (hbody : Json.decode Json.Decoder.value body = .ok (.object ms))
    (hnoToken : ∀ m ∈ ms, m.1 ≠ "access_token") :
    ∃ cause, Json.decodeFirst TokenResponse.decoder body = .error cause := by
  obtain ⟨members, hread, hmembers⟩ := Json.exists_members_of_decode hbody
  cases hdecode : Json.decodeFirst TokenResponse.decoder body with
  | error cause => exact ⟨cause, rfl⟩
  | ok t =>
    have hobject := hdecode
    rw [Json.decodeFirst, hread] at hobject
    obtain ⟨s, hs, hfinish⟩ := Except.bind_ok
      ((Json.Decoder.Shape.decoder_members members).symm.trans hobject)
    have hmissing : s.accessToken = none := by
      refine Json.Decoder.Shape.fromMembers_named_ok (P := fun s => s.accessToken = none)
        (fun f hf hnamed levels r s s' hs hread => ?_) rfl hs
      obtain ⟨m, hm, hname⟩ := hnamed
      obtain ⟨member, hmember, hkey, -⟩ := Json.Decoder.SpellsMember.exists_mem hmembers hm
      have hother : f.name ≠ "access_token" :=
        Except.ok.inj (hkey.symm.trans hname) ▸ hnoToken member hmember
      simp only [TokenResponse.shape, List.mem_cons, List.not_mem_nil, or_false] at hf
      rcases hf with rfl | rfl | rfl | rfl | rfl | rfl
      · exact absurd rfl hother
      all_goals
        obtain ⟨a, -, rfl⟩ := Except.map_ok hread
        exact hs
    obtain ⟨accessToken, haccess, -⟩ := Except.bind_ok hfinish
    rw [hmissing] at haccess
    cases haccess

namespace Client

variable {c : Client}

theorem kind_refused (hstrategy : c.strategy = Strategy.default) {e : ErrorResponse}
    {kind : RefusalKind} (hcode : Strategy.ofCode e.code = some kind) (grant : GrantType)
    (r : Http.Response) (now : Instant) : (c.refused grant e r now).kind = kind.errorKind := by
  rw [refused, RefusalKind.kind_toError, hstrategy]
  simp [Strategy.default, hcode]

theorem kind_unreadable (hstrategy : c.strategy = Strategy.default) (grant : GrantType)
    (cause : Json.Error) (r : Http.Response) (now : Instant) :
    (c.unreadable grant cause r now).kind =
      ((Strategy.ofText (preview (Text.ofUtf8Lossy r.body))).getD
        (Strategy.ofStatus (some r.status))).errorKind := by
  have hkind : c.strategy ⟨grant, some r.status, none, none,
      some (preview (Text.ofUtf8Lossy r.body))⟩ =
        (Strategy.ofText (preview (Text.ofUtf8Lossy r.body))).getD
          (Strategy.ofStatus (some r.status)) := by
    rw [hstrategy]
    simp [Strategy.default]
  rw [unreadable, hkind]
  generalize (Strategy.ofText (preview (Text.ofUtf8Lossy r.body))).getD
    (Strategy.ofStatus (some r.status)) = kind
  cases kind <;> rfl

/-- An error body with a code that is known is taken for the same kind with either status exactly if
its text shows the kind. -/
theorem kind_eq_iff_shows (hstrategy : c.strategy = Strategy.default) (grant : GrantType)
    (now now' : Instant) {failed succeeded : Http.Response} {ms : List (String × Json)}
    {code : String} {kind : RefusalKind} (hfailed : failed.status ≠ 200)
    (hsucceeded : succeeded.status = 200) (hsame : failed.body = succeeded.body)
    (hannounced : ∀ value, succeeded.headers.get? "content-type" = some value →
      announcesJson value = true)
    (hbody : Json.decode Json.Decoder.value failed.body = .ok (.object ms))
    (hrefusal : IsErrorBody ms code) (hcode : Strategy.ofCode code = some kind) :
    ∃ e e', c.ofDelivery grant (.answered failed) now = .error e ∧
      c.ofDelivery grant (.answered succeeded) now' = .error e' ∧ e.kind = kind.errorKind ∧
      (e'.kind = e.kind ↔ Strategy.Shows (preview (Text.ofUtf8Lossy failed.body)) kind) := by
  obtain ⟨e, hread, rfl⟩ := ErrorResponse.exists_decodeFirst hbody hrefusal
  obtain ⟨cause, hunread⟩ := exists_decodeFirst_tokenResponse hbody hrefusal.noToken
  have hsome : failed.body.isEmpty = false := by
    cases hempty : failed.body with
    | nil => rw [hempty] at hbody; cases hbody
    | cons b rest => rfl
  have hleft : c.ofDelivery grant (.answered failed) now =
      .error (c.refused grant e failed now) := by
    simp [ofDelivery, ofResponse, hfailed, hsome, hread]
  have hright : c.ofDelivery grant (.answered succeeded) now' =
      .error (c.unreadable grant cause succeeded now') := by
    have hofBody : ofResponse.ofBody c grant succeeded now' =
        .error (c.unreadable grant cause succeeded now') := by
      simp [ofResponse.ofBody, ← hsame, hsome, hunread]
    rw [ofDelivery, ofResponse, if_neg (not_not_intro hsucceeded)]
    split
    · rename_i value hvalue
      rw [if_pos (hannounced value hvalue), hofBody]
    · exact hofBody
  refine ⟨_, _, hleft, hright, kind_refused hstrategy hcode grant failed now, ?_⟩
  rw [kind_refused hstrategy hcode, kind_unreadable hstrategy, hsucceeded, ← hsame,
    RefusalKind.errorKind_inj]
  exact Strategy.getD_ofText_eq_iff

def sample : Client :=
  ⟨.empty, ⟨"http", "", "", none, none, .segments [], none, none⟩, .default⟩

def sampleResponse (status : Nat) (code : String) : Http.Response :=
  ⟨status, ⟨[]⟩, Text.utf8 ("\x7b\"error\":\"" ++ code ++ "\"\x7d")⟩

/-- A code in capitals is told by the text as well. -/
theorem kind_eq_bad_refresh_token :
    ∃ e e', sample.ofDelivery .refreshToken (.answered (sampleResponse 400 "BAD_REFRESH_TOKEN"))
        ⟨0, 0⟩ = .error e ∧
      sample.ofDelivery .refreshToken (.answered (sampleResponse 200 "BAD_REFRESH_TOKEN"))
        ⟨0, 0⟩ = .error e' ∧ e.kind = .invalidGrant ∧ e'.kind = e.kind := by
  let failed := sampleResponse 400 "BAD_REFRESH_TOKEN"
  let succeeded := sampleResponse 200 "BAD_REFRESH_TOKEN"
  have hcontains : Text.contains (Text.lower (preview (Text.ofUtf8Lossy failed.body)))
      "bad_refresh_token" = true := by decide
  have hmentions : Strategy.Mentions (preview (Text.ofUtf8Lossy failed.body)) .invalidGrant :=
    ⟨"bad_refresh_token", by decide, hcontains⟩
  have hbody : Json.decode Json.Decoder.value failed.body =
      .ok (.object [("error", .string "BAD_REFRESH_TOKEN")]) := rfl
  have hcode : Strategy.ofCode "BAD_REFRESH_TOKEN" = some .invalidGrant := by decide
  have hfailed : failed.status ≠ 200 := by decide
  have hsucceeded : succeeded.status = 200 := rfl
  obtain ⟨e, e', he, he', hkind, hsame⟩ := kind_eq_iff_shows (c := sample) rfl .refreshToken
    ⟨0, 0⟩ ⟨0, 0⟩ hfailed hsucceeded rfl nofun hbody
    ⟨by simp, List.mem_singleton_self _, by simp, by simp⟩ hcode
  refine ⟨e, e', he, he', hkind, hsame.mpr ⟨.inr hmentions, fun other hother => ?_⟩⟩
  exact absurd hother (Nat.not_lt_zero _)

/-- A code that no text is searched for is a client's fault with one status, and may pass with the
other. -/
theorem kind_ne_incorrect_client_credentials :
    Json.decode Json.Decoder.value (sampleResponse 200 "incorrect_client_credentials").body =
        .ok (.object [("error", .string "incorrect_client_credentials")]) ∧
      Strategy.ofCode "incorrect_client_credentials" = some .invalidClient ∧
      ∃ e e', sample.ofDelivery .authorizationCode
          (.answered (sampleResponse 400 "incorrect_client_credentials")) ⟨0, 0⟩ = .error e ∧
        sample.ofDelivery .authorizationCode
          (.answered (sampleResponse 200 "incorrect_client_credentials")) ⟨0, 0⟩ = .error e' ∧
        e.kind = .invalidClient ∧ e'.kind = .transient :=
  ⟨rfl, by decide, _, _, rfl, rfl, rfl, rfl⟩

end Client

end DeviceAuth.OAuth
