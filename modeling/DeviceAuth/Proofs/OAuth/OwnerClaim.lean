import DeviceAuth.Proofs.Encoding.Base64
import DeviceAuth.Proofs.OAuth.Refusal

/-! The owner of a device: of the members of a payload that have the name of the claim the last one
decides, and the payload is found in a token whatever stands around it. -/
namespace DeviceAuth

theorem Json.decode_members {text : List UInt8} {ms : List (String × Json)}
    (h : decode Decoder.value text = .ok (.object ms)) : decode Decoder.members text = .ok ms := by
  obtain ⟨members, hread, -⟩ := exists_members_of_decode h
  obtain ⟨v, hvalue, hend⟩ := Except.bind_ok h
  rw [hread] at hvalue
  rw [decode, hread]
  simp only [Decoder.members, hvalue, bind, Except.bind]
  cases htrailing : (read text).trailing with
  | true =>
    rw [htrailing] at hend
    cases hend
  | false =>
    rw [htrailing] at hend
    cases hend
    rfl

namespace OAuth

namespace OwnerClaim

open Encoding

variable {ms : List (String × Json)} {claim : String}

def body (payload : String) (padding : Nat) : List Char :=
  Base64.urlSafe.encode (Text.utf8 payload) ++ List.replicate padding '='

def compact (header payload : String) (padding : Nat) (signature : String) : String :=
  header ++ "." ++ String.ofList (body payload padding) ++ "." ++ signature

theorem dot_not_mem_body (payload : String) (padding : Nat) : '.' ∉ body payload padding := by
  intro h
  rcases List.mem_append.mp h with h | h
  · exact (Base64.ne_of_mem_encode h).2 rfl
  · exact absurd (List.eq_of_mem_replicate h) (by decide)

theorem trimmed_body (payload : String) (padding : Nat) :
    ((body payload padding).reverse.dropWhile (· = '=')).reverse =
      Base64.urlSafe.encode (Text.utf8 payload) := by
  have hpadding : ∀ c ∈ List.replicate padding '=', decide (c = '=') = true := fun c hc =>
    decide_eq_true (List.eq_of_mem_replicate hc)
  have hdigits : (Base64.urlSafe.encode (Text.utf8 payload)).reverse.dropWhile (· = '=') =
      (Base64.urlSafe.encode (Text.utf8 payload)).reverse := by
    refine List.dropWhile_eq_self_iff.mpr fun hlength => ?_
    have hmem := List.mem_reverse.mp (List.getElem_mem hlength)
    simpa using (Base64.ne_of_mem_encode hmem).1
  rw [body, List.reverse_append, List.reverse_replicate, List.dropWhile_append_of_pos hpadding,
    hdigits, List.reverse_reverse]

theorem parts_compact {header signature : String} (hheader : '.' ∉ header.toList)
    (hsignature : '.' ∉ signature.toList) (payload : String) (padding : Nat) :
    parts (compact header payload padding signature) =
      [header.toList, body payload padding, signature.toList] := by
  have hwhole {cs : List Char} (h : '.' ∉ cs) : cs.splitOnP (· = '.') = [cs] :=
    List.splitOnP_eq_singleton fun c hc => decide_eq_false fun hdot => h (hdot ▸ hc)
  have hdot : ".".toList = ['.'] := rfl
  simp only [parts, compact, String.toList_append, String.toList_ofList, hdot, List.append_assoc,
    List.cons_append, List.nil_append]
  rw [List.splitOnP_append_cons _ _ (by decide), List.splitOnP_append_cons _ _ (by decide),
    hwhole hheader, hwhole (dot_not_mem_body payload padding), hwhole hsignature]
  rfl

theorem utf8_ne_nil_of_decode {text : String}
    (h : Json.decode Json.Decoder.value (Text.utf8 text) = .ok (.object ms)) :
    Text.utf8 text ≠ [] := by
  intro hnil
  rw [hnil] at h
  cases h

theorem payload_compact {header signature text : String} (hheader : header ≠ "")
    (hdots : '.' ∉ header.toList ∧ '.' ∉ signature.toList)
    (hobject : Json.decode Json.Decoder.value (Text.utf8 text) = .ok (.object ms)) (padding : Nat) :
    payload (compact header text padding signature) = .ok ms := by
  have hdigits : body text padding ≠ [] := fun h =>
    Base64.encode_ne_nil (utf8_ne_nil_of_decode hobject) _ (List.append_eq_nil_iff.mp h).1
  have hshape : ¬(header.toList.isEmpty ∨ (body text padding).isEmpty) := by
    simpa [hdigits] using hheader
  rw [payload, parts_compact hdots.1 hdots.2]
  simp only [if_neg hshape, trimmed_body, Base64.decode?_encode, Json.decode_members hobject]

theorem lastMember?_eq_some_iff {v : Json} :
    lastMember? ms claim = some v ↔
      ∃ before after, ms = before ++ (claim, v) :: after ∧ ∀ m ∈ after, m.1 ≠ claim := by
  constructor
  · intro h
    obtain ⟨⟨name, v⟩, hfind, rfl⟩ := Option.map_eq_some_iff.mp h
    obtain ⟨hname, later, earlier, hsplit, hlater⟩ := List.find?_eq_some_iff_append.mp hfind
    obtain rfl : name = claim := of_decide_eq_true hname
    refine ⟨earlier.reverse, later.reverse, ?_, fun m hm => ?_⟩
    · rw [← List.reverse_reverse ms, hsplit]
      simp
    · simpa using hlater m (List.mem_reverse.mp hm)
  · rintro ⟨before, after, rfl, hafter⟩
    refine Option.map_eq_some_iff.mpr ⟨(claim, v), ?_, rfl⟩
    refine List.find?_eq_some_iff_append.mpr
      ⟨decide_eq_true rfl, after.reverse, before.reverse, by simp, fun m hm => ?_⟩
    simpa using hafter m (List.mem_reverse.mp hm)

theorem text_eq_ok_iff {found : Option Json} {s : String} :
    text claim found = .ok s ↔
      ∃ v, found = some v ∧ (v = .string s ∨ ∃ n, v = .number n ∧ n.text = s) := by
  cases found with
  | none => simp [text]
  | some v => cases v <;> simp [text]

/-- The last member of the name is a text, or a number whose text is taken, and that is the user's.
-/
def Names (ms : List (String × Json)) (claim : String) (u : UserId) : Prop :=
  ∃ before v after, ms = before ++ (claim, v) :: after ∧ (∀ m ∈ after, m.1 ≠ claim) ∧
    (v = .string u.text ∨ ∃ n, v = .number n ∧ n.text = u.text)

theorem text_eq_ok_iff_names {u : UserId} :
    text claim (lastMember? ms claim) = .ok u.text ↔ Names ms claim u := by
  rw [text_eq_ok_iff]
  constructor
  · rintro ⟨v, hlast, hv⟩
    obtain ⟨before, after, hsplit, hafter⟩ := lastMember?_eq_some_iff.mp hlast
    exact ⟨before, v, after, hsplit, hafter, hv⟩
  · rintro ⟨before, v, after, hsplit, hafter, hv⟩
    exact ⟨v, lastMember?_eq_some_iff.mpr ⟨before, after, hsplit, hafter⟩, hv⟩

theorem owner_eq_ok_iff {token : String} (h : payload token = .ok ms) {u : UserId} :
    owner token claim = .ok u ↔ Names ms claim u := by
  rw [← text_eq_ok_iff_names]
  constructor
  · intro howner
    obtain ⟨ms', hms, howner⟩ := Except.bind_ok howner
    obtain rfl : ms = ms' := Except.ok.inj (h.symm.trans hms)
    obtain ⟨s, hs, hu⟩ := Except.bind_ok howner
    rw [hs, Identifier.text_of_ofString (Except.mapError_ok hu)]
  · intro htext
    simp only [owner, h, htext, bind, Except.bind, Identifier.ofString_text, Except.mapError]

theorem payload_error {token : String} {e : Error} (h : payload token = .error e) :
    ∃ reason, e = .invalidGrant reason := by
  unfold payload at h
  split at h
  · split at h
    · exact ⟨_, (Except.error.inj h).symm⟩
    dsimp only at h
    split at h
    · exact ⟨_, (Except.error.inj h).symm⟩
    split at h
    · exact ⟨_, (Except.error.inj h).symm⟩
    · cases h
  · exact ⟨_, (Except.error.inj h).symm⟩

theorem text_error {found : Option Json} {e : Error} (h : text claim found = .error e) :
    ∃ reason, e = .invalidGrant reason := by
  unfold text at h
  split at h
  · cases h
  · cases h
  · exact ⟨_, (Except.error.inj h).symm⟩
  · exact ⟨_, (Except.error.inj h).symm⟩

theorem owner_error {token : String} {e : Error} (h : owner token claim = .error e) :
    ∃ reason, e = .invalidGrant reason := by
  obtain hpayload | ⟨ms, -, h⟩ := Except.bind_error h
  · exact payload_error hpayload
  obtain htext | ⟨s, -, h⟩ := Except.bind_error h
  · exact text_error htext
  · obtain ⟨fault, -, rfl⟩ := Except.mapError_error h
    exact ⟨fault.message, rfl⟩

theorem owner_of_not_hasTokenShape {token : String} (h : hasTokenShape token = false) :
    owner token claim = .error (malformed "expected three segments") := by
  have hpayload : payload token = .error (malformed "expected three segments") := by
    unfold hasTokenShape at h
    unfold payload
    split at h
    · refine if_pos ?_
      simpa [or_iff_not_imp_left] using h
    · rfl
  rw [owner, hpayload]
  rfl

end OwnerClaim

namespace Client

open OwnerClaim

theorem owner_error {c : Client} {tokens : Tokens} {e : Error}
    (h : c.owner tokens = .error e) : ∃ reason, e = .invalidGrant reason := by
  unfold owner at h
  split at h
  · exact OwnerClaim.owner_error h
  split at h
  · exact OwnerClaim.owner_error h
  · exact ⟨_, (Except.error.inj h).symm⟩

/-- The owner that a token with a payload names is the one that the payload names, and an access
token counts for nothing next to an ID token, but for one without it. -/
theorem owner_inverts (c : Client) :
    (∀ tokens header text padding signature ms, header ≠ "" →
      '.' ∉ header.toList → '.' ∉ signature.toList →
      Json.decode Json.Decoder.value (Text.utf8 text) = .ok (.object ms) →
      tokens.idToken = some (compact header text padding signature) →
      (∀ u, c.owner tokens = .ok u ↔ Names ms c.config.ownerClaim u) ∧
      ((∀ u, ¬Names ms c.config.ownerClaim u) →
        ∃ reason, c.owner tokens = .error (.invalidGrant reason))) ∧
    (∀ tokens tokens' : Tokens, tokens.idToken.isSome → tokens'.idToken = tokens.idToken →
      c.owner tokens' = c.owner tokens) ∧
    ∀ tokens : Tokens, tokens.idToken = none →
      (c.owner tokens).mapError Error.kind =
        (c.owner { tokens with idToken := some tokens.accessToken.text }).mapError Error.kind := by
  refine ⟨?_, ?_, ?_⟩
  · intro tokens header text padding signature ms hheader hheader' hsignature hobject htoken
    have hpayload := payload_compact hheader ⟨hheader', hsignature⟩ hobject padding
    have howner : c.owner tokens =
        OwnerClaim.owner (compact header text padding signature) c.config.ownerClaim := by
      rw [owner, htoken]
    have hiff : ∀ u, c.owner tokens = .ok u ↔ Names ms c.config.ownerClaim u := fun u => by
      rw [howner, owner_eq_ok_iff hpayload]
    refine ⟨hiff, fun hnone => ?_⟩
    cases hresult : c.owner tokens with
    | ok u => exact absurd ((hiff u).mp hresult) (hnone u)
    | error e =>
      obtain ⟨reason, rfl⟩ := owner_error hresult
      exact ⟨reason, rfl⟩
  · intro tokens tokens' hsome hsame
    obtain ⟨token, htoken⟩ := Option.isSome_iff_exists.mp hsome
    rw [owner, owner, hsame, htoken]
  · intro tokens hnone
    rw [owner, owner, hnone]
    dsimp only
    split
    · rfl
    · rename_i hshape
      rw [owner_of_not_hasTokenShape (Bool.not_eq_true _ ▸ hshape)]
      rfl

/-- A member that comes again, with padding that base64 does not ask for; a token without parts,
next to an access token that names somebody; and the same access token alone. -/
theorem owner_eq_last_member :
    let text := "\x7b\"sub\":\"mallory\",\"sub\":42\x7d"
    let access : Secret := ⟨compact "e30" text 0 "sig"⟩
    sample.owner ⟨access, none, none, some (compact "e30" text 2 "")⟩ = .ok ⟨"42", by decide⟩ ∧
      sample.owner ⟨access, none, none, some "e30"⟩ =
        sample.owner ⟨.empty, none, none, some "e30"⟩ ∧
      (sample.owner ⟨access, none, none, none⟩).mapError Error.kind =
        (sample.owner ⟨access, none, none, some access.text⟩).mapError Error.kind := by
  intro text access
  obtain ⟨hnames, hsame, halone⟩ := owner_inverts sample
  have hobject : Json.decode Json.Decoder.value (Text.utf8 text) =
      .ok (.object [("sub", .string "mallory"), ("sub", .number (.natural 42))]) := rfl
  have hlast : Names [("sub", .string "mallory"), ("sub", .number (.natural 42))]
      sample.config.ownerClaim ⟨"42", by decide⟩ :=
    ⟨[("sub", .string "mallory")], .number (.natural 42), [], rfl, List.forall_mem_nil _,
      .inr ⟨.natural 42, rfl, by decide⟩⟩
  refine ⟨?_, hsame ⟨.empty, none, none, some "e30"⟩ _ rfl rfl, halone ⟨access, _, _, _⟩ rfl⟩
  exact ((hnames ⟨access, none, none, some (compact "e30" text 2 "")⟩ "e30" text 2 "" _
    (by decide) (by decide) (by decide) hobject rfl).1 _).mpr hlast

end Client

end OAuth

end DeviceAuth
