import DeviceAuth.Proofs.Except
import DeviceAuth.Proofs.Records
import DeviceAuth.Service.Basic

/-! What the checks that commands share let through, and that they only read. -/
namespace DeviceAuth

namespace OAuth.Client

theorem request_remote (c : Client) (grant : Grant) : (c.request grant).All Action.IsRemote := by
  refine (Command.all_ofExcept _).bind fun call => ?_
  refine (Command.all_perform trivial).bind fun delivery => ?_
  exact (Command.all_now trivial).bind fun now => Command.all_ofExcept _

theorem request_reads (c : Client) (grant : Grant) : (c.request grant).All Action.IsRead :=
  (c.request_remote grant).mono fun _ => Action.IsRemote.isRead

end OAuth.Client

theorem Record.Draft.of_build {d : Record.Draft} {r : Record} (h : d.build = .ok r) :
    d.accessToken.text ≠ "" ∧ ∃ expiry, d.expiry = .ok expiry ∧
      r = ⟨d.device, d.owner, d.provider, d.accessToken, d.refreshToken.filter (!·.isEmpty),
        d.issuedAt, expiry, none⟩ := by
  unfold build at h
  split at h
  · cases h
  rename_i hfilled
  cases he : d.expiry with
  | error e => simp [he, bind, Except.bind] at h
  | ok expiry =>
    simp only [he, bind, Except.bind, pure, Except.pure, Except.ok.injEq] at h
    exact ⟨by simpa using hfilled, expiry, rfl, h.symm⟩

theorem Record.Draft.build_ok {d : Record.Draft} {r : Record} (h : d.build = .ok r) :
    r.device = d.device ∧ r.owner = d.owner ∧ r.signedOutAt = none := by
  obtain ⟨-, expiry, -, rfl⟩ := of_build h
  exact ⟨rfl, rfl, rfl⟩

namespace Service

theorem required_ok {field text : String} {kind : IdentifierKind} {id : Identifier kind}
    (h : required field kind text = .ok id) : id.text = text := by
  unfold required at h
  split at h
  · cases h
  · exact Identifier.text_of_ofString (Except.mapError_ok h)

theorem required_text {kind : IdentifierKind} (field : String) (id : Identifier kind) :
    required field kind id.text = .ok id := by
  have hne : id.text ≠ "" := by
    intro h
    have hvalid := id.valid
    rw [h] at hvalid
    cases hvalid
  unfold required
  rw [if_neg hne, Identifier.ofString_text]
  rfl

theorem required_error {field text : String} {kind : IdentifierKind} {e : Error}
    (h : required field kind text = .error e) :
    (∃ reason, e = .invalidArgument reason) ∧ ∀ id : Identifier kind, text ≠ id.text := by
  refine ⟨?_, ?_⟩
  · unfold required at h
    split at h
    · exact ⟨_, (Except.error.inj h).symm⟩
    · obtain ⟨fault, -, rfl⟩ := Except.mapError_error h
      exact ⟨fault.message, rfl⟩
  · rintro id rfl
    cases (required_text field id).symm.trans h

theorem checkOwner_ok {device : DeviceId} {user : UserId} {found : Option Record} {r : Record}
    (h : checkOwner device user found = .ok r) : found = some r ∧ r.owner = user := by
  cases found with
  | none => cases h
  | some record =>
    simp only [checkOwner] at h
    split at h
    · rename_i ho
      cases h
      exact ⟨rfl, by simpa [Record.isOwnedBy] using ho⟩
    · cases h

theorem ownedDevice_reads (device : DeviceId) (user : UserId) :
    (ownedDevice device user).All Action.IsRead :=
  (Command.store_reads (.fetch device) rfl).bind fun _ => Command.all_ofExcept _

theorem ownedDevice_ok {device : DeviceId} {user : UserId} {w : World} {r : Record}
    (h : (w.runCommand (ownedDevice device user)).1 = .ok r) :
    w.record? device = some r ∧ r.owner = user := by
  unfold ownedDevice at h
  obtain ⟨e, -, he⟩ | ⟨found, hf, hrest⟩ :=
    World.runCommand_bind_cases (Command.store_reads (.fetch device) rfl) _ w
  · rw [he] at h
    cases h
  · have hfound : found = w.record? device := World.runCommand_store_ok hf
    rw [hrest] at h
    exact hfound ▸ checkOwner_ok h

theorem build_ok {w : World} {draft : Record.Draft} {r : Record}
    (h : (w.runCommand (build draft)).1 = .ok r) : draft.build = .ok r :=
  Except.mapError_ok h

namespace Verifier

theorem ofStore_reads (bearer : String) : (ofStore bearer).All Action.IsRead := by
  unfold ofStore
  dsimp only
  split
  · exact Command.all_throw _
  · refine (Command.store_reads (.find bearer) rfl).bind fun found => ?_
    cases found with
    | none => exact Command.all_throw _
    | some record =>
      refine (Command.all_now trivial).bind fun now => ?_
      split
      · exact Command.all_pure _
      · exact Command.all_throw _

/-- Whoever is let in owns an active session with the bearer as its access token. -/
theorem ofStore_ok {w : World} {bearer : String} {user : UserId}
    (h : (w.runCommand (ofStore bearer)).1 = .ok user) :
    bearer ≠ "" ∧ ∃ r ∈ w.table.records,
      r.accessToken.text = bearer ∧ r.status w.clock = .active ∧ r.owner = user := by
  unfold ofStore at h
  dsimp only at h
  split at h
  · cases h
  · rename_i hne
    refine ⟨hne, ?_⟩
    obtain ⟨e, -, he⟩ | ⟨found, hf, hrest⟩ :=
      World.runCommand_bind_cases (Command.store_reads (.find bearer) rfl) _ w
    · rw [he] at h
      cases h
    · have hfound : found = w.table.records.find? (·.accessToken.agrees bearer) :=
        World.runCommand_store_ok hf
      rw [hrest] at h
      cases found with
      | none => cases h
      | some record =>
        have hmem := List.mem_of_find?_eq_some hfound.symm
        have hagrees :=
          List.find?_some (p := fun r : Record => r.accessToken.agrees bearer) hfound.symm
        refine ⟨record, hmem, Secret.agrees_iff.mp hagrees, ?_⟩
        dsimp only at h
        rw [World.runCommand_bind_ok w (World.runCommand_now w)] at h
        split at h
        · rename_i hactive
          cases h
          exact ⟨by simpa [Record.isActive] using hactive, rfl⟩
        · cases h

end Verifier

end Service

end DeviceAuth
