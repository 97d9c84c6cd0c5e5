import DeviceAuth.Proofs.Supersession

/-! Credentials are compared byte by byte without stopping at the first difference. What is decided
is still whether two texts are equal, wherever a token is looked for, presented or expected. -/
namespace DeviceAuth

namespace Store

theorem find_eq_ok_iff (s : Store) (token : String) (found : Option Record) :
    (s.apply (.find token)).1 = .ok found ↔
      .find ∉ s.refused ∧ found = s.table.records.find? (·.accessToken.text = token) := by
  have hsame : (fun r : Record => r.accessToken.agrees token) =
      fun r => decide (r.accessToken.text = token) := by
    funext r
    rw [Bool.eq_iff_iff, Secret.agrees_iff, decide_eq_true_iff]
  have htable : (s.table.apply (.find token)).1 =
      s.table.records.find? (·.accessToken.text = token) :=
    congrArg s.table.records.find? hsame
  constructor
  · intro h
    exact ⟨not_mem_refused_of_ok h, (answer_apply h).1.trans htable⟩
  · rintro ⟨hworking, rfl⟩
    rw [apply_of_reads rfl hworking, htable]

end Store

namespace Service

variable {bearer : String} {q : SessionRequest} {w : World} {device : DeviceId} {r : Record}

theorem fetch_not_mem_refused_of_ownedDevice {user : UserId}
    (h : (w.runCommand (ownedDevice device user)).1 = .ok r) : .fetch ∉ w.store.refused := by
  obtain ⟨found, hfound, -⟩ := World.runCommand_bind_eq_ok h
  exact Store.not_mem_refused_of_ok (Except.mapError_ok hfound)

theorem authorizeSession_eq_ok_iff :
    (w.runCommand (authorizeSession bearer q)).1 = .ok r ↔
      .fetch ∉ w.store.refused ∧
        ∃ device : DeviceId, q.device = device.text ∧ w.record? device = some r ∧
          q.Authorizes bearer r := by
  constructor
  · intro h
    obtain ⟨device, hdevice, hr, hauthorizes⟩ := authorizeSession_ok h
    refine ⟨?_, device, hdevice, hr, hauthorizes⟩
    rw [authorizeSession_eq hdevice hauthorizes.1 hauthorizes.2.1] at h
    obtain ⟨_, howned, -⟩ := World.runCommand_bind_eq_ok h
    exact fetch_not_mem_refused_of_ownedDevice howned
  · rintro ⟨hworking, device, hdevice, hr, huser, hpresented, htoken⟩
    rw [runCommand_authorizeSession hworking hdevice hr huser hpresented, if_pos htoken]

theorem checkRefreshToken_eq_ok_iff {presented token : Secret} :
    checkRefreshToken r device presented = .ok token ↔
      r.refreshToken = some presented ∧ token = presented := by
  rw [checkRefreshToken_eq]
  by_cases htoken : r.refreshToken = some presented
  · rw [if_pos htoken, Except.ok.injEq]
    exact ⟨fun h => ⟨htoken, h.symm⟩, fun h => h.2.symm⟩
  · rw [if_neg htoken]
    exact iff_of_false nofun fun h => htoken h.1

/-- Two texts agree just if they are equal. So a search finds a record that holds the very token, a
refresh token is the expected one just if both are missing or both are there and equal, and sessions
and renewals ask for the very tokens of the record. -/
theorem credentials_agree_iff_eq :
    (∀ stored presented : String, (Secret.mk stored).agrees presented = true ↔
        stored = presented) ∧
      (∀ (s : Store) (token : String) (found : Option Record),
        (s.apply (.find token)).1 = .ok found ↔
          .find ∉ s.refused ∧ found = s.table.records.find? (·.accessToken.text = token)) ∧
      (∀ (current : Option Secret) (expected : Option String),
        Store.Table.refreshAgrees current expected = true ↔
          (current = none ∧ expected = none) ∨
            ∃ secret, current = some secret ∧ expected = some secret.text) ∧
      (∀ (bearer : String) (q : SessionRequest) (w : World) (r : Record),
        (w.runCommand (authorizeSession bearer q)).1 = .ok r ↔
          .fetch ∉ w.store.refused ∧
            ∃ device : DeviceId, q.device = device.text ∧ w.record? device = some r ∧
              q.Authorizes bearer r) ∧
      (∀ (r : Record) (device : DeviceId) (presented token : Secret),
        checkRefreshToken r device presented = .ok token ↔
          r.refreshToken = some presented ∧ token = presented) := by
  refine ⟨fun stored presented => Secret.agrees_iff, Store.find_eq_ok_iff,
    fun current expected => ?_, fun _ _ _ _ => authorizeSession_eq_ok_iff,
    fun _ _ _ _ => checkRefreshToken_eq_ok_iff⟩
  rw [Store.Table.refreshAgrees_iff_map]
  cases current with
  | none => simp [eq_comm]
  | some secret => simp [eq_comm]

end Service

end DeviceAuth
