import DeviceAuth.Proofs.Service.Basic
import DeviceAuth.Service.Renewal

/-! Renewal: it changes no record but the device's, and that one only for its owner and its refresh
token. -/
namespace DeviceAuth.Service

/-- The request names the owner of a record and presents its refresh token. -/
def RefreshRequest.Authorizes (q : RefreshRequest) (r : Record) : Prop :=
  q.user = r.owner.text ∧ q.refreshToken.text ≠ "" ∧ r.refreshToken = some q.refreshToken

instance (q : RefreshRequest) (r : Record) : Decidable (q.Authorizes r) :=
  inferInstanceAs (Decidable (_ ∧ _ ∧ _))

theorem checkRefreshToken_ok {record : Record} {device : DeviceId} {presented token : Secret}
    (h : checkRefreshToken record device presented = .ok token) :
    record.refreshToken = some token ∧ token = presented := by
  unfold checkRefreshToken at h
  split at h
  · rename_i found hf
    cases h
    obtain ⟨hr, hagrees⟩ := Option.filter_eq_some_iff.mp hf
    have htext : token.text = presented.text := Secret.agrees_iff.mp hagrees
    exact ⟨hr, by cases token; cases presented; cases htext; rfl⟩
  · cases h

theorem checkRefreshToken_eq (r : Record) (device : DeviceId) (presented : Secret) :
    checkRefreshToken r device presented =
      if r.refreshToken = some presented then .ok presented
      else .error (.invalidGrant ("refresh token does not match device " ++ device.text)) := by
  cases hchecked : checkRefreshToken r device presented with
  | ok token =>
    obtain ⟨htoken, rfl⟩ := checkRefreshToken_ok hchecked
    rw [if_pos htoken]
  | error e =>
    unfold checkRefreshToken at hchecked
    split at hchecked
    · cases hchecked
    · rename_i hnone
      have hother : r.refreshToken ≠ some presented := by
        intro htoken
        simp [htoken] at hnone
      rw [if_neg hother, ← hchecked]

/-- The request is complete, and about the device. -/
def RefreshRequest.IsFor (device : DeviceId) (q : RefreshRequest) : Prop :=
  q.device = device.text ∧ (∃ user : UserId, q.user = user.text) ∧ q.refreshToken.text ≠ ""

/-- Why a renewal ends at its look at the record of the device. -/
inductive Denied (device : DeviceId) (user : UserId) (presented : Secret)
    (found : Option Record) : Error → Prop
  | missing (h : found = none) : Denied device user presented found
    (.unauthenticated ("device " ++ device.text ++ " is not registered"))
  | foreign {r : Record} (h : found = some r) (howner : r.owner ≠ user) :
    Denied device user presented found (.permissionDenied
      ("device " ++ device.text ++ " is not owned by user " ++ user.text))
  | mismatch {r : Record} (h : found = some r) (htoken : r.refreshToken ≠ some presented) :
    Denied device user presented found
      (.invalidGrant ("refresh token does not match device " ++ device.text))

theorem Denied.not_authorizes {q : RefreshRequest} {device : DeviceId} {user : UserId}
    {found : Option Record} {e : Error} (h : Denied device user q.refreshToken found e)
    (huser : q.user = user.text) : ¬∃ r, found = some r ∧ q.Authorizes r := by
  rintro ⟨r, hr, howner, -, htoken⟩
  cases h with
  | missing hnone => cases hnone.symm.trans hr
  | foreign hfound hother =>
    cases hfound.symm.trans hr
    exact hother (Identifier.ext_text (howner.symm.trans huser))
  | mismatch hfound hother =>
    cases hfound.symm.trans hr
    exact hother htoken

theorem denied_of_checkOwner {device : DeviceId} {user : UserId} {found : Option Record}
    {e : Error} (h : checkOwner device user found = .error e) (presented : Secret) :
    Denied device user presented found e := by
  cases found with
  | none =>
    cases h
    exact .missing rfl
  | some record =>
    simp only [checkOwner] at h
    split at h
    · cases h
    · rename_i howner
      cases h
      exact .foreign rfl (by simpa [Record.isOwnedBy] using howner)

variable {P : Action → Prop}

/-- What a renewal does to the store, if it comes that far: it ends the session or swaps the record
for one of the same device and owner. -/
structure Renews (device : DeviceId) (owner : UserId) (P : Action → Prop) : Prop where
  remote : ∀ a, a.IsRemote → P a
  signOut : ∀ now, P (.store (.signOut device now))
  swap : ∀ expected r, r.device = device → r.owner = owner →
    P (.store (.swap device expected r))

theorem renew_all (s : Service) {device : DeviceId} {owner : UserId} (token : Secret)
    (hP : Renews device owner P) : (s.renew device token).All P := by
  refine Command.All.tryCatch ((s.client.request_remote _).mono hP.remote) fun e => ?_
  dsimp only
  split
  · refine (Command.all_now (hP.remote _ trivial)).bind fun now => ?_
    exact (Command.all_store (hP.signOut now)).bind fun _ => Command.all_throw e
  · exact Command.all_throw e

def exchangeFor (s : Service) (device : DeviceId) (current : Record) (token : Secret) :
    Command RefreshAnswer := do
  let tokens ← s.renew device token
  let issued ← Command.now
  let record ← build (renewal current device token tokens issued)
  let outcome ← Command.store (.swap device (some token.text) record)
  Command.ofExcept (checkSwap device outcome)
  let now ← Command.now
  return ⟨record.accessToken, record.refreshToken.getD .empty, record.remaining now⟩

theorem exchange_eq (s : Service) (device : DeviceId) (user : UserId) (presented : Secret) :
    s.exchange device user presented = (do
      let current ← ownedDevice device user
      let token ← Command.ofExcept (checkRefreshToken current device presented)
      s.exchangeFor device current token) := rfl

theorem exchangeFor_all (s : Service) {device : DeviceId} (current : Record) (token : Secret)
    (hP : Renews device current.owner P) : (s.exchangeFor device current token).All P := by
  have hnow : P .now := hP.remote _ trivial
  refine (renew_all s token hP).bind fun tokens => ?_
  refine (Command.all_now hnow).bind fun issued => ?_
  refine Command.all_ofExcept_bind fun record hrecord => ?_
  obtain ⟨hdevice, howner, -⟩ := Record.Draft.build_ok (Except.mapError_ok hrecord)
  refine (Command.all_store (hP.swap _ record hdevice howner)).bind fun outcome => ?_
  refine (Command.all_ofExcept _).bind fun _ => ?_
  exact (Command.all_now hnow).bind fun now => Command.all_pure _

theorem exchange_all (s : Service) {device : DeviceId} (user : UserId) (presented : Secret)
    (hread : ∀ a : Action, a.IsRead → P a) (hP : ∀ owner, Renews device owner P) :
    (s.exchange device user presented).All P := by
  rw [exchange_eq]
  refine ((ownedDevice_reads device user).mono hread).bind fun current => ?_
  refine (Command.all_ofExcept _).bind fun token => ?_
  exact exchangeFor_all s current token (hP current.owner)

theorem refresh_keyed (s : Service) (q : RefreshRequest) : (s.refresh q).All Action.IsKeyed := by
  unfold refresh
  refine (Command.all_ofExcept _).bind fun device => ?_
  refine (Command.all_ofExcept _).bind fun user => ?_
  dsimp only
  split
  · exact Command.all_throw _
  · refine Command.All.guarded trivial (fun _ => trivial) (fun _ => trivial) ?_
    refine exchange_all s user q.refreshToken (fun _ ha => ha.isKeyed) fun owner => ?_
    exact ⟨fun _ ha => ha.isRead.isKeyed, fun _ => trivial, fun _ _ hd _ => hd⟩

theorem runCommand_exchange (s : Service) (device : DeviceId) (user : UserId) (presented : Secret)
    (w : World) :
    (∃ e, w.runCommand (s.exchange device user presented) = (.error e, w)) ∨
      ∃ r, w.record? device = some r ∧ r.owner = user ∧ r.refreshToken = some presented ∧
        w.runCommand (s.exchange device user presented) =
          w.runCommand (s.exchangeFor device r presented) := by
  rw [exchange_eq]
  obtain ⟨e, -, he⟩ | ⟨r, ho, hrest⟩ :=
    World.runCommand_bind_cases (ownedDevice_reads device user) _ w
  · exact .inl ⟨e, he⟩
  rw [hrest]
  obtain ⟨e, -, he⟩ | ⟨token, ht, hrest⟩ :=
    World.runCommand_bind_cases (Command.all_ofExcept (checkRefreshToken r device presented))
      (s.exchangeFor device r) w
  · exact .inl ⟨e, he⟩
  obtain ⟨hr, howner⟩ := ownedDevice_ok ho
  obtain ⟨htoken, rfl⟩ := checkRefreshToken_ok ht
  exact .inr ⟨r, hr, howner, htoken, hrest⟩

theorem runCommand_refresh (s : Service) (q : RefreshRequest) (w : World) :
    (∃ e, w.runCommand (s.refresh q) = (.error e, w)) ∨
      ∃ device user, q.device = Identifier.text device ∧ q.user = Identifier.text user ∧
        q.refreshToken.text ≠ "" ∧
        w.runCommand (s.refresh q) =
          w.runCommand (.guarded device (s.exchange device user q.refreshToken)) := by
  unfold refresh
  obtain ⟨e, -, he⟩ | ⟨device, hd, hrest⟩ :=
    World.runCommand_bind_cases (Command.all_ofExcept _) _ w
  · exact .inl ⟨e, he⟩
  rw [hrest]
  obtain ⟨e, -, he⟩ | ⟨user, hu, hrest⟩ :=
    World.runCommand_bind_cases (Command.all_ofExcept _) _ w
  · exact .inl ⟨e, he⟩
  rw [hrest]
  dsimp only
  split
  · exact .inl ⟨_, rfl⟩
  · rename_i hne
    exact .inr ⟨device, user, (required_ok hd).symm, (required_ok hu).symm, by simpa using hne, rfl⟩

theorem record?_refresh {s : Service} {q : RefreshRequest} {w : World} {d : DeviceId}
    (h : (w.runCommand (s.refresh q)).2.record? d ≠ w.record? d) :
    q.device = d.text ∧ ∃ r, w.record? d = some r ∧ q.Authorizes r ∧
      ∀ r', (w.runCommand (s.refresh q)).2.record? d = some r' → r'.owner = r.owner := by
  obtain ⟨e, he⟩ | ⟨device, user, hd, hu, hne, hrun⟩ := runCommand_refresh s q w
  · rw [he] at h
    exact absurd rfl h
  obtain ⟨guards, hguards⟩ :=
    World.record?_runCommand_guarded device d (s.exchange device user q.refreshToken) w
  rw [hrun, hguards] at h ⊢
  obtain ⟨e, he⟩ | ⟨r, hr, howner, htoken, hrun⟩ :=
    runCommand_exchange s device user q.refreshToken { w with guards := guards }
  · rw [he] at h
    exact absurd rfl h
  have hstays : (s.exchangeFor device r q.refreshToken).All (Action.StaysWith device r.owner) :=
    exchangeFor_all s r _
      ⟨fun _ ha => ha.isRead.staysWith device r.owner, fun _ => rfl, fun _ _ _ ho => ⟨rfl, ho⟩⟩
  rw [hrun] at h ⊢
  have hdevice : d = device := by
    by_contra hnd
    exact h (World.record?_run_of_ne hstays hnd _)
  subst hdevice
  have hbefore : ∀ r', w.record? d = some r' → r'.owner = r.owner := by
    intro r' hr'
    exact congrArg Record.owner (Option.some.inj (hr'.symm.trans hr))
  exact ⟨hd, r, hr, ⟨howner ▸ hu, hne, htoken⟩, World.owner_run hstays hbefore⟩

end DeviceAuth.Service
