import DeviceAuth.Proofs.Integrity
import DeviceAuth.Proofs.Lockstep
import DeviceAuth.Proofs.Store.Masking

/-! Errors tell nothing about tokens. A request that is wrong about a token is refused in the same
words whatever the token is that it presents, and whatever the token is that is stored. -/
namespace DeviceAuth.Service

/-- A request with a token that has to be the device's. -/
structure Appeal where
  device : String
  user : String
  token : Secret

namespace Appeal

/-- Two appeals that differ in their tokens only, of which neither or both are empty. -/
structure Alike (a a' : Appeal) : Prop where
  device : a.device = a'.device
  user : a.user = a'.user
  isEmpty : a.token.isEmpty = a'.token.isEmpty

end Appeal

def SessionRequest.appeal (q : SessionRequest) (bearer : String) : Appeal :=
  ⟨q.device, q.user, ⟨q.presented bearer⟩⟩

def RefreshRequest.appeal (q : RefreshRequest) : Appeal := ⟨q.device, q.user, q.refreshToken⟩

def sessionCredential (r : Record) : Option Secret := some r.accessToken

/-- Stores that differ in tokens, of which both hold the token that is presented or neither does;
and a provider that answers the same to the refresh token of either. -/
def likeness (s : Service) (credential : Record → Option Secret) (a a' : Appeal) : Likeness where
  stores st st' := st.SameButTokens st' ∧ ∀ device : DeviceId, device.text = a.device →
    Store.BothHold credential device a.token a'.token st st'
  calls call call' := s.client.call (.refreshToken a.token.text) = .ok call ∧
    s.client.call (.refreshToken a'.token.text) = .ok call'

variable {s : Service} {credential : Record → Option Secret} {a a' : Appeal} {device : DeviceId}

/-- The records differ in tokens only, and both have the token that is presented or neither has. -/
def Shared (credential : Record → Option Secret) (a a' : Appeal) (r r' : Record) : Prop :=
  r.masked = r'.masked ∧ (credential r = some a.token ↔ credential r' = some a'.token)

theorem agree_checkOwner {device : DeviceId} {found found' : Option Record}
    (h : Option.Rel (Shared credential a a') found found') (user : UserId) :
    Except.Agree (Shared credential a a') (checkOwner device user found)
      (checkOwner device user found') := by
  cases h with
  | none => exact .error _
  | @some r r' h =>
    have howned := Record.eq_of_masked (·.isOwnedBy user) (fun _ => rfl) h.1
    simp only [checkOwner, howned]
    split
    · exact .ok h
    · exact .error _

theorem twin_ownedDevice (hdevice : device.text = a.device) (user : UserId) :
    Command.Twin (s.likeness credential a a')
      (fun stage r r' => stage = .reading ∧ Shared credential a a' r r') .reading
      (ownedDevice device user) (ownedDevice device user) := by
  have hfetch : ∀ st st', (s.likeness credential a a').stores st st' →
      Except.Agree (Option.Rel (Shared credential a a')) (st.apply (.fetch device)).1
        (st'.apply (.fetch device)).1 := fun st st' h => h.1.fetch (h.2 device hdevice)
  refine (Command.twin_read (.fetch device) (.fetch device) rfl rfl hfetch).bind
    fun stage found found' h => ?_
  obtain ⟨rfl, h⟩ := h
  exact Command.twin_ofExcept (agree_checkOwner h user)

theorem agrees_of_shared {r r' : Record} (h : Shared sessionCredential a a' r r') :
    r.accessToken.agrees a.token.text = r'.accessToken.agrees a'.token.text := by
  have hagrees (secret token : Secret) :
      secret.agrees token.text = true ↔ some secret = some token := by
    rw [← Store.Table.refreshAgrees_iff]
    rfl
  rw [Bool.eq_iff_iff, hagrees, hagrees]
  exact h.2

/-- A session is entered with one token as with the other, and is refused in the same words. -/
theorem twin_authorizeSession {bearer bearer' : String} {q q' : SessionRequest}
    (ha : (q.appeal bearer).Alike (q'.appeal bearer')) :
    Command.Twin (s.likeness sessionCredential (q.appeal bearer) (q'.appeal bearer'))
      (fun stage r r' => stage = .reading ∧ r.masked = r'.masked) .reading
      (authorizeSession bearer q) (authorizeSession bearer' q') := by
  have hdevice : q'.device = q.device := ha.device.symm
  have huser : q'.user = q.user := ha.user.symm
  have hempty : q.presented bearer = "" ↔ q'.presented bearer' = "" := by
    have hisEmpty := ha.isEmpty
    rwa [Bool.eq_iff_iff, Secret.isEmpty_iff, Secret.isEmpty_iff] at hisEmpty
  unfold authorizeSession
  rw [hdevice, huser]
  refine (Command.twin_same _).bind fun stage device _ h => ?_
  obtain ⟨rfl, rfl, hok⟩ := h
  refine (Command.twin_same _).bind fun stage user _ h => ?_
  obtain ⟨rfl, rfl, -⟩ := h
  dsimp only
  by_cases hnone : q.presented bearer = ""
  · rw [if_pos hnone, if_pos (hempty.mp hnone)]
    exact Command.twin_throw _
  rw [if_neg hnone, if_neg (mt hempty.mpr hnone)]
  refine (twin_ownedDevice (required_ok hok) user).bind fun stage r r' h => ?_
  obtain ⟨rfl, hshared⟩ := h
  have hagrees : r.accessToken.agrees (q.presented bearer) =
      r'.accessToken.agrees (q'.presented bearer') := agrees_of_shared hshared
  rw [hagrees]
  split
  · exact Command.twin_throw _
  · exact Command.twin_pure ⟨rfl, hshared.1⟩

/-- Nothing is asked of what two requests are answered with, once neither comes to an error. -/
abbrev Settled {α : Type} : Stage → α → α → Prop := fun _ _ _ => True

theorem twin_signIn {bearer bearer' : String} {q q' : SessionRequest}
    (ha : (q.appeal bearer).Alike (q'.appeal bearer')) :
    Command.Twin (s.likeness sessionCredential (q.appeal bearer) (q'.appeal bearer')) Settled
      .reading (signIn bearer q) (signIn bearer' q') := by
  refine (twin_authorizeSession ha).bind fun stage r r' h => ?_
  obtain ⟨rfl, hmasked⟩ := h
  refine Command.twin_now.bind fun stage now _ h => ?_
  obtain ⟨rfl, rfl⟩ := h
  have hdevice := Record.eq_of_masked (·.device) (fun _ => rfl) hmasked
  have hstatus := Record.eq_of_masked (·.status now) (fun _ => rfl) hmasked
  rw [hdevice, hstatus]
  cases refusal? r'.device (r'.status now) with
  | none => exact Command.twin_pure trivial
  | some reason => exact Command.twin_throw _

theorem twin_storeSignOut (device : DeviceId) (now : Instant) :
    Command.Twin (s.likeness credential a a') Settled .reading
      (Command.store (.signOut device now)) (Command.store (.signOut device now)) :=
  Command.twin_write _ _ fun _ _ h => h.1.signOut device now

theorem twin_storeRemove (device : DeviceId) :
    Command.Twin (s.likeness credential a a') Settled .reading
      (Command.store (.remove device)) (Command.store (.remove device)) :=
  Command.twin_write _ _ fun _ _ h => h.1.remove device

theorem twin_signOut {bearer bearer' : String} {q q' : SessionRequest}
    (ha : (q.appeal bearer).Alike (q'.appeal bearer')) :
    Command.Twin (s.likeness sessionCredential (q.appeal bearer) (q'.appeal bearer')) Settled
      .reading (signOut bearer q) (signOut bearer' q') := by
  refine (twin_authorizeSession ha).bind fun stage r r' h => ?_
  obtain ⟨rfl, hmasked⟩ := h
  have hdevice := Record.eq_of_masked (·.device) (fun _ => rfl) hmasked
  have hended := Record.eq_of_masked (·.isSignedOut) (fun _ => rfl) hmasked
  dsimp only
  rw [hdevice, hended]
  split
  · refine Command.twin_now.bind fun stage now _ h => ?_
    obtain ⟨rfl, rfl⟩ := h
    exact (twin_storeSignOut r'.device now).bind fun _ _ _ _ => Command.twin_pure trivial
  · exact Command.twin_pure trivial

theorem twin_signOff {bearer bearer' : String} {q q' : SessionRequest}
    (ha : (q.appeal bearer).Alike (q'.appeal bearer')) :
    Command.Twin (s.likeness sessionCredential (q.appeal bearer) (q'.appeal bearer')) Settled
      .reading (signOff bearer q) (signOff bearer' q') := by
  refine (twin_authorizeSession ha).bind fun stage r r' h => ?_
  obtain ⟨rfl, hmasked⟩ := h
  have hdevice := Record.eq_of_masked (·.device) (fun _ => rfl) hmasked
  rw [hdevice]
  refine (twin_storeRemove r'.device).bind fun stage _ _ _ => ?_
  exact (Command.twin_forgetGuard _ _).bind fun _ _ _ _ => Command.twin_pure trivial

theorem agree_call :
    Except.Agree (s.likeness credential a a').calls
      (s.client.call (.refreshToken a.token.text))
      (s.client.call (.refreshToken a'.token.text)) := by
  by_cases hhttp : s.client.tokenUrl.isHttp = true
  · have hcall (token : String) : ∃ call, s.client.call (.refreshToken token) = .ok call :=
      ⟨_, if_pos hhttp⟩
    obtain ⟨call, hcall₁⟩ := hcall a.token.text
    obtain ⟨call', hcall₂⟩ := hcall a'.token.text
    have hcalls : (s.likeness credential a a').calls call call' := ⟨hcall₁, hcall₂⟩
    rw [hcall₁, hcall₂]
    exact .ok hcalls
  · unfold OAuth.Client.call
    rw [if_neg hhttp, if_neg hhttp]
    split <;> exact .error _

theorem twin_request :
    Program.Twin (s.likeness credential a a')
      (fun stage x y => stage = .reading ∧ Except.Agree Eq x y) .reading
      (ExceptT.run (s.client.request (.refreshToken a.token.text)))
      (ExceptT.run (s.client.request (.refreshToken a'.token.text))) := by
  have hcall : Except.Agree (s.likeness credential a a').calls
      (s.client.call (.refreshToken a.token.text))
      (s.client.call (.refreshToken a'.token.text)) := agree_call
  unfold OAuth.Client.request
  generalize s.client.call (.refreshToken a.token.text) = x,
    s.client.call (.refreshToken a'.token.text) = y at hcall ⊢
  cases hcall with
  | error e => exact .done ⟨rfl, .error e⟩
  | ok hcalls =>
    exact .send hcalls fun _ => .now fun _ => .done ⟨rfl, Except.agree_refl (fun _ => rfl) _⟩

theorem twin_renew (device : DeviceId) :
    Command.Twin (s.likeness credential a a')
      (fun stage tokens tokens' => stage = .reading ∧ tokens = tokens') .reading
      (s.renew device a.token) (s.renew device a'.token) := by
  refine Command.Twin.tryCatch twin_request fun e => ?_
  dsimp only
  split
  · refine Command.twin_now.bind fun stage now _ h => ?_
    obtain ⟨rfl, rfl⟩ := h
    exact (twin_storeSignOut device now).bind fun _ _ _ _ => Command.twin_throw e
  · exact Command.twin_throw e

theorem agree_checkRefreshToken {r r' : Record} (h : Shared Record.refreshToken a a' r r')
    (device : DeviceId) :
    Except.Agree (fun token token' => token = a.token ∧ token' = a'.token)
      (checkRefreshToken r device a.token) (checkRefreshToken r' device a'.token) := by
  rw [checkRefreshToken_eq, checkRefreshToken_eq]
  by_cases htoken : r.refreshToken = some a.token
  · rw [if_pos htoken, if_pos (h.2.mp htoken)]
    exact .ok ⟨rfl, rfl⟩
  · rw [if_neg htoken, if_neg (mt h.2.mpr htoken)]
    exact .error _

theorem agree_build {d d' : Record.Draft} (htoken : d.accessToken = d'.accessToken)
    (hexpiry : d.expiry = d'.expiry) : Except.Agree (fun _ _ => True) d.build d'.build := by
  unfold Record.Draft.build
  rw [htoken, hexpiry]
  by_cases hempty : d'.accessToken.isEmpty = true
  · rw [if_pos hempty, if_pos hempty]
    exact .error _
  · rw [if_neg hempty, if_neg hempty]
    cases d'.expiry with
    | error e => exact .error e
    | ok expiry => exact .ok trivial

theorem twin_exchange (hdevice : device.text = a.device) (user : UserId) :
    Command.Twin (s.likeness Record.refreshToken a a') Settled .reading
      (s.exchange device user a.token) (s.exchange device user a'.token) := by
  refine (twin_ownedDevice hdevice user).bind fun stage r r' h => ?_
  obtain ⟨rfl, hshared⟩ := h
  refine (Command.twin_ofExcept (agree_checkRefreshToken hshared device)).bind
    fun stage token token' h => ?_
  obtain ⟨rfl, rfl, rfl⟩ := h
  refine (twin_renew device).bind fun stage tokens _ h => ?_
  obtain ⟨rfl, rfl⟩ := h
  refine Command.twin_now.bind fun stage issued _ h => ?_
  obtain ⟨rfl, rfl⟩ := h
  have hbuild : Except.Agree (fun _ _ => True) (renewal r device a.token tokens issued).build
      (renewal r' device a'.token tokens issued).build := agree_build rfl rfl
  refine (Command.twin_ofExcept (hbuild.mapError _)).bind fun stage record record' h => ?_
  obtain ⟨rfl, -⟩ := h
  have hswap : ∀ st st', (s.likeness Record.refreshToken a a').stores st st' →
      Except.Agree Eq (st.apply (.swap device (some a.token.text) record)).1
        (st'.apply (.swap device (some a'.token.text) record')).1 :=
    fun st st' h => h.1.swap (h.2 device hdevice) record record'
  refine (Command.twin_write _ _ hswap).bind fun stage outcome outcome' h => ?_
  obtain rfl := h
  refine (Command.twin_same _).bind fun stage' _ _ _ => ?_
  exact Command.twin_now.bind fun _ _ _ _ => Command.twin_pure trivial

theorem twin_refresh {q q' : RefreshRequest} (ha : q.appeal.Alike q'.appeal) :
    Command.Twin (s.likeness Record.refreshToken q.appeal q'.appeal) Settled .reading
      (s.refresh q) (s.refresh q') := by
  have hdevice : q'.device = q.device := ha.device.symm
  have huser : q'.user = q.user := ha.user.symm
  have hempty : q.refreshToken.isEmpty = q'.refreshToken.isEmpty := ha.isEmpty
  unfold refresh
  rw [hdevice, huser, hempty]
  refine (Command.twin_same _).bind fun stage device _ h => ?_
  obtain ⟨rfl, rfl, hok⟩ := h
  refine (Command.twin_same _).bind fun stage user _ h => ?_
  obtain ⟨rfl, rfl, -⟩ := h
  dsimp only
  split
  · exact Command.twin_throw _
  · exact (twin_exchange (required_ok hok) user).guarded device device

/-- What a task is asked with, if it is one that asks for the token of a device. -/
def Task.appeal? (bearer : String) : (task : Task) → task.Request → Option Appeal
  | .signIn, q | .signOut, q | .signOff, q => some (q.appeal bearer)
  | .refresh, q => some q.appeal
  | .signUp, _ | .listDevices, _ | .deleteDevices, _ => none

def Task.wanted : Task → Record → Option Secret
  | .refresh => Record.refreshToken
  | .signUp | .signIn | .signOut | .signOff | .listDevices | .deleteDevices => sessionCredential

/-- Whether a task succeeds, and the error that it fails with, tell nothing of the tokens that are
stored or presented, beyond whether one is presented and is the one stored. This holds of a task
that runs alone, and of one that runs among others that do what they like, with the stores alike
whenever they are asked. -/
theorem perform_conceals (s : Service) {task : Task} {bearer bearer' : String}
    {q q' : task.Request} {a a' : Appeal} (hq : task.appeal? bearer q = some a)
    (hq' : task.appeal? bearer' q' = some a') (ha : a.Alike a') :
    (∀ w w', (s.likeness task.wanted a a').Worlds w w' →
      Except.Agree (fun _ _ => True) (w.runCommand (s.perform bearer task q)).1
        (w'.runCommand (s.perform bearer' task q')).1) ∧
    ∀ trace trace' result result', (s.perform bearer task q).Yields trace result →
      (s.perform bearer' task q').Yields trace' result' →
      Trace.Alike (s.likeness task.wanted a a') trace trace' →
      Except.Agree (fun _ _ => True) result result' := by
  cases task with
  | signUp | listDevices | deleteDevices => cases hq
  | signIn =>
    cases hq
    cases hq'
    exact (twin_signIn ha).outcome
  | signOut =>
    cases hq
    cases hq'
    exact (twin_signOut ha).outcome
  | signOff =>
    cases hq
    cases hq'
    exact (twin_signOff ha).outcome
  | refresh =>
    cases hq
    cases hq'
    exact (twin_refresh ha).outcome

def strictPeer : Http.Peer := fun _ =>
  .answered ⟨400, ⟨[]⟩, Text.utf8 "\x7b\"error\":\"invalid_grant\"\x7d"⟩

/-- A session with some refresh token, and a provider that will not renew it. -/
def sampleStrictWorld (token : String) : World :=
  { sampleRefreshWorld strictPeer with
    store := .ofBackend
      (.memory (.ofRecords [{ sampleSession with refreshToken := some ⟨token⟩ }])) .empty }

theorem get?_sampleStrictWorld (token : String) (device : DeviceId) :
    (sampleStrictWorld token).store.table.get? device =
      if sampleSession.device = device then
        some { sampleSession with refreshToken := some ⟨token⟩ }
      else none :=
  Store.Table.get?_insert .empty _ device _

/-- The refresh token is the one stored in both worlds, and the provider refuses both in the same
words. -/
theorem perform_conceals_refused :
    (sampleStrictWorld "r").store.table ≠ (sampleStrictWorld "x").store.table ∧
      ((sampleStrictWorld "r").runCommand
          (Crowd.sampleService.perform "" .refresh ⟨"d", "a", ⟨"r"⟩⟩)).1 =
        .error sampleRefusal ∧
      ((sampleStrictWorld "x").runCommand
          (Crowd.sampleService.perform "" .refresh ⟨"d", "a", ⟨"x"⟩⟩)).1 =
        .error sampleRefusal := by
  have hstores : (sampleStrictWorld "r").store.SameButTokens (sampleStrictWorld "x").store := by
    refine ⟨fun device => ?_, rfl, fun l => .inl rfl, rfl⟩
    rw [get?_sampleStrictWorld, get?_sampleStrictWorld]
    split <;> rfl
  have hholds (device : DeviceId) : Store.BothHold Record.refreshToken device ⟨"r"⟩ ⟨"x"⟩
      (sampleStrictWorld "r").store (sampleStrictWorld "x").store := by
    intro r r' hr hr'
    rw [get?_sampleStrictWorld] at hr hr'
    split_ifs at hr hr' with hdevice
    cases hr
    cases hr'
    exact iff_of_true rfl rfl
  have ha : Appeal.Alike ⟨"d", "a", ⟨"r"⟩⟩ ⟨"d", "a", ⟨"x"⟩⟩ := ⟨rfl, rfl, by decide⟩
  have hw : (Crowd.sampleService.likeness Record.refreshToken ⟨"d", "a", ⟨"r"⟩⟩
      ⟨"d", "a", ⟨"x"⟩⟩).Worlds (sampleStrictWorld "r") (sampleStrictWorld "x") :=
    ⟨⟨rfl, fun _ _ _ => rfl⟩, hstores, fun device _ => hholds device⟩
  have hrefused : ((sampleStrictWorld "r").runCommand
      (Crowd.sampleService.perform "" .refresh ⟨"d", "a", ⟨"r"⟩⟩)).1 = .error sampleRefusal := by
    decide +kernel
  have hq : Task.appeal? "" .refresh ⟨"d", "a", ⟨"r"⟩⟩ = some ⟨"d", "a", ⟨"r"⟩⟩ := rfl
  have hq' : Task.appeal? "" .refresh ⟨"d", "a", ⟨"x"⟩⟩ = some ⟨"d", "a", ⟨"x"⟩⟩ := rfl
  have houtcome := (perform_conceals Crowd.sampleService hq hq' ha).1 _ _ hw
  have hdiffer : (sampleStrictWorld "r").store.table ≠ (sampleStrictWorld "x").store.table := by
    decide +kernel
  exact ⟨hdiffer, hrefused, houtcome.eq_error hrefused⟩

end DeviceAuth.Service
