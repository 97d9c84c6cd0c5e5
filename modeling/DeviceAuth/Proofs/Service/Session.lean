import DeviceAuth.Proofs.Service.Basic
import DeviceAuth.Service.Session

/-! Sessions: what is checked before a command on a session goes on, and which record such a command
can change. -/
namespace DeviceAuth.Service

/-- The request names the owner of a record and presents its access token. -/
def SessionRequest.Authorizes (q : SessionRequest) (bearer : String) (r : Record) : Prop :=
  q.user = r.owner.text ∧ q.presented bearer ≠ "" ∧ r.accessToken.text = q.presented bearer

theorem authorizeSession_reads (bearer : String) (q : SessionRequest) :
    (authorizeSession bearer q).All Action.IsRead := by
  unfold authorizeSession
  refine (Command.all_ofExcept _).bind fun device => ?_
  refine (Command.all_ofExcept _).bind fun user => ?_
  dsimp only
  split
  · exact Command.all_throw _
  · refine (ownedDevice_reads device user).bind fun record => ?_
    split
    · exact Command.all_throw _
    · exact Command.all_pure _

theorem authorizeSession_ok {bearer : String} {q : SessionRequest} {w : World} {r : Record}
    (h : (w.runCommand (authorizeSession bearer q)).1 = .ok r) :
    ∃ device : DeviceId, q.device = device.text ∧ w.record? device = some r ∧
      q.Authorizes bearer r := by
  unfold authorizeSession at h
  obtain ⟨e, -, he⟩ | ⟨device, hd, hrest⟩ :=
    World.runCommand_bind_cases (Command.all_ofExcept _) _ w
  · rw [he] at h
    cases h
  rw [hrest] at h
  obtain ⟨e, -, he⟩ | ⟨user, hu, hrest⟩ :=
    World.runCommand_bind_cases (Command.all_ofExcept _) _ w
  · rw [he] at h
    cases h
  rw [hrest] at h
  dsimp only at h
  split at h
  · cases h
  rename_i hpresented
  obtain ⟨e, -, he⟩ | ⟨record, ho, hrest⟩ :=
    World.runCommand_bind_cases (ownedDevice_reads device user) _ w
  · rw [he] at h
    cases h
  rw [hrest] at h
  split at h
  · cases h
  rename_i hagrees
  cases h
  obtain ⟨hr, howner⟩ := ownedDevice_ok ho
  have htoken : r.accessToken.text = q.presented bearer := by simpa using hagrees
  exact ⟨device, (required_ok hd).symm, hr, howner ▸ (required_ok hu).symm, hpresented, htoken⟩

theorem signIn_reads (bearer : String) (q : SessionRequest) :
    (signIn bearer q).All Action.IsRead := by
  unfold signIn
  refine (authorizeSession_reads bearer q).bind fun record => ?_
  refine (Command.all_now trivial).bind fun now => ?_
  split
  · exact Command.all_throw _
  · exact Command.all_pure _

theorem record?_of_authorized {α : Type} {bearer : String} {q : SessionRequest}
    {f : Record → Command α} (hf : ∀ r, (f r).All (Action.StaysWith r.device r.owner)) {w : World}
    (hw : w.table.WellFormed) {d : DeviceId}
    (h : (w.runCommand (authorizeSession bearer q >>= f)).2.record? d ≠ w.record? d) :
    q.device = d.text ∧ ∃ r, w.record? d = some r ∧ q.Authorizes bearer r ∧
      ∀ r', (w.runCommand (authorizeSession bearer q >>= f)).2.record? d = some r' →
        r'.owner = r.owner := by
  obtain ⟨e, -, he⟩ | ⟨r, ha, hrest⟩ :=
    World.runCommand_bind_cases (authorizeSession_reads bearer q) f w
  · rw [he] at h
    exact absurd rfl h
  · rw [hrest] at h ⊢
    obtain ⟨device, hdevice, hr, hauthorizes⟩ := authorizeSession_ok ha
    have hkey : r.device = device := hw.device_of_get? hr
    have hd : d = device := by
      by_contra hne
      exact h (World.record?_run_of_ne (hf r) (hkey ▸ hne) w)
    subst hd
    have hbefore : ∀ r', w.record? d = some r' → r'.owner = r.owner := by
      intro r' hr'
      rw [hr] at hr'
      exact congrArg Record.owner (Option.some.inj hr').symm
    exact ⟨hdevice, r, hr, hauthorizes, World.owner_run (hkey ▸ hf r) hbefore⟩

theorem signOut_free (bearer : String) (q : SessionRequest) :
    (signOut bearer q).All Action.IsFree := by
  unfold signOut
  refine ((authorizeSession_reads bearer q).mono fun _ => Action.IsRead.isFree).bind
    fun record => ?_
  dsimp only
  split
  · refine (Command.all_now trivial).bind fun now => ?_
    exact (Command.all_store trivial).bind fun _ => Command.all_pure _
  · exact Command.all_pure _

theorem signOff_free (bearer : String) (q : SessionRequest) :
    (signOff bearer q).All Action.IsFree := by
  unfold signOff
  refine ((authorizeSession_reads bearer q).mono fun _ => Action.IsRead.isFree).bind
    fun record => ?_
  refine (Command.all_store trivial).bind fun _ => ?_
  exact (Command.all_perform trivial).bind fun _ => Command.all_pure _

theorem record?_signOut {bearer : String} {q : SessionRequest} {w : World}
    (hw : w.table.WellFormed) {d : DeviceId}
    (h : (w.runCommand (signOut bearer q)).2.record? d ≠ w.record? d) :
    q.device = d.text ∧ ∃ r, w.record? d = some r ∧ q.Authorizes bearer r ∧
      ∀ r', (w.runCommand (signOut bearer q)).2.record? d = some r' → r'.owner = r.owner := by
  refine record?_of_authorized (fun r => ?_) hw h
  dsimp only
  split
  · refine (Command.all_now trivial).bind fun now => ?_
    have hsignOut : (Action.store (.signOut r.device now)).StaysWith r.device r.owner := rfl
    exact (Command.all_store hsignOut).bind fun _ => Command.all_pure _
  · exact Command.all_pure _

theorem record?_signOff {bearer : String} {q : SessionRequest} {w : World}
    (hw : w.table.WellFormed) {d : DeviceId}
    (h : (w.runCommand (signOff bearer q)).2.record? d ≠ w.record? d) :
    q.device = d.text ∧ ∃ r, w.record? d = some r ∧ q.Authorizes bearer r ∧
      ∀ r', (w.runCommand (signOff bearer q)).2.record? d = some r' → r'.owner = r.owner := by
  refine record?_of_authorized (fun r => ?_) hw h
  have hremove : (Action.store (.remove r.device)).StaysWith r.device r.owner := rfl
  refine (Command.all_store hremove).bind fun _ => ?_
  exact (Command.all_perform trivial).bind fun _ => Command.all_pure _

end DeviceAuth.Service
