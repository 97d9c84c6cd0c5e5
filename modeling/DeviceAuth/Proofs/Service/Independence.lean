import DeviceAuth.Proofs.Authority
import DeviceAuth.Proofs.Locality

/-! Requests about one device keep to it, so requests about two devices can be served in either
order. -/
namespace DeviceAuth.Service

variable {α : Type} {D : DeviceId → Prop} {w : World} {device : DeviceId}

theorem concerns_fetch (hd : D device) : (Store.Operation.fetch device).Concerns D :=
  ⟨trivial, device, rfl, hd⟩

theorem concerns_signOut (hd : D device) (now : Instant) :
    (Store.Operation.signOut device now).Concerns D := ⟨trivial, device, rfl, hd⟩

theorem concerns_remove (hd : D device) : (Store.Operation.remove device).Concerns D :=
  ⟨trivial, device, rfl, hd⟩

theorem concerns_save {record : Record} (hd : D record.device) :
    (Store.Operation.save record).Concerns D := ⟨trivial, record.device, rfl, hd⟩

theorem concerns_swap {record : Record} (hdevice : record.device = device) (hd : D device)
    (expected : Option String) : (Store.Operation.swap device expected record).Concerns D :=
  ⟨hdevice, device, rfl, hd⟩

theorem keepsTo_request (c : OAuth.Client) (grant : OAuth.Grant) :
    (c.request grant).KeepsTo D w := by
  refine (Command.keepsTo_ofExcept _).bind fun call _ => ?_
  refine (Command.keepsTo_send call).bind fun delivery _ => ?_
  exact Command.keepsTo_now.bind fun now _ => Command.keepsTo_ofExcept _

theorem keepsTo_ownedDevice (hd : D device) (user : UserId) :
    (ownedDevice device user).KeepsTo D w :=
  (Command.keepsTo_store (concerns_fetch hd)).bind fun _ _ => Command.keepsTo_ofExcept _

theorem keepsTo_authorizeSession (bearer : String) (q : SessionRequest) :
    (authorizeSession bearer q).KeepsTo (·.text = q.device) w := by
  refine (Command.keepsTo_ofExcept _).bind fun device hdevice => ?_
  have hd : device.text = q.device := required_ok hdevice
  refine (Command.keepsTo_ofExcept _).bind fun user _ => ?_
  dsimp only
  split
  · exact Command.keepsTo_throw _
  · refine (keepsTo_ownedDevice hd user).bind fun record _ => ?_
    split
    · exact Command.keepsTo_throw _
    · exact Command.keepsTo_pure _

theorem keepsTo_of_authorized {bearer : String} {q : SessionRequest} {f : Record → Command α}
    (hw : w.table.WellFormed)
    (hf : ∀ r : Record, r.device.text = q.device → ∀ w', (f r).KeepsTo (·.text = q.device) w') :
    (authorizeSession bearer q >>= f).KeepsTo (·.text = q.device) w := by
  refine (keepsTo_authorizeSession bearer q).bind fun r hr => hf r ?_ _
  obtain ⟨device, hdevice, hrecord, -⟩ := authorizeSession_ok hr
  rw [hw.device_of_get? hrecord, hdevice]

theorem keepsTo_signIn (hw : w.table.WellFormed) (bearer : String) (q : SessionRequest) :
    (signIn bearer q).KeepsTo (·.text = q.device) w := by
  refine keepsTo_of_authorized hw fun r _ w' => ?_
  refine Command.keepsTo_now.bind fun now _ => ?_
  split
  · exact Command.keepsTo_throw _
  · exact Command.keepsTo_pure _

theorem keepsTo_signOut (hw : w.table.WellFormed) (bearer : String) (q : SessionRequest) :
    (signOut bearer q).KeepsTo (·.text = q.device) w := by
  refine keepsTo_of_authorized hw fun r hr w' => ?_
  dsimp only
  split
  · refine Command.keepsTo_now.bind fun now _ => ?_
    exact (Command.keepsTo_store (concerns_signOut hr now)).bind fun _ _ => Command.keepsTo_pure _
  · exact Command.keepsTo_pure _

theorem keepsTo_signOff (hw : w.table.WellFormed) (bearer : String) (q : SessionRequest) :
    (signOff bearer q).KeepsTo (·.text = q.device) w := by
  refine keepsTo_of_authorized hw fun r hr w' => ?_
  refine (Command.keepsTo_store (concerns_remove hr)).bind fun _ _ => ?_
  exact (Command.keepsTo_forgetGuard r.device).bind fun _ _ => Command.keepsTo_pure _

theorem keepsTo_register (s : Service) (hd : D device) (owner : UserId) (tokens : OAuth.Tokens) :
    (s.register device owner tokens).KeepsTo D w := by
  refine (Command.keepsTo_store (concerns_fetch hd)).bind fun found _ => ?_
  refine (Command.keepsTo_ofExcept _).bind fun _ _ => ?_
  refine Command.keepsTo_now.bind fun issued _ => ?_
  refine (Command.keepsTo_ofExcept _).bind fun record hrecord => ?_
  have hdevice : record.device = device := (Record.Draft.build_ok (build_ok hrecord)).1
  refine Command.keepsTo_now.bind fun now _ => ?_
  exact (Command.keepsTo_store (concerns_save (hdevice ▸ hd))).bind fun _ _ =>
    Command.keepsTo_pure _

theorem keepsTo_signUp (s : Service) (q : SignUpRequest) :
    (s.signUp q).KeepsTo (·.text = q.device) w := by
  refine (Command.keepsTo_ofExcept _).bind fun device hdevice => ?_
  dsimp only
  split
  · exact Command.keepsTo_throw _
  · refine (Command.keepsTo_ofExcept _).bind fun _ _ => ?_
    refine (keepsTo_request s.client _).bind fun tokens _ => ?_
    refine (Command.keepsTo_ofExcept _).bind fun owner _ => ?_
    exact (keepsTo_register s (required_ok hdevice) owner tokens).guarded

theorem keepsTo_renew (s : Service) (hd : D device) (token : Secret) :
    (s.renew device token).KeepsTo D w := by
  refine (keepsTo_request s.client _).tryCatch fun e => ?_
  dsimp only
  split
  · refine Command.keepsTo_now.bind fun now _ => ?_
    exact (Command.keepsTo_store (concerns_signOut hd now)).bind fun _ _ =>
      Command.keepsTo_throw e
  · exact Command.keepsTo_throw e

theorem keepsTo_exchange (s : Service) (hd : D device) (user : UserId) (presented : Secret) :
    (s.exchange device user presented).KeepsTo D w := by
  refine (keepsTo_ownedDevice hd user).bind fun current _ => ?_
  refine (Command.keepsTo_ofExcept _).bind fun token _ => ?_
  refine (keepsTo_renew s hd token).bind fun tokens _ => ?_
  refine Command.keepsTo_now.bind fun issued _ => ?_
  refine (Command.keepsTo_ofExcept _).bind fun record hrecord => ?_
  have hdevice : record.device = device := (Record.Draft.build_ok (build_ok hrecord)).1
  refine (Command.keepsTo_store (concerns_swap hdevice hd _)).bind fun outcome _ => ?_
  refine (Command.keepsTo_ofExcept _).bind fun _ _ => ?_
  exact Command.keepsTo_now.bind fun now _ => Command.keepsTo_pure _

theorem keepsTo_refresh (s : Service) (q : RefreshRequest) :
    (s.refresh q).KeepsTo (·.text = q.device) w := by
  refine (Command.keepsTo_ofExcept _).bind fun device hdevice => ?_
  refine (Command.keepsTo_ofExcept _).bind fun user _ => ?_
  dsimp only
  split
  · exact Command.keepsTo_throw _
  · exact (keepsTo_exchange s (required_ok hdevice) user q.refreshToken).guarded

def named? : (task : Task) → task.Request → Option String
  | .signUp, q => some q.device
  | .signIn, q => some q.device
  | .signOut, q => some q.device
  | .signOff, q => some q.device
  | .refresh, q => some q.device
  | .listDevices, _ => none
  | .deleteDevices, _ => none

theorem keepsTo_perform (s : Service) (hw : w.table.WellFormed) (bearer : String) {task : Task}
    {q : task.Request} {text : String} (hnamed : named? task q = some text) :
    (s.perform bearer task q).KeepsTo (·.text = text) w := by
  cases task with
  | listDevices | deleteDevices => cases hnamed
  | signUp =>
    cases hnamed
    exact keepsTo_signUp s q
  | signIn =>
    cases hnamed
    exact keepsTo_signIn hw bearer q
  | signOut =>
    cases hnamed
    exact keepsTo_signOut hw bearer q
  | signOff =>
    cases hnamed
    exact keepsTo_signOff hw bearer q
  | refresh =>
    cases hnamed
    exact keepsTo_refresh s q

/-- Two requests that name different devices are answered alike in either order, and leave the same
records and the same files, whatever keeps the records and whatever fails. Neither changes the
record of a device that it does not name. -/
theorem perform_comm (s : Service) (hw : w.table.WellFormed) {a b : Call} {text text' : String}
    (ha : named? a.task a.request = some text) (hb : named? b.task b.request = some text')
    (hne : text ≠ text') :
    let first := Turn.run s ⟨a, w⟩
    let second := Turn.run s ⟨b, w⟩
    ((Turn.run s ⟨b, first.2⟩).1 = second.1 ∧ (Turn.run s ⟨a, second.2⟩).1 = first.1) ∧
      Store.Same (Turn.run s ⟨b, first.2⟩).2.store (Turn.run s ⟨a, second.2⟩).2.store ∧
      (∀ d : DeviceId, d.text ≠ text → first.2.record? d = w.record? d) ∧
      ∀ d : DeviceId, d.text ≠ text' → second.2.record? d = w.record? d :=
  Program.KeepsTo.comm hw (keepsTo_perform s hw a.bearer ha) (keepsTo_perform s hw b.bearer hb)
    fun _ hd hd' => hne (hd.symm.trans hd')

def sampleNewcomer : Call := ⟨"", .signUp, ⟨"e", ⟨"b"⟩, ""⟩⟩

/-- An owner signs a device off and somebody else signs another one up, in either order. -/
theorem perform_comm_sign_off_sign_up :
    let first := Turn.run Crowd.sampleService ⟨Crowd.sampleSignOff, Crowd.sampleWorld⟩
    let second := Turn.run Crowd.sampleService ⟨sampleNewcomer, Crowd.sampleWorld⟩
    let answer : SignUpAnswer := ⟨⟨"h.eyJzdWIiOiJiIn0."⟩, "b", .empty, -1, ""⟩
    first.1 = .ok {} ∧ (Turn.run Crowd.sampleService ⟨Crowd.sampleSignOff, second.2⟩).1 = .ok {} ∧
      second.1 = .ok answer ∧
      (Turn.run Crowd.sampleService ⟨sampleNewcomer, first.2⟩).1 = .ok answer := by
  have hw : Crowd.sampleWorld.table.WellFormed := Store.Table.wellFormed_ofRecords _
  have hleft : (Crowd.sampleWorld.runCommand (signOff "t" ⟨"d", "a", ⟨"t"⟩⟩)).1 = .ok {} := by
    decide +kernel
  have hentered : (Crowd.sampleWorld.runCommand (Crowd.sampleService.signUp ⟨"e", ⟨"b"⟩, ""⟩)).1 =
      .ok ⟨⟨"h.eyJzdWIiOiJiIn0."⟩, "b", .empty, -1, ""⟩ := by
    decide +kernel
  have hd : named? Crowd.sampleSignOff.task Crowd.sampleSignOff.request = some "d" := rfl
  have he : named? sampleNewcomer.task sampleNewcomer.request = some "e" := rfl
  obtain ⟨⟨henter, hleave⟩, -⟩ := perform_comm Crowd.sampleService hw hd he (by decide)
  exact ⟨hleft, hleave.trans hleft, hentered, henter.trans hentered⟩

end DeviceAuth.Service
