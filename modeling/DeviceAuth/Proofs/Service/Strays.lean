import DeviceAuth.Proofs.Supersession
import DeviceAuth.Proofs.Tidiness

/-! Guards without a device. A renewal for a device that is not registered leaves one behind, as
does a sign-up that is not carried through, and a removal that fails halfway. Nothing else does. -/
namespace DeviceAuth

namespace Service

variable {s : Service} {device : DeviceId} {w : World}

theorem exchange_steady (s : Service) (device : DeviceId) (user : UserId) (presented : Secret) :
    (s.exchange device user presented).All Action.IsSteady :=
  exchange_all s user presented (fun _ ha => ha.isSteady) fun _ =>
    ⟨fun _ ha => ha.isRead.isSteady, fun _ => trivial, fun _ _ _ _ => trivial⟩

theorem register_steady (s : Service) (owner : UserId) (tokens : OAuth.Tokens) :
    (s.register device owner tokens).All Action.IsSteady :=
  register_all s tokens trivial trivial fun _ _ _ => trivial

theorem signOut_steady (bearer : String) (q : SessionRequest) :
    (signOut bearer q).All Action.IsSteady := by
  unfold signOut
  refine ((authorizeSession_reads bearer q).mono fun _ ha => ha.isSteady).bind fun record => ?_
  dsimp only
  split
  · refine (Command.all_now trivial).bind fun now => ?_
    exact (Command.all_store trivial).bind fun _ => Command.all_pure _
  · exact Command.all_pure _

theorem signOff_clears (bearer : String) (q : SessionRequest) (hw : w.Tidy) :
    (signOff bearer q).Clears w := by
  unfold signOff
  have hchecked := (authorizeSession_reads bearer q).mono fun _ ha => ha.isSteady
  refine (Command.clears_of_steady hchecked hw).bind fun record w' _ hw' => ?_
  refine Command.clears_remove record.device hw' (fun _ => ?_) fun _ _ => .inr rfl
  exact (Command.all_perform fun _ => nofun).bind fun _ => Command.all_pure _

theorem deleteDevice_clears (user : UserId) (device : DeviceId) (hw : w.Tidy) :
    (deleteDevice user device).Clears w := by
  unfold deleteDevice
  have hlooked : (Command.store (.fetch device)).All Action.IsSteady := Command.all_store trivial
  refine (Command.clears_of_steady hlooked hw).bind fun found w' _ hw' => ?_
  split
  · exact Command.clears_of_steady (Command.all_pure _) hw'
  · refine Command.clears_remove device hw' (fun removed => ?_) fun removed w'' => ?_
    · split
      · exact Command.all_pure _
      · exact (Command.all_perform fun _ => nofun).bind fun _ => Command.all_pure _
    · cases removed with
      | none => exact .inl ⟨rfl, rfl⟩
      | some r => exact .inr rfl

theorem deleteAll_clears (user : UserId) (devices : List DeviceId) (hw : w.Tidy) :
    (deleteAll user devices).Clears w := by
  induction devices generalizing w with
  | nil => exact Command.clears_of_steady (Command.all_pure _) hw
  | cons device rest ih =>
    refine (deleteDevice_clears user device hw).bind fun gone w' _ hw' => ?_
    refine (ih hw').bind fun others w'' _ hw'' => ?_
    exact Command.clears_of_steady (Command.all_pure _) hw''

theorem deleteDevices_clears {bearer : String} (hs : (s.verifier bearer).All Action.IsRead)
    (q : DeleteRequest) (hw : w.Tidy) : (s.deleteDevices bearer q).Clears w := by
  have hend (targets : List DeviceId) (user : UserId) {w : World} (hw : w.Tidy) :
      (deleteAll user targets >>= fun gone =>
        (pure ⟨gone.map (·.text)⟩ : Command DeleteAnswer)).Clears w :=
    (deleteAll_clears user targets hw).bind fun gone w' _ hw' =>
      Command.clears_of_steady (Command.all_pure _) hw'
  unfold deleteDevices
  refine (Command.clears_of_steady (hs.mono fun _ ha => ha.isSteady) hw).bind
    fun user w' _ hw' => ?_
  refine (Command.clears_of_steady (Command.all_ofExcept _) hw').bind fun requested w'' _ hw'' => ?_
  dsimp only
  split
  · have hlisted : (Command.store (.list user)).All Action.IsSteady := Command.all_store trivial
    exact (Command.clears_of_steady hlisted hw'').bind fun records w₃ _ hw₃ => hend _ user hw₃
  · exact hend requested user hw''

/-- The request is complete, and the provider issues tokens for it and names their owner. -/
structure SignUpRequest.IsGranted (s : Service) (w : World) (device : DeviceId)
    (q : SignUpRequest) : Prop where
  device_eq : q.device = device.text
  code_ne : q.code.text ≠ ""
  provider_ok : s.checkProvider q.provider = .ok ()
  owned : ∃ tokens owner,
    (w.runCommand (s.client.request (.authorizationCode q.code.text))).1 = .ok tokens ∧
      s.client.owner tokens = .ok owner

/-- A sign-up that is not granted comes to nothing; any other goes on behind the guard. -/
theorem signUp_cases (s : Service) (q : SignUpRequest) (w : World) :
    ((∀ device, ¬q.IsGranted s w device) ∧ ∃ e, w.runCommand (s.signUp q) = (.error e, w)) ∨
      ∃ device tokens owner, q.IsGranted s w device ∧
        w.runCommand (s.signUp q) =
          w.runCommand (.guarded device (s.register device owner tokens)) := by
  unfold signUp
  obtain ⟨e, hd, he⟩ | ⟨device, hd, hrest⟩ :=
    World.runCommand_bind_cases (Command.all_ofExcept _) _ w
  · refine .inl ⟨fun device h => ?_, e, he⟩
    rw [World.runCommand_ofExcept, h.device_eq, required_text] at hd
    cases hd
  rw [hrest]
  dsimp only
  split
  · rename_i hcode
    exact .inl ⟨fun device h => h.code_ne (by simpa using hcode), _, rfl⟩
  rename_i hcode
  obtain ⟨e, hp, he⟩ | ⟨_, hp, hrest⟩ :=
    World.runCommand_bind_cases (Command.all_ofExcept (s.checkProvider q.provider)) _ w
  · refine .inl ⟨fun device h => ?_, e, he⟩
    cases hp.symm.trans h.provider_ok
  rw [hrest]
  obtain ⟨e, ht, he⟩ | ⟨tokens, ht, hrest⟩ :=
    World.runCommand_bind_cases (s.client.request_reads _) _ w
  · refine .inl ⟨fun device h => ?_, e, he⟩
    obtain ⟨tokens, -, htokens, -⟩ := h.owned
    cases ht.symm.trans htokens
  rw [hrest]
  obtain ⟨e, ho, he⟩ | ⟨owner, ho, hrest⟩ :=
    World.runCommand_bind_cases (Command.all_ofExcept _) _ w
  · refine .inl ⟨fun device h => ?_, e, he⟩
    obtain ⟨tokens', owner, htokens, howner⟩ := h.owned
    cases ht.symm.trans htokens
    cases ho.symm.trans howner
  · exact .inr ⟨device, tokens, owner, ⟨(required_ok hd).symm, by simpa using hcode, hp,
      tokens, owner, ht, ho⟩, hrest⟩

theorem tidy_signUp_iff (s : Service) (q : SignUpRequest) (hw : w.Tidy) :
    (w.runCommand (s.signUp q)).2.Tidy ↔ ∀ device, ¬(q.IsGranted s w device ∧
      (w.runCommand (s.signUp q)).2.record? device = none) := by
  obtain ⟨hnone, e, he⟩ | ⟨device, tokens, owner, hgranted, hrun⟩ := signUp_cases s q w
  · rw [he]
    exact iff_of_true hw fun device h => hnone device h.1
  · rw [hrun]
    refine (World.tidy_guarded_iff (register_steady s owner tokens) hw).trans ?_
    refine ⟨fun h d hd => ?_, fun h hgone => h device ⟨hgranted, hgone⟩⟩
    obtain rfl : device = d := Identifier.ext_text (hgranted.device_eq.symm.trans hd.1.device_eq)
    exact h hd.2

theorem unregistered_refresh (s : Service) (q : RefreshRequest) (h : w.record? device = none) :
    (w.runCommand (s.refresh q)).2.record? device = none := by
  by_contra hafter
  obtain ⟨-, r, hr, -⟩ := record?_refresh fun heq => hafter (heq.trans h)
  cases h.symm.trans hr

theorem tidy_refresh_iff (s : Service) (q : RefreshRequest) (hw : w.Tidy) :
    (w.runCommand (s.refresh q)).2.Tidy ↔
      ∀ device, ¬(q.IsFor device ∧ w.record? device = none) := by
  obtain ⟨hfor, reason, he⟩ | ⟨device, user, hdevice, huser, htoken⟩ := refresh_cases s q
  · rw [he]
    exact iff_of_true hw fun device h => hfor device h.1
  · have hrun := congrArg w.runCommand (refresh_eq s hdevice huser htoken)
    have hbody := exchange_steady s device user q.refreshToken
    have hkept (hgone : w.record? device = none) := unregistered_refresh s q hgone
    rw [hrun] at hkept ⊢
    refine (World.tidy_guarded_iff hbody hw).trans ⟨fun h d ⟨hd, hgone⟩ => ?_, fun h hgone => ?_⟩
    · obtain rfl : device = d := Identifier.ext_text (hdevice.symm.trans hd.1)
      exact h (hkept hgone)
    · refine h device ⟨⟨hdevice, ⟨user, huser⟩, htoken⟩, ?_⟩
      by_contra hthere
      exact (World.steady_guarded hbody w device).2 device hthere hgone

end Service

namespace Turn

def trace (s : Service) (t : Turn) : Trace :=
  t.before.trace (ExceptT.run (s.perform t.call.bearer t.call.task t.call.request))

/-- The call leaves the guard of a device behind that has no record. -/
def Strands (s : Service) (device : DeviceId) (t : Turn) : Prop :=
  match t with
  | ⟨⟨_, .refresh, q⟩, w⟩ => Service.RefreshRequest.IsFor device q ∧ w.record? device = none
  | ⟨⟨_, .signUp, q⟩, w⟩ =>
    Service.SignUpRequest.IsGranted s w device q ∧ (t.run s).2.record? device = none
  | _ => ∃ m ∈ t.trace s, m.Loses device

end Turn

/-- Calls one after the other, the last of them first, while nobody else has to do with records or
guards. Everything else may also change by itself. -/
inductive Queue (s : Service) (start : World) : List Turn → World → Prop
  | start : Queue s start [] start
  | turn {history : List Turn} {w : World} (h : Queue s start history w) (call : Call) :
    Queue s start (⟨call, w⟩ :: history) (Turn.run s ⟨call, w⟩).2
  | elsewhere {history : List Turn} {w w' : World} (h : Queue s start history w)
    (htable : w'.table = w.table) (hguards : w'.guards = w.guards) : Queue s start history w'

namespace Service

variable {s : Service} {w : World}

theorem tidy_turn_iff (hs : ∀ bearer, (s.verifier bearer).All Action.IsRead) (t : Turn)
    (hw : t.before.Tidy) : (t.run s).2.Tidy ↔ ∀ device, ¬t.Strands s device := by
  obtain ⟨⟨bearer, task, q⟩, w⟩ := t
  have hclears {α : Type} {c : Command α} (h : c.Clears w) : (w.runCommand c).2.Tidy ↔
      ∀ device, ¬∃ m ∈ w.trace (ExceptT.run c), m.Loses device := by
    refine h.tidy_iff.trans ⟨fun h device ⟨m, hm, hloses⟩ => h m hm device hloses, ?_⟩
    exact fun h m hm device hloses => h device ⟨m, hm, hloses⟩
  cases task with
  | signUp => exact tidy_signUp_iff s q hw
  | refresh => exact tidy_refresh_iff s q hw
  | signIn =>
    have hreads := (signIn_reads bearer q).mono fun _ ha => ha.isSteady
    exact hclears (Command.clears_of_steady hreads hw)
  | listDevices =>
    have hreads := (listDevices_reads q (hs bearer)).mono fun _ ha => ha.isSteady
    exact hclears (Command.clears_of_steady hreads hw)
  | signOut => exact hclears (Command.clears_of_steady (signOut_steady bearer q) hw)
  | signOff => exact hclears (signOff_clears bearer q hw)
  | deleteDevices => exact hclears (deleteDevices_clears (hs bearer) q hw)

theorem tidy_of_queue {start : World} (hstart : start.guards.entries = []) {history : List Turn}
    (h : Queue s start history w) (htidy : ∀ t ∈ history, (t.run s).2.Tidy) : w.Tidy := by
  induction h with
  | start =>
    intro d hd
    rw [Guards.devices, hstart] at hd
    cases hd
  | turn h call ih => exact htidy _ List.mem_cons_self
  | elsewhere h htable hguards ih =>
    intro d hd
    rw [World.record?, htable]
    exact ih htidy d (hguards ▸ hd)

/-- Calls are made one after the other, and no guard is kept at first. After each of them guards are
kept for registered devices only, exactly if none of them leaves one behind. -/
theorem tidy_iff_of_queue (hs : ∀ bearer, (s.verifier bearer).All Action.IsRead) {start : World}
    (hstart : start.guards.entries = []) {history : List Turn} (h : Queue s start history w) :
    (∀ t ∈ history, (t.run s).2.Tidy) ↔ ∀ t ∈ history, ∀ device, ¬t.Strands s device := by
  induction h with
  | start => exact iff_of_true nofun nofun
  | elsewhere h htable hguards ih => exact ih
  | @turn history w h call ih =>
    have hstep (htidy : ∀ t ∈ history, (t.run s).2.Tidy) :
        (Turn.run s ⟨call, w⟩).2.Tidy ↔ ∀ device, ¬Turn.Strands s device ⟨call, w⟩ :=
      tidy_turn_iff hs ⟨call, w⟩ (tidy_of_queue hstart h htidy)
    rw [List.forall_mem_cons, List.forall_mem_cons]
    refine ⟨fun ⟨hlast, htidy⟩ => ⟨(hstep htidy).mp hlast, ih.mp htidy⟩, fun ⟨hlast, hkept⟩ => ?_⟩
    have htidy := ih.mpr hkept
    exact ⟨(hstep htidy).mpr hlast, htidy⟩

/-- The guard of a registered device stays after its renewal. -/
theorem tidy_iff_of_queue_renewal :
    ∃ (history : List Turn) (w : World),
      Queue Crowd.sampleService (sampleRefreshWorld Crowd.samplePeer) history w ∧
        w.guards.devices = [Record.sample.device] ∧
        ∀ t ∈ history, (t.run Crowd.sampleService).2.Tidy := by
  let start := sampleRefreshWorld Crowd.samplePeer
  let renewal : Turn := ⟨⟨"", .refresh, sampleRefresh⟩, start⟩
  let w := (renewal.run Crowd.sampleService).2
  have hqueue : Queue Crowd.sampleService start [renewal] w := .turn .start renewal.call
  have hdevices : w.guards.devices = [Record.sample.device] := by decide +kernel
  have hregistered : (start.record? Record.sample.device).isSome := by decide +kernel
  have hkept : ∀ t ∈ [renewal], ∀ device, ¬t.Strands Crowd.sampleService device := by
    intro t ht device hstrands
    rw [List.mem_singleton.mp ht] at hstrands
    obtain ⟨⟨hdevice, -⟩, hnone⟩ := hstrands
    obtain rfl : Record.sample.device = device := Identifier.ext_text hdevice
    rw [hnone] at hregistered
    cases hregistered
  have htidy := (tidy_iff_of_queue Verifier.ofStore_reads rfl hqueue).mpr hkept
  exact ⟨[renewal], w, hqueue, hdevices, htidy⟩

/-- Stray guards have no bound: those of any devices can come to be kept without any device being
registered. -/
theorem exists_queue_unregistered (s : Service) (start : World) (user : UserId) {token : Secret}
    (htoken : token.text ≠ "") (devices : List DeviceId) :
    ∃ history w, Queue s start history w ∧
      (∀ d, start.record? d = none → w.record? d = none) ∧ ∀ d ∈ devices, d ∈ w.guards.devices := by
  induction devices with
  | nil => exact ⟨[], start, .start, fun _ => id, nofun⟩
  | cons device rest ih =>
    obtain ⟨history, w, hqueue, hnone, hdevices⟩ := ih
    let q : RefreshRequest := ⟨device.text, user.text, token⟩
    have hrun := congrArg w.runCommand (refresh_eq s (q := q) rfl rfl htoken)
    have hbody := exchange_steady s device user token
    have hkept : ∀ d, d ∈ (w.runCommand (s.refresh q)).2.guards.devices ↔
        d = device ∨ d ∈ w.guards.devices := by
      rw [hrun]
      exact (World.steady_guarded hbody w device).1
    refine ⟨_, _, hqueue.turn ⟨"", .refresh, q⟩, fun d hd => ?_, fun d hd => ?_⟩
    · exact unregistered_refresh s q (hnone d hd)
    · exact (hkept d).mpr ((List.mem_cons.mp hd).imp_right (hdevices d))

/-- Renewals for two devices that do not exist leave a guard each. -/
theorem guards_of_unregistered :
    ∃ (start w : World) (history : List Turn) (device : DeviceId),
      start.guards.entries = [] ∧ Queue Crowd.sampleService start history w ∧
        w.table.records = [] ∧ w.guards.devices = [device, Record.sample.device] ∧ ¬w.Tidy := by
  let start : World :=
    { Crowd.sampleWorld with store := .ofBackend (.memory .empty) .empty }
  let renewal : Turn := ⟨⟨"", .refresh, sampleRefresh⟩, start⟩
  let other : Turn := ⟨⟨"", .refresh, { sampleRefresh with device := "e" }⟩,
    (renewal.run Crowd.sampleService).2⟩
  let w := (other.run Crowd.sampleService).2
  have hqueue : Queue Crowd.sampleService start [other, renewal] w :=
    .turn (.turn .start renewal.call) other.call
  have hrecords : w.table.records = [] := by decide +kernel
  have hdevices : w.guards.devices = [⟨"e", by decide⟩, Record.sample.device] := by decide +kernel
  have hnone : w.record? Record.sample.device = none := by decide +kernel
  refine ⟨start, w, _, _, rfl, hqueue, hrecords, hdevices, fun htidy => ?_⟩
  exact htidy Record.sample.device (by rw [hdevices]; simp) hnone

end Service

end DeviceAuth
