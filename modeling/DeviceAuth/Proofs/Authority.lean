import DeviceAuth.Proofs.Integrity
import DeviceAuth.Proofs.Ownership
import DeviceAuth.Proofs.Service.Trace

/-! Signing out, signing off and deleting while others act. Each of these looks at a record, sees
that it is the user's, and then writes by the name of the device alone. -/
namespace DeviceAuth

/-- The device whose session or registration an action ends. -/
def Action.ends? : Action → Option DeviceId
  | .store (.signOut device _) | .store (.remove device) => some device
  | _ => none

theorem Action.IsRead.ends? {a : Action} (h : a.IsRead) : a.ends? = none := by
  cases a with
  | store op =>
    cases op with
    | signOut _ _ | remove _ => cases h
    | _ => rfl
  | _ => rfl

/-- The moment shows a record of the user, that of a certain device if records are kept under the
devices that they name. -/
def Moment.Shows (user : UserId) (device : DeviceId) (m : Moment) : Prop :=
  ∃ key r, m.action = .store (.fetch key) ∧ m.before.record? key = some r ∧ r.owner = user ∧
    (m.before.table.WellFormed → key = device)

namespace Trace

/-- Before anything of a device is ended, its record was seen to be the user's. -/
def Checked (user : UserId) (t : Trace) : Prop :=
  ∀ before m after device, t = before ++ m :: after → m.action.ends? = some device →
    ∃ look ∈ before, look.Shows user device

variable {user : UserId} {a b : Trace}

theorem checked_of_all (h : ∀ m ∈ a, m.action.ends? = none) : a.Checked user := by
  rintro before m after device rfl hends
  cases (h m (by simp)).symm.trans hends

theorem checked_nil : Trace.Checked user [] := checked_of_all (by simp)

theorem Checked.append (ha : a.Checked user) (hb : b.Checked user) : (a ++ b).Checked user := by
  intro before m after device htrace hends
  obtain ⟨mid, rfl, hrest⟩ | ⟨mid, rfl, hrest⟩ := List.append_eq_append_iff.mp htrace
  · obtain ⟨look, hlook, hshows⟩ := hb mid m after device hrest hends
    exact ⟨look, List.mem_append_right a hlook, hshows⟩
  · cases mid with
    | nil =>
      obtain ⟨look, hlook, -⟩ := hb [] m after device hrest.symm hends
      cases hlook
    | cons x mid =>
      obtain ⟨rfl, -⟩ := List.cons.inj hrest
      exact ha before m mid device rfl hends

theorem checked_cons {look : Moment} (hread : look.action.ends? = none)
    (h : ∀ m ∈ a, ∀ device, m.action.ends? = some device → look.Shows user device) :
    Trace.Checked user (look :: a) := by
  intro before m after device htrace hends
  cases before with
  | nil =>
    obtain ⟨rfl, -⟩ := List.cons.inj htrace
    cases hread.symm.trans hends
  | cons x before =>
    obtain ⟨rfl, rfl⟩ := List.cons.inj htrace
    exact ⟨look, List.mem_cons_self, h m (by simp) device hends⟩

end Trace

namespace Service

variable {s : Service} {bearer : String} {user : UserId} {trace : Trace}

theorem ends?_of_reads {α : Type} {c : Command α} {result : Except Error α}
    (h : c.Yields trace result) (hc : c.All Action.IsRead) :
    ∀ m ∈ trace, m.action.ends? = none :=
  fun m hm => (h.all hc m hm).ends?

theorem authorizeSession_yields {q : SessionRequest} {r : Record}
    (h : (authorizeSession bearer q).Yields trace (.ok r)) :
    ∃ (user : UserId) (look : Moment), q.user = user.text ∧ trace = [look] ∧
      look.action.ends? = none ∧ look.Shows user r.device := by
  unfold authorizeSession at h
  obtain ⟨e, -, -, he⟩ | ⟨device, -, h⟩ := h.of_ofExcept_bind
  · cases he
  obtain ⟨e, -, -, he⟩ | ⟨user, huser, h⟩ := h.of_ofExcept_bind
  · cases he
  dsimp only at h
  split at h
  · obtain ⟨-, he⟩ := Command.Yields.of_ofExcept (e := .error _) h
    cases he
  obtain ⟨e, -, he⟩ | ⟨before, record, after, rfl, howned, hend⟩ := h.of_bind
  · cases he
  obtain ⟨look, rfl, ⟨cause, -, he⟩ | hchecked⟩ := ownedDevice_yields howned
  · cases he
  obtain ⟨hrecord, howner⟩ := checkOwner_ok hchecked.symm
  split at hend
  · obtain ⟨-, he⟩ := Command.Yields.of_ofExcept (e := .error _) hend
    cases he
  · obtain ⟨rfl, he⟩ := Command.Yields.of_ofExcept (e := .ok record) hend
    cases he
    exact ⟨user, _, (required_ok huser).symm, rfl, rfl, device, r, rfl, hrecord, howner,
      fun hwf => (hwf.device_of_get? hrecord).symm⟩

/-- The action ends nothing but what is the device's. -/
def EndsOf (device : DeviceId) (a : Action) : Prop := ∀ d, a.ends? = some d → d = device

theorem endsOf_of_none {device : DeviceId} {a : Action} (h : a.ends? = none) :
    EndsOf device a := fun _ hd => nomatch h.symm.trans hd

theorem checked_of_authorized {α : Type} {q : SessionRequest} {f : Record → Command α}
    {result : Except Error α} (hf : ∀ r, (f r).All (EndsOf r.device))
    (h : (authorizeSession bearer q >>= f).Yields trace result) :
    (∀ m ∈ trace, m.action.ends? = none) ∨
      ∃ user : UserId, q.user = user.text ∧ trace.Checked user := by
  obtain ⟨e, hauthorize, -⟩ | ⟨before, r, after, rfl, hauthorize, hrest⟩ := h.of_bind
  · exact .inl (ends?_of_reads hauthorize (authorizeSession_reads bearer q))
  · obtain ⟨user, look, huser, rfl, hread, hshows⟩ := authorizeSession_yields hauthorize
    refine .inr ⟨user, huser, Trace.checked_cons hread fun m hm device hends => ?_⟩
    obtain rfl : device = r.device := hrest.all (hf r) m hm device hends
    exact hshows

theorem signOut_checked {q : SessionRequest} {result : Except Error Acknowledgement}
    (h : (signOut bearer q).Yields trace result) :
    (∀ m ∈ trace, m.action.ends? = none) ∨
      ∃ user : UserId, q.user = user.text ∧ trace.Checked user := by
  refine checked_of_authorized (fun r => ?_) h
  dsimp only
  split
  · refine (Command.all_now (endsOf_of_none rfl)).bind fun now => ?_
    have hsignOut : EndsOf r.device (.store (.signOut r.device now)) :=
      fun d hd => (Option.some.inj hd).symm
    exact (Command.all_store hsignOut).bind fun _ => Command.all_pure _
  · exact Command.all_pure _

theorem signOff_checked {q : SessionRequest} {result : Except Error Acknowledgement}
    (h : (signOff bearer q).Yields trace result) :
    (∀ m ∈ trace, m.action.ends? = none) ∨
      ∃ user : UserId, q.user = user.text ∧ trace.Checked user := by
  refine checked_of_authorized (fun r => ?_) h
  have hremove : EndsOf r.device (.store (.remove r.device)) :=
    fun d hd => (Option.some.inj hd).symm
  refine (Command.all_store hremove).bind fun _ => ?_
  exact (Command.all_perform (endsOf_of_none rfl)).bind fun _ => Command.all_pure _

theorem deleteDevice_checked {device : DeviceId} {result : Except Error Bool}
    (h : (deleteDevice user device).Yields trace result) : trace.Checked user := by
  change (Command.store (.fetch device) >>= _).Yields trace result at h
  obtain ⟨look, rest, rfl, ⟨e, -, rfl, -⟩ | ⟨found, hfound, hrest⟩⟩ := h.of_store_bind
  · exact Trace.checked_of_all (by simp [Action.ends?])
  have hlook : found = look.record? device := (Store.answer_apply hfound).1
  split at hrest
  · obtain ⟨rfl, -⟩ := Command.Yields.of_ofExcept (e := .ok false) hrest
    exact Trace.checked_of_all (by simp [Action.ends?])
  · rename_i howned
    cases hr : found with
    | none => simp [hr] at howned
    | some r =>
      have howner : r.owner = user := by simpa [hr, Record.isOwnedBy] using howned
      have hshows : Moment.Shows user device ⟨.store (.fetch device), look⟩ :=
        ⟨device, r, rfl, hlook.symm.trans hr, howner, fun _ => rfl⟩
      have hall := hrest.all (P := EndsOf device) ?_
      · refine Trace.checked_cons rfl fun m hm d hends => ?_
        obtain rfl : d = device := hall m hm d hends
        exact hshows
      · have hremove : EndsOf device (.store (.remove device)) :=
          fun d hd => (Option.some.inj hd).symm
        refine (Command.all_store hremove).bind fun removed => ?_
        split
        · exact Command.all_pure _
        · exact (Command.all_perform (endsOf_of_none rfl)).bind fun _ => Command.all_pure _

theorem deleteAll_checked {devices : List DeviceId} {result : Except Error (List DeviceId)}
    (h : (deleteAll user devices).Yields trace result) : trace.Checked user := by
  induction devices generalizing trace result with
  | nil =>
    obtain ⟨rfl, -⟩ := Command.Yields.of_ofExcept (e := .ok []) h
    exact Trace.checked_nil
  | cons device rest ih =>
    unfold deleteAll at h
    obtain ⟨e, hfirst, -⟩ | ⟨before, gone, after, rfl, hfirst, hrest⟩ := h.of_bind
    · exact deleteDevice_checked hfirst
    refine (deleteDevice_checked hfirst).append ?_
    obtain ⟨e, hothers, -⟩ | ⟨before', others, after', rfl, hothers, hend⟩ := hrest.of_bind
    · exact ih hothers
    · obtain ⟨rfl, -⟩ := Command.Yields.of_ofExcept (e := .ok _) hend
      exact (ih hothers).append (Trace.checked_nil)

theorem deleteDevices_checked {q : DeleteRequest} {result : Except Error DeleteAnswer}
    (hs : (s.verifier bearer).All Action.IsRead)
    (h : (s.deleteDevices bearer q).Yields trace result) :
    ∃ seen rest, trace = seen ++ rest ∧ (∀ m ∈ seen, m.action.ends? = none) ∧
      (rest = [] ∨ ∃ user, (s.verifier bearer).Yields seen (.ok user) ∧ rest.Checked user) := by
  unfold deleteDevices at h
  obtain ⟨e, hverify, -⟩ | ⟨seen, user, rest, rfl, hverify, hrest⟩ := h.of_bind
  · exact ⟨trace, [], by simp, ends?_of_reads hverify hs, .inl rfl⟩
  refine ⟨seen, rest, rfl, ends?_of_reads hverify hs, .inr ⟨user, hverify, ?_⟩⟩
  obtain ⟨e, -, rfl, -⟩ | ⟨requested, -, hrest⟩ := hrest.of_ofExcept_bind
  · exact Trace.checked_nil
  have hdelete {targets : List DeviceId} {t : Trace}
      (h : (deleteAll user targets >>= fun gone =>
        (pure ⟨gone.map (·.text)⟩ : Command DeleteAnswer)).Yields t result) : t.Checked user := by
    obtain ⟨e, hall, -⟩ | ⟨before, gone, after, rfl, hall, hend⟩ := h.of_bind
    · exact deleteAll_checked hall
    · obtain ⟨rfl, -⟩ := Command.Yields.of_ofExcept (e := .ok _) hend
      exact (deleteAll_checked hall).append (Trace.checked_nil)
  dsimp only at hrest
  split at hrest
  · change (Command.store (.list user) >>= _).Yields rest result at hrest
    obtain ⟨met, rest, rfl, ⟨e, -, rfl, -⟩ | ⟨records, -, hrest⟩⟩ := hrest.of_store_bind
    · exact Trace.checked_of_all (by simp [Action.ends?])
    · exact Trace.Checked.append (a := [_]) (Trace.checked_of_all (by simp [Action.ends?]))
        (hdelete hrest)
  · exact hdelete hrest

theorem signUp_ends (s : Service) (q : SignUpRequest) :
    (s.signUp q).All fun a => a.ends? = none := by
  unfold signUp
  refine (Command.all_ofExcept _).bind fun device => ?_
  dsimp only
  split
  · exact Command.all_throw _
  refine (Command.all_ofExcept _).bind fun _ => ?_
  refine ((s.client.request_reads _).mono fun _ => Action.IsRead.ends?).bind fun tokens => ?_
  refine (Command.all_ofExcept _).bind fun owner => ?_
  refine Command.All.guarded rfl (fun _ => rfl) (fun _ => rfl) ?_
  refine (register_registers s device owner tokens).mono fun a ha => ?_
  cases a with
  | store op =>
    cases op with
    | signOut _ _ | remove _ => cases ha
    | _ => rfl
  | _ => rfl

/-- The user on whose authority a task ends sessions and registrations, after what it has done so
far: the request names them, or the verifier has named them. -/
def ActsFor (s : Service) (bearer : String) (user : UserId) (done : Trace) :
    (task : Task) → task.Request → Prop
  | .signOut, q => q.user = user.text
  | .signOff, q => q.user = user.text
  | .deleteDevices, _ => ∃ seen, seen <+: done ∧ (s.verifier bearer).Yields seen (.ok user)
  | .signUp, _ | .signIn, _ | .refresh, _ | .listDevices, _ => False

/-- Anything but a renewal ends only what it has seen to belong to the user on whose authority it
acts. -/
theorem perform_checked (hs : (s.verifier bearer).All Action.IsRead) {task : Task}
    {q : task.Request} {result : Except Error task.Answer} {before after : Trace} {m : Moment}
    {device : DeviceId} (h : (s.perform bearer task q).Yields (before ++ m :: after) result)
    (htask : task ≠ .refresh) (hends : m.action.ends? = some device) :
    ∃ user, s.ActsFor bearer user before task q ∧ ∃ look ∈ before, look.Shows user device := by
  have hnever (hnone : ∀ x ∈ before ++ m :: after, x.action.ends? = none) : False := by
    cases (hnone m (by simp)).symm.trans hends
  cases task with
  | refresh => exact absurd rfl htask
  | signUp => exact (hnever (h.all (signUp_ends s q))).elim
  | signIn => exact (hnever (ends?_of_reads h (signIn_reads bearer q))).elim
  | listDevices => exact (hnever (ends?_of_reads h (listDevices_reads q hs))).elim
  | signOut =>
    obtain hnone | ⟨user, huser, hchecked⟩ := signOut_checked h
    · exact (hnever hnone).elim
    · exact ⟨user, huser, hchecked before m after device rfl hends⟩
  | signOff =>
    obtain hnone | ⟨user, huser, hchecked⟩ := signOff_checked h
    · exact (hnever hnone).elim
    · exact ⟨user, huser, hchecked before m after device rfl hends⟩
  | deleteDevices =>
    obtain ⟨seen, rest, htrace, hseen, hrest⟩ := deleteDevices_checked hs h
    -- nothing is ended before the verifier has named a user, so the moment is one of the rest
    obtain ⟨mid, rfl, rfl⟩ : ∃ mid, before = seen ++ mid ∧ rest = mid ++ m :: after := by
      obtain ⟨mid, rfl, hm⟩ | hsplit := List.append_eq_append_iff.mp htrace
      · cases mid with
        | nil => exact ⟨[], by simp, hm.symm⟩
        | cons x mid =>
          obtain ⟨rfl, -⟩ := List.cons.inj hm
          cases (hseen m (by simp)).symm.trans hends
      · exact hsplit
    obtain hempty | ⟨user, hverify, hchecked⟩ := hrest
    · simp at hempty
    · obtain ⟨look, hlook, hshows⟩ := hchecked mid m after device rfl hends
      exact ⟨user, ⟨seen, List.prefix_append seen mid, hverify⟩, look,
        List.mem_append_right seen hlook, hshows⟩

end Service

theorem Event.after_of_fetch {device : DeviceId} (e : Event)
    (h : e.action = .store (.fetch device)) : e.after = e.before := by
  rw [Event.after, h, World.answer_of_isRead (a := .store (.fetch device)) rfl]

/-- The event puts a record of the device in place that is not the user's. -/
def Event.Reassigns (device : DeviceId) (user : UserId) (e : Event) : Prop :=
  ∃ r, e.action.Puts device r ∧ e.after.record? device = some r ∧ r.owner ≠ user

namespace Crowd

variable {s : Service} {calls : List Call} {w : World} {history : List Event} {c : Crowd}
  {device : DeviceId} {user : UserId}

theorem wellFormed_of_run (hs : ∀ bearer, (s.verifier bearer).All Action.IsRead)
    (hw : w.table.WellFormed) (hrun : Run (ofCalls s calls w) history c) :
    c.world.table.WellFormed := by
  induction hrun with
  | start => exact hw
  | elsewhere hrun htable hguards ih => exact htable ▸ ih
  | step hrun hadvance ih =>
    have hkeyed := hrun.all (P := fun _ => Action.IsKeyed) fun i p hp => by
      obtain ⟨call, -, rfl⟩ := call_of_program hp
      exact Program.All.bind (Service.perform_keyed hs call.bearer call.task call.request)
        fun _ => trivial
    obtain ⟨-, hbefore, -, next, hprogram, rfl⟩ := advance_eq_some hadvance
    exact World.wellFormed_answer (hkeyed _ _ hprogram).1 (hbefore ▸ ih)

/-- Since the device was seen to be the user's it is, or somebody has reassigned it. -/
theorem owner_or_reassigned {start : Crowd} {since before : List Event} {look : Event} {r : Record}
    (hrun : Run start (since ++ look :: before) c)
    (hlook : look.action = .store (.fetch device)) (hr : look.before.record? device = some r) :
    (∃ x ∈ since, x.Reassigns device r.owner) ∨
      ∀ old, c.world.record? device = some old → old.owner = r.owner := by
  generalize hhistory : since ++ look :: before = history at hrun
  induction hrun generalizing since with
  | start => simp at hhistory
  | elsewhere hrun htable hguards ih =>
    simp only [World.record?, htable]
    exact ih hhistory
  | @step history c c' e hrun hadvance ih =>
    obtain ⟨-, hbefore, -, next, -, rfl⟩ := advance_eq_some hadvance
    cases since with
    | nil =>
      cases hhistory
      refine .inr fun old hold => ?_
      change look.after.record? device = some old at hold
      rw [look.after_of_fetch hlook, hr] at hold
      cases hold
      rfl
    | cons x since =>
      obtain ⟨rfl, hrest⟩ := List.cons.inj hhistory
      obtain ⟨y, hy, hreassigns⟩ | howner := ih hrest
      · exact .inl ⟨y, List.mem_cons_of_mem x hy, hreassigns⟩
      rw [← hbefore] at howner
      -- of all that an event can do to the record, only a put can change its owner
      rcases World.record?_answer_cases x.action x.before device with
        hsame | ⟨put, hput, hafter⟩ | ⟨r', now, hr', hafter⟩ | ⟨-, -, hafter⟩
      · exact .inr fun old hold => howner old (hsame.symm.trans hold)
      · by_cases hput' : put.owner = r.owner
        · refine .inr fun old hold => ?_
          cases hafter.symm.trans hold
          exact hput'
        · exact .inl ⟨x, List.mem_cons_self, put, hput, hafter, hput'⟩
      · refine .inr fun old hold => ?_
        cases hafter.symm.trans hold
        exact howner r' hr'
      · refine .inr fun old hold => ?_
        cases hafter.symm.trans hold

/-- What a command of a crowd has done, and what it does next, start a trace of the command. -/
theorem yields_of_program {i : Nat} {action : Action} {next : action.Answer → Program Unit}
    (hrun : Run (ofCalls s calls w) history c)
    (hprogram : c.programs[i]? = some (.step action next)) :
    ∃ call rest result, calls[i]? = some call ∧
      (s.perform call.bearer call.task call.request).Yields
        (trace i history ++ ⟨action, c.world⟩ :: rest) result := by
  obtain ⟨p₀, hp₀⟩ := hrun.exists_program hprogram
  obtain ⟨call, hcall, rfl⟩ := call_of_program hp₀
  -- the rest of the command, run with nothing else going on, completes the trace
  have hrest := Program.Yields.step (w := c.world)
    (World.yields_trace c.world (next (World.answer action c.world).1))
  have hyields := hrun.yields hp₀ hprogram hrest
  obtain ⟨before, result, after, htrace, hperform, hend⟩ := Program.Yields.of_bind hyields
  cases hend
  rw [List.append_nil] at htrace
  exact ⟨call, _, result, hcall, htrace ▸ hperform⟩

theorem yields_of_advance {e : Event} {c' : Crowd} (hrun : Run (ofCalls s calls w) history c)
    (hadvance : c.advance e.caller = some (e, c')) :
    ∃ call rest result, calls[e.caller]? = some call ∧
      (s.perform call.bearer call.task call.request).Yields
        (trace e.caller history ++ e.moment :: rest) result := by
  obtain ⟨-, hbefore, -, next, hprogram, -⟩ := advance_eq_some hadvance
  rw [Event.moment, hbefore]
  exact yields_of_program hrun hprogram

/-- What a command other than a renewal ends, it saw before to be the user's on whose authority it
acts; it is theirs still, unless somebody has reassigned the device since. That takes a removal in
between, if no guard of the device was forgotten while somebody was in its section. -/
theorem owner_of_ends (hs : ∀ bearer, (s.verifier bearer).All Action.IsRead)
    (hw : w.table.WellFormed) {later earlier : List Event} {e : Event}
    (hrun : Run (ofCalls s calls w) (later ++ e :: earlier) c)
    (hends : e.action.ends? = some device) {old : Record}
    (hold : e.before.record? device = some old) :
    ∃ call, calls[e.caller]? = some call ∧ (call.task ≠ .refresh →
      ∃ user, s.ActsFor call.bearer user (trace e.caller earlier) call.task call.request ∧
        ∃ since look before r, earlier = since ++ look :: before ∧ look.caller = e.caller ∧
          look.action = .store (.fetch device) ∧ look.before.record? device = some r ∧
          r.owner = user ∧ (old.owner = user ∨ ∃ x ∈ since, x.Reassigns device user) ∧
          (Undisturbed device earlier → old.owner = user ∨ ∃ x ∈ since, x.Removes device)) := by
  obtain ⟨c₀, c₁, hmoment, hadvance⟩ := hrun.moment
  have hbefore := (advance_eq_some hadvance).2.1
  obtain ⟨call, rest, result, hcall, hyields⟩ := yields_of_advance hmoment hadvance
  refine ⟨call, hcall, fun htask => ?_⟩
  obtain ⟨user, hacts, look, hlook, hshows⟩ :=
    Service.perform_checked (hs call.bearer) hyields htask hends
  obtain ⟨since, e₀, before, rfl, hcaller, rfl⟩ := mem_trace hlook
  obtain ⟨key, r, hfetch, hr, howner, hkey⟩ := hshows
  obtain ⟨c₂, c₃, hthen, hadvance'⟩ := hmoment.moment
  obtain rfl : key = device := by
    refine hkey ?_
    rw [show e₀.moment.before = c₂.world from (advance_eq_some hadvance').2.1]
    exact wellFormed_of_run hs hw hthen
  rw [hbefore] at hold
  refine ⟨user, hacts, since, e₀, before, r, rfl, hcaller, hfetch, hr, howner, ?_, fun hu => ?_⟩
  · obtain hreassigned | hkept := owner_or_reassigned hmoment hfetch hr
    · exact .inr (howner ▸ hreassigned)
    · exact .inl ((hkept old hold).trans howner)
  · have hafter : e₀.after.record? key = some r := (e₀.after_of_fetch hfetch).symm ▸ hr
    obtain hremoved | ⟨r', hr', hkept⟩ := removed_or_kept hs hmoment hu hafter
    · exact .inr hremoved
    · cases hold.symm.trans hr'
      exact .inl (hkept.trans howner)

/-- What the latest event ends, by which command, and the record that it finds. -/
def lastEnd? : List Event → Option (Nat × DeviceId × Record)
  | [] => none
  | e :: _ => e.action.ends?.bind fun device =>
    (e.before.record? device).map fun old => (e.caller, device, old)

theorem lastEnd?_eq_some {caller : Nat} {old : Record}
    (h : lastEnd? history = some (caller, device, old)) :
    ∃ e earlier, history = e :: earlier ∧ e.caller = caller ∧ e.action.ends? = some device ∧
      e.before.record? device = some old := by
  cases history with
  | nil => cases h
  | cons e earlier =>
    obtain ⟨d, hends, hfound⟩ := Option.bind_eq_some_iff.mp h
    obtain ⟨r, hr, hpair⟩ := Option.map_eq_some_iff.mp hfound
    cases hpair
    exact ⟨e, earlier, rfl, rfl, hends, hr⟩

def sampleSignOff : Call := ⟨"t", .signOff, ⟨"d", "a", ⟨"t"⟩⟩⟩

/-- An owner signs off alone. -/
theorem owner_of_ends_signOff :
    ∃ (e : Event) (earlier : List Event) (c : Crowd) (old : Record) (user : UserId),
      Run (ofCalls sampleService [sampleSignOff] sampleWorld) (e :: earlier) c ∧
        e.action.ends? = some Record.sample.device ∧
        e.before.record? Record.sample.device = some old ∧
        sampleService.ActsFor "t" user (trace e.caller earlier) .signOff
          sampleSignOff.request ∧ old.owner = user := by
  let start := ofCalls sampleService [sampleSignOff] sampleWorld
  let old := sampleRecord ⟨"a", by decide⟩ "t"
  have hlast : (follow [0, 0] [] start).bind (fun x => lastEnd? x.1) =
      some (0, Record.sample.device, old) := by
    decide +kernel
  obtain ⟨⟨history, c⟩, hfollow, hend⟩ := Option.bind_eq_some_iff.mp hlast
  obtain ⟨e, earlier, rfl, hcaller, hends, hold⟩ := lastEnd?_eq_some hend
  have hrun : Run start ([] ++ e :: earlier) c := run_of_follow .start hfollow
  have hw : sampleWorld.table.WellFormed := Store.Table.wellFormed_ofRecords _
  obtain ⟨call, hcall, hacts⟩ :=
    owner_of_ends Service.Verifier.ofStore_reads hw hrun hends hold
  rw [hcaller] at hcall
  obtain rfl : sampleSignOff = call := Option.some.inj hcall
  obtain ⟨user, huser, -⟩ := hacts (by decide)
  exact ⟨e, earlier, c, old, user, hrun, hends, hold, huser, Identifier.ext_text huser⟩

/-- Two sign-offs of one owner: between the look and the removal of one, the other goes through and
somebody else signs the device up. -/
theorem removal_of_another_owner :
    ∃ (e : Event) (earlier : List Event) (c : Crowd) (old : Record),
      Run (ofCalls sampleService [sampleSignOff, sampleSignOff, sampleSignUp "b"] sampleWorld)
          (e :: earlier) c ∧
        e.caller = 0 ∧ e.action.ends? = some Record.sample.device ∧
        e.before.record? Record.sample.device = some old ∧
        ¬∃ user, sampleService.ActsFor "t" user (trace e.caller earlier) .signOff
          sampleSignOff.request ∧ old.owner = user := by
  let start := ofCalls sampleService [sampleSignOff, sampleSignOff, sampleSignUp "b"] sampleWorld
  let old := sampleRecord ⟨"b", by decide⟩ "h.eyJzdWIiOiJiIn0."
  let order := [0, 1, 1, 1, 2, 2, 2, 2, 2, 2, 2, 2, 2, 0]
  have hlast : (follow order [] start).bind (fun x => lastEnd? x.1) =
      some (0, Record.sample.device, old) := by
    decide +kernel
  obtain ⟨⟨history, c⟩, hfollow, hend⟩ := Option.bind_eq_some_iff.mp hlast
  obtain ⟨e, earlier, rfl, hcaller, hends, hold⟩ := lastEnd?_eq_some hend
  refine ⟨e, earlier, c, old, run_of_follow .start hfollow, hcaller, hends, hold, ?_⟩
  rintro ⟨user, huser, rfl⟩
  have hname : "a" = "b" := huser
  exact absurd hname (by decide)

end Crowd

end DeviceAuth
