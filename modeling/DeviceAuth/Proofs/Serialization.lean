import DeviceAuth.Proofs.Authority
import DeviceAuth.Proofs.Contention

/-! Renewals of one device one after the other. A renewal is alone with its device while it asks the
provider, and no sign-up of the device is under way then, unless the guard of the device is
forgotten under somebody's feet. -/
namespace DeviceAuth

/-- The action has to do with a guard, but forgets none. -/
def Action.IsLock : Action → Prop
  | .lookupGuard _ | .acquire _ | .release _ => True
  | _ => False

theorem Action.IsRemote.not_isLock {a : Action} (h : a.IsRemote) : ¬a.IsLock := by
  cases a with
  | lookupGuard _ | acquire _ | release _ => cases h
  | _ => exact id

theorem Action.IsRead.not_isLock {a : Action} (h : a.IsRead) : ¬a.IsLock := by
  cases a with
  | lookupGuard _ | acquire _ | release _ => cases h
  | _ => exact id

namespace Phase

variable {device : DeviceId} {guard : GuardId} {phase : Phase} {t : Trace}

def along (phase : Phase) (t : Trace) : Phase :=
  t.foldl (fun phase m => phase.next m.action (World.answer m.action m.before).1) phase

theorem along_append (phase : Phase) (t t' : Trace) :
    phase.along (t ++ t') = (phase.along t).along t' := List.foldl_append

theorem along_cons (phase : Phase) (m : Moment) (t : Trace) :
    phase.along (m :: t) = (phase.next m.action (World.answer m.action m.before).1).along t := rfl

theorem along_outside (h : ∀ m ∈ t, ¬m.action.IsLock) : outside.along t = outside := by
  induction t with
  | nil => rfl
  | cons m t ih =>
    obtain ⟨hm, ht⟩ := List.forall_mem_cons.mp h
    obtain ⟨action, w⟩ := m
    rw [along_cons]
    cases action with
    | lookupGuard _ => exact absurd trivial hm
    | _ => exact ih ht

theorem isIn_along (hphase : phase.IsIn device guard) (h : ∀ m ∈ t, ¬m.action.IsLock) :
    (phase.along t).IsIn device guard := by
  induction t generalizing phase with
  | nil => exact hphase
  | cons m t ih =>
    obtain ⟨hm, ht⟩ := List.forall_mem_cons.mp h
    obtain ⟨seen, rfl⟩ := hphase
    refine ih (isIn_next device guard seen fun guard' hrelease => hm ?_) ht
    rw [hrelease]
    trivial

end Phase

namespace Trace

/-- All that a command does that takes the guard of a device once: what it asks other servers first,
and then what it does in the section. -/
structure IsGuarded (device : DeviceId) (before : Trace) (whole : Trace) : Prop where
  remote : ∀ m ∈ before, m.action.IsRemote
  section_eq : ∃ w₁ w₂ w₃ guard inner, (∀ m ∈ inner, ¬m.action.IsLock) ∧
    whole = before ++ (⟨.lookupGuard device, w₁⟩ :: ⟨.acquire guard, w₂⟩ :: inner ++
      [⟨.release guard, w₃⟩])

variable {device : DeviceId} {before done rest : Trace} {m : Moment}

theorem IsGuarded.exists_isIn (h : IsGuarded device before (done ++ m :: rest))
    (hpassed : ∃ x ∈ done, ¬x.action.IsRemote ∧ ∀ d, x.action ≠ .lookupGuard d) :
    ∃ guard, (Phase.outside.along done).IsIn device guard := by
  obtain ⟨x, hx, hremote, hlookup⟩ := hpassed
  obtain ⟨hbefore, w₁, w₂, w₃, guard, inner, hinner, hwhole⟩ := h
  obtain ⟨mid, rfl, -⟩ | ⟨mid, rfl, hmid⟩ := List.append_eq_append_iff.mp hwhole
  · exact absurd (hbefore x (List.mem_append_left mid hx)) hremote
  have hx' : x ∈ mid := (List.mem_append.mp hx).resolve_left fun hx => hremote (hbefore x hx)
  cases mid with
  | nil => cases hx'
  | cons y mid =>
    simp only [List.cons_append, List.cons.injEq] at hmid
    obtain ⟨rfl, hmid⟩ := hmid
    cases mid with
    | nil => exact absurd (congrArg Moment.action (List.mem_singleton.mp hx')) (hlookup device)
    | cons z mid =>
      simp only [List.cons_append, List.cons.injEq] at hmid
      obtain ⟨rfl, hmid⟩ := hmid
      have hstart : mid <+: inner := by
        have hlong : mid <+: inner ++ [⟨.release guard, w₃⟩] := ⟨m :: rest, hmid.symm⟩
        refine (List.prefix_concat_iff.mp hlong).resolve_left fun heq => ?_
        rw [heq] at hmid
        simp at hmid
      have hfree : ∀ x ∈ before, ¬x.action.IsLock := fun x hx => (hbefore x hx).not_isLock
      rw [Phase.along_append, Phase.along_outside hfree, Phase.along_cons, Phase.along_cons]
      exact ⟨_, Phase.isIn_along ⟨none, rfl⟩ fun x hx => hinner x (hstart.subset hx)⟩

theorem IsGuarded.exists_acquire (h : IsGuarded device [] (done ++ m :: rest))
    (hm : ¬m.action.IsLock) : ∃ guard w, ⟨.acquire guard, w⟩ ∈ done := by
  obtain ⟨-, w₁, w₂, w₃, guard, inner, -, hwhole⟩ := h
  cases done with
  | nil =>
    simp only [List.nil_append, List.cons_append, List.cons.injEq] at hwhole
    rw [hwhole.1] at hm
    exact absurd trivial hm
  | cons y done =>
    cases done with
    | nil =>
      simp only [List.nil_append, List.cons_append, List.cons.injEq] at hwhole
      rw [hwhole.2.1] at hm
      exact absurd trivial hm
    | cons z done =>
      simp only [List.nil_append, List.cons_append, List.cons.injEq] at hwhole
      rw [hwhole.2.1]
      exact ⟨guard, w₂, by simp⟩

end Trace

namespace Service

variable {s : Service} {device : DeviceId} {trace : Trace}

theorem isGuarded_of_yields {α : Type} {body : Command α} {result : Except Error α}
    {before : Trace} (hbefore : ∀ m ∈ before, m.action.IsRemote)
    (hbody : body.All fun a => ¬a.IsLock)
    (h : (Command.guarded device body).Yields trace result) :
    Trace.IsGuarded device before (before ++ trace) := by
  obtain ⟨w₁, w₂, w₃, guard, inner, hinner, rfl⟩ := h.of_guarded
  exact ⟨hbefore, w₁, w₂, w₃, guard, inner, hinner.all hbody, rfl⟩

theorem exchange_lockless (s : Service) (user : UserId) (presented : Secret) :
    (s.exchange device user presented).All fun a => ¬a.IsLock :=
  exchange_all s user presented (fun _ ha => ha.not_isLock) fun _ =>
    ⟨fun _ ha => ha.not_isLock, fun _ => id, fun _ _ _ _ => id⟩

theorem register_lockless (s : Service) (owner : UserId) (tokens : OAuth.Tokens) :
    (s.register device owner tokens).All fun a => ¬a.IsLock :=
  register_all s tokens id id fun _ _ _ => id

theorem refresh_isGuarded {q : RefreshRequest} {result : Except Error RefreshAnswer}
    (h : (s.refresh q).Yields trace result) :
    trace = [] ∨ ∃ d : DeviceId, q.device = d.text ∧ Trace.IsGuarded d [] trace := by
  obtain ⟨-, reason, he⟩ | ⟨d, user, hdevice, huser, htoken⟩ := refresh_cases s q
  · rw [he] at h
    exact .inl h.of_ofExcept.1
  · rw [refresh_eq s hdevice huser htoken] at h
    exact .inr ⟨d, hdevice, isGuarded_of_yields (List.forall_mem_nil _)
      (exchange_lockless s user q.refreshToken) h⟩

theorem signUp_isGuarded {q : SignUpRequest} {result : Except Error SignUpAnswer}
    (h : (s.signUp q).Yields trace result) :
    (∀ m ∈ trace, m.action.IsRemote) ∨
      ∃ (d : DeviceId) (before : Trace), q.device = d.text ∧ Trace.IsGuarded d before trace := by
  unfold signUp at h
  obtain ⟨e, -, rfl, -⟩ | ⟨d, hdevice, h⟩ := h.of_ofExcept_bind
  · exact .inl (List.forall_mem_nil _)
  dsimp only at h
  split at h
  · obtain ⟨rfl, -⟩ := Command.Yields.of_ofExcept (e := .error _) h
    exact .inl (List.forall_mem_nil _)
  obtain ⟨e, -, rfl, -⟩ | ⟨_, -, h⟩ := h.of_ofExcept_bind
  · exact .inl (List.forall_mem_nil _)
  have hremote := s.client.request_remote (.authorizationCode q.code.text)
  obtain ⟨e, hrequest, -⟩ | ⟨before, tokens, after, rfl, hrequest, h⟩ := h.of_bind
  · exact .inl (hrequest.all hremote)
  obtain ⟨e, -, rfl, -⟩ | ⟨owner, -, h⟩ := h.of_ofExcept_bind
  · rw [List.append_nil]
    exact .inl (hrequest.all hremote)
  · exact .inr ⟨d, before, (required_ok hdevice).symm,
      isGuarded_of_yields (hrequest.all hremote) (register_lockless s owner tokens) h⟩

end Service

/-- By what it has done, the command has to be alone with the device until it returns: a renewal
that has acquired the guard, or a sign-up that has looked at the record. -/
def Call.Serves (device : DeviceId) (done : Trace) : Call → Prop
  | ⟨_, .refresh, q⟩ => q.device = device.text ∧ ∃ guard w, ⟨.acquire guard, w⟩ ∈ done
  | ⟨_, .signUp, q⟩ => q.device = device.text ∧ ∃ w, ⟨.store (.fetch device), w⟩ ∈ done
  | _ => False

namespace Crowd

variable {s : Service} {calls : List Call} {w : World} {device : DeviceId}
  {history : List Event} {c : Crowd} {i : Nat}

/-- The command has to be alone with the device, and has not returned. -/
structure IsServing (calls : List Call) (device : DeviceId) (history : List Event) (c : Crowd)
    (i : Nat) : Prop where
  serves : ∃ call, calls[i]? = some call ∧ call.Serves device (trace i history)
  running : ∃ action next, c.programs[i]? = some (.step action next)

def asked? (c : Crowd) (i : Nat) : Option Http.Call :=
  match c.programs[i]? with
  | some (.step (.send call) _) => some call
  | _ => none

theorem exists_of_asked? (h : (c.asked? i).isSome) :
    ∃ call next, c.programs[i]? = some (.step (.send call) next) := by
  unfold asked? at h
  split at h
  · exact ⟨_, _, by assumption⟩
  · cases h

theorem IsServing.exists_isIn (hrun : Run (ofCalls s calls w) history c)
    (h : IsServing calls device history c i) :
    ∃ guard, (Phase.outside.along (trace i history)).IsIn device guard := by
  obtain ⟨⟨call, hcall, hserves⟩, action, next, hprogram⟩ := h
  obtain ⟨call', rest, result, hcall', hyields⟩ := yields_of_program hrun hprogram
  obtain rfl : call = call' := Option.some.inj (hcall.symm.trans hcall')
  obtain ⟨bearer, task, q⟩ := call
  cases task with
  | refresh =>
    obtain ⟨hdevice, guard, met, hacquired⟩ := hserves
    obtain hnone | ⟨d, hd, hguarded⟩ := Service.refresh_isGuarded hyields
    · simp at hnone
    obtain rfl : d = device := Identifier.ext_text (hd.symm.trans hdevice)
    exact hguarded.exists_isIn ⟨_, hacquired, id, fun _ => nofun⟩
  | signUp =>
    obtain ⟨hdevice, met, hlooked⟩ := hserves
    obtain hremote | ⟨d, before, hd, hguarded⟩ := Service.signUp_isGuarded hyields
    · exact absurd (hremote _ (List.mem_append_left _ hlooked)) id
    obtain rfl : d = device := Identifier.ext_text (hd.symm.trans hdevice)
    exact hguarded.exists_isIn ⟨_, hlooked, id, fun _ => nofun⟩
  | _ => cases hserves

theorem nextPhases_along (history : List Event) (e : Event) :
    nextPhases (fun i => Phase.outside.along (trace i history)) e =
      fun i => Phase.outside.along (trace i (e :: history)) := by
  funext i
  by_cases hi : i = e.caller
  · subst hi
    rw [nextPhases_self, trace, if_pos rfl, Phase.along_append]
    rfl
  · rw [nextPhases_of_ne hi, trace, if_neg (Ne.symm hi)]

theorem guarded_of_run (hs : ∀ bearer, (s.verifier bearer).All Action.IsRead)
    (hrun : Run (ofCalls s calls w) history c) (device : DeviceId) :
    Guarded device history c fun i => Phase.outside.along (trace i history) := by
  induction hrun with
  | start =>
    exact ⟨.start fun i p hp => follows_of_program hs hp, nofun⟩
  | step hrun hadvance ih =>
    rw [← nextPhases_along]
    exact ih.step hadvance
  | elsewhere hrun htable hguards ih => exact ih.elsewhere hguards

theorem isServing_of_asked? (hrun : Run (ofCalls s calls w) history c) {bearer : String}
    {q : Service.RefreshRequest} (hcall : calls[i]? = some ⟨bearer, .refresh, q⟩)
    (hdevice : q.device = device.text) (hasked : (c.asked? i).isSome) :
    IsServing calls device history c i := by
  obtain ⟨call, next, hprogram⟩ := exists_of_asked? hasked
  obtain ⟨call', rest, result, hcall', hyields⟩ := yields_of_program hrun hprogram
  obtain rfl := Option.some.inj (hcall.symm.trans hcall')
  obtain hnone | ⟨d, -, hguarded⟩ := Service.refresh_isGuarded hyields
  · simp at hnone
  · exact ⟨⟨_, hcall, hdevice, hguarded.exists_acquire id⟩, _, next, hprogram⟩

/-- No two commands that have to be alone with a device are at it at once, unless the guard was
forgotten while one of them was in the section that it is in. A renewal that asks the provider is
among them. -/
theorem serving_alone (hs : ∀ bearer, (s.verifier bearer).All Action.IsRead)
    (hrun : Run (ofCalls s calls w) history c) (device : DeviceId) :
    (∀ i j, IsServing calls device history c i → IsServing calls device history c j →
      i = j ∨ Robbed device i history ∨ Robbed device j history) ∧
    ∀ i bearer (q : Service.RefreshRequest), calls[i]? = some ⟨bearer, .refresh, q⟩ →
      q.device = device.text → (c.asked? i).isSome → IsServing calls device history c i := by
  refine ⟨fun i j hi hj => ?_, fun _ _ _ => isServing_of_asked? hrun⟩
  obtain ⟨gi, hi⟩ := hi.exists_isIn hrun
  obtain ⟨gj, hj⟩ := hj.exists_isIn hrun
  exact (guarded_of_run hs hrun device).eq_or_robbed hi hj

def sampleRefresh : Call := ⟨"", .refresh, Service.sampleRefresh⟩

def constantPeer : Http.Peer := fun _ =>
  .answered ⟨200, ⟨[]⟩, Text.utf8 ("\x7b\"access_token\":\"h.eyJzdWIiOiJhIn0.\"," ++
    "\"refresh_token\":\"r\",\"token_type\":\"b\"\x7d")⟩

/-- Of two renewals, one asks the provider and the other waits. -/
theorem serving_alone_waiting :
    ∃ (history : List Event) (c : Crowd),
      Run (ofCalls sampleService [sampleRefresh, sampleRefresh]
          (Service.sampleRefreshWorld constantPeer)) history c ∧
        (c.asked? 0).isSome ∧
        ∀ i, IsServing [sampleRefresh, sampleRefresh] Record.sample.device history c i → i = 0 := by
  let start := ofCalls sampleService [sampleRefresh, sampleRefresh]
    (Service.sampleRefreshWorld constantPeer)
  have hmoment : (follow [0, 0, 0, 1] [] start).any (fun x =>
      x.1.all (fun e => !e.action.forgets) && (x.2.asked? 0).isSome) = true := by
    decide +kernel
  obtain ⟨⟨history, c⟩, hfollow, hchecks⟩ := (Option.any_eq_true _ _).mp hmoment
  obtain ⟨hkept, hasked⟩ := Bool.and_eq_true_iff.mp hchecks
  have hrun : Run start history c := run_of_follow .start hfollow
  have hu := not_robbed_of_undisturbed (undisturbed_of_all hkept Record.sample.device)
  obtain ⟨halone, hserves⟩ :=
    serving_alone Service.Verifier.ofStore_reads hrun Record.sample.device
  refine ⟨history, c, hrun, hasked, fun i hi => ?_⟩
  have hfirst := hserves 0 "" Service.sampleRefresh rfl rfl hasked
  exact (halone i 0 hi hfirst).resolve_right (not_or.mpr ⟨hu i, hu 0⟩)

/-- While the provider is asked, the device is signed off and signed up again. The next renewal
finds another guard and asks the provider as well. -/
theorem two_renewals_at_once :
    ∃ (calls : List Call) (history : List Event) (c : Crowd),
      Run (ofCalls sampleService calls (Service.sampleRefreshWorld constantPeer)) history c ∧
        (∀ i ∈ [0, 3], calls[i]? = some sampleRefresh ∧ (c.asked? i).isSome ∧
          IsServing calls Record.sample.device history c i) := by
  let calls := [sampleRefresh, sampleSignOff, sampleSignUp "a", sampleRefresh]
  let start := ofCalls sampleService calls (Service.sampleRefreshWorld constantPeer)
  let order := [0, 0, 0, 1, 1, 1, 2, 2, 2, 2, 2, 2, 2, 2, 2, 3, 3, 3]
  have hmoment : (follow order [] start).any (fun x =>
      [0, 3].all fun i => (x.2.asked? i).isSome) = true := by
    decide +kernel
  obtain ⟨⟨history, c⟩, hfollow, hasked⟩ := (Option.any_eq_true _ _).mp hmoment
  have hrun : Run start history c := run_of_follow .start hfollow
  refine ⟨calls, history, c, hrun, fun i hi => ?_⟩
  have hcall : calls[i]? = some sampleRefresh := by
    rcases List.mem_pair.mp hi with rfl | rfl <;> rfl
  have hasks := List.all_eq_true.mp hasked i hi
  exact ⟨hcall, hasks, isServing_of_asked? hrun hcall rfl hasks⟩

end Crowd

end DeviceAuth
