import DeviceAuth.Proofs.Contention
import DeviceAuth.Proofs.Integrity
import DeviceAuth.Proofs.Retreat

/-! Commands that come to an error. None has changed a record by then, but for a renewal that the
provider refuses: it ends the session. -/
namespace DeviceAuth.Service

variable {s : Service} {bearer : String} {device : DeviceId} {trace : Trace} {e : Error}

theorem authorizeSession_inert (bearer : String) (q : SessionRequest) :
    (authorizeSession bearer q).All Action.IsInert :=
  (authorizeSession_reads bearer q).mono fun _ => Action.IsRead.isInert

theorem signIn_retreats (bearer : String) (q : SessionRequest) : (signIn bearer q).Retreats :=
  Command.retreats_of_all ((signIn_reads bearer q).mono fun _ => Action.IsRead.isInert)

theorem signOut_retreats (bearer : String) (q : SessionRequest) : (signOut bearer q).Retreats := by
  unfold signOut
  refine .after (authorizeSession_inert bearer q) fun record => ?_
  dsimp only
  split
  · refine .after (Command.all_now rfl) fun now => ?_
    exact (Command.retreats_store _).bind fun _ => Command.succeeds_pure _
  · exact Command.retreats_of_all (Command.all_pure _)

theorem signOff_retreats (bearer : String) (q : SessionRequest) : (signOff bearer q).Retreats := by
  unfold signOff
  refine .after (authorizeSession_inert bearer q) fun record => ?_
  refine (Command.retreats_store _).bind fun _ => ?_
  exact (Command.succeeds_perform _).bind fun _ => Command.succeeds_pure _

theorem register_retreats (s : Service) (device : DeviceId) (owner : UserId)
    (tokens : OAuth.Tokens) : (s.register device owner tokens).Retreats := by
  unfold register
  refine .after (Command.all_store rfl) fun found => ?_
  refine .after (Command.all_ofExcept _) fun _ => ?_
  refine .after (Command.all_now rfl) fun issued => ?_
  refine .after (Command.all_ofExcept _) fun record => ?_
  refine .after (Command.all_now rfl) fun now => ?_
  exact (Command.retreats_store _).bind fun _ => Command.succeeds_pure _

theorem signUp_retreats (s : Service) (q : SignUpRequest) : (s.signUp q).Retreats := by
  unfold signUp
  refine .after (Command.all_ofExcept _) fun device => ?_
  dsimp only
  split
  · exact Command.retreats_of_all (Command.all_throw _)
  refine .after (Command.all_ofExcept _) fun _ => ?_
  have hrequest := (s.client.request_reads (.authorizationCode q.code.text)).mono
    fun _ => Action.IsRead.isInert
  refine .after hrequest fun tokens => ?_
  refine .after (Command.all_ofExcept _) fun owner => ?_
  exact (register_retreats s device owner tokens).guarded

theorem replaceWith_retreats (device : DeviceId) (current : Record) (token : Secret)
    (tokens : OAuth.Tokens) : (replaceWith device current token tokens).Retreats := by
  unfold replaceWith
  refine .after (Command.all_now rfl) fun issued => ?_
  refine .after (Command.all_ofExcept _) fun record => ?_
  intro trace e h hclean
  obtain ⟨met, rest, rfl, ⟨cause, hcause, rfl, -⟩ | ⟨outcome, houtcome, hend⟩⟩ := h.of_store_bind
  · have hfails := hclean _ List.mem_cons_self (Moment.not_succeeds hcause)
    exact List.forall_mem_cons.mpr ⟨hfails, List.forall_mem_nil _⟩
  obtain ⟨e', hswap, rfl, -⟩ | ⟨_, -, hnow⟩ := hend.of_ofExcept_bind
  · refine List.forall_mem_cons.mpr ⟨?_, List.forall_mem_nil _⟩
    obtain ⟨htable, hnext⟩ := Store.answer_apply houtcome
    have hkept : met.store.table.swapOutcome device (some token.text) ≠ .updated := by
      intro hupdated
      rw [show outcome = .updated from htable.trans hupdated] at hswap
      cases hswap
    refine hnext.trans ?_
    simp [Store.Table.next, Store.Table.apply, hkept]
    rfl
  · have hanswers := (Command.succeeds_perform .now).bind fun now => Command.succeeds_pure
      (⟨record.accessToken, record.refreshToken.getD .empty, record.remaining now⟩ : RefreshAnswer)
    exact (hanswers hnow).elim

/-- A refusal of the provider ends the session of a device. One that has ended before stays as it
is, and so does every other record. -/
structure Refusal (s : Service) (trace : Trace) (device : DeviceId) (e : Error)
    (t u : Store.Table) : Prop where
  refused : ∃ delivery ∈ trace.deliveries, ∃ now ∈ trace.readings,
    s.client.ofDelivery .refreshToken delivery now = .error e
  ends : endsSession e = true
  ended : ∃ now, u.get? device = (t.get? device).map (·.signOut now)
  others : ∀ d, d ≠ device → u.get? d = t.get? d

theorem Renewing.retreats {token : Secret} (h : s.Renewing device token trace (.error e))
    (hclean : trace.FailsCleanly) {t u : Store.Table} (hleads : Trace.Leads trace.writes t u) :
    u = t ∨ s.Refusal trace device e t u := by
  cases h with
  | unasked hcall => exact .inl (hleads.eq_of_keeps (List.forall_mem_nil _))
  | failed hcall hfailed hends => exact .inl (hleads.eq_of_keeps (List.forall_mem_nil _))
  | @refused call asked read clock met e₁ _ hcall hrefused hends hwritten =>
    obtain ⟨hbefore, hafter⟩ := Trace.Leads.of_singleton hleads
    obtain ⟨x, hx, rfl⟩ | ⟨cause, hcause, rfl⟩ := hwritten
    · have hnext : u = t.next (.signOut device clock.clock) := by
        rw [← hafter, ← hbefore]
        exact (Store.answer_apply hx).2
      refine .inr ⟨⟨_, List.mem_cons_self, _, List.mem_cons_self, hrefused⟩, hends,
        ⟨clock.clock, ?_⟩, fun d hd => ?_⟩
      · rw [hnext, Store.Table.get?_next_signOut, if_pos rfl]
      · rw [hnext, Store.Table.get?_next_signOut, if_neg hd]
    · have hkeeps := hclean ⟨.store (.signOut device clock.clock), met⟩ (by simp)
        (Moment.not_succeeds hcause)
      exact .inl (hafter.symm.trans (hkeeps.trans hbefore))

theorem Renewing.keeps {token : Secret} {tokens : OAuth.Tokens}
    (h : s.Renewing device token trace (.ok tokens)) : ∀ m ∈ trace, m.Keeps := by
  cases h with
  | granted hcall hgranted =>
    exact List.forall_mem_cons.mpr ⟨rfl, List.forall_mem_cons.mpr ⟨rfl, List.forall_mem_nil _⟩⟩

theorem exchangeFor_retreats {current : Record} {token : Secret}
    (h : (s.exchangeFor device current token).Yields trace (.error e))
    (hclean : trace.FailsCleanly) {t u : Store.Table} (hleads : Trace.Leads trace.writes t u) :
    u = t ∨ s.Refusal trace device e t u := by
  obtain ⟨e', hrenewing, he⟩ | ⟨before, tokens, rest, rfl, hrenewing, hreplace⟩ :=
    exchangeFor_yields h
  · cases he
    exact hrenewing.retreats hclean hleads
  · refine .inl (hleads.eq_of_keeps fun m hm => ?_)
    rcases List.mem_append.mp (List.mem_filter.mp hm).1 with hm | hm
    · exact hrenewing.keeps m hm
    · exact replaceWith_retreats device current token tokens hreplace
        (fun m hm => hclean m (List.mem_append_right before hm)) m hm

theorem refresh_retreats {q : RefreshRequest} (h : (s.refresh q).Yields trace (.error e))
    (hclean : trace.FailsCleanly) {t u : Store.Table} (hleads : trace.Leads t u) :
    u = t ∨ ∃ device : DeviceId, q.device = device.text ∧ s.Refusal trace device e t u := by
  obtain ⟨-, reason, he⟩ | ⟨device, user, hdevice, huser, htoken⟩ := refresh_cases s q
  · rw [he] at h
    obtain ⟨rfl, -⟩ := Command.Yields.of_ofExcept h
    exact .inl (hleads.eq_of_keeps (List.forall_mem_nil _))
  obtain ⟨look, inner, -, hsub, hwrites, -, hrest⟩ :=
    refresh_yields hdevice huser htoken h
  have hleads' : Trace.Leads inner.writes t u := hwrites ▸ hleads.writes
  obtain ⟨rfl, -⟩ | ⟨r, -, -, hexchange⟩ := hrest
  · exact .inl (hleads'.eq_of_keeps (List.forall_mem_nil _))
  · have hclean' : inner.FailsCleanly := fun m hm => hclean m (hsub hm)
    obtain hsame | hrefusal := exchangeFor_retreats hexchange hclean' hleads'
    · exact .inl hsame
    obtain ⟨delivery, hdelivery, now, hnow, hrefused⟩ := hrefusal.refused
    have hdelivered := List.filterMap_subset Moment.delivery? hsub hdelivery
    exact .inr ⟨device, hdevice,
      ⟨delivery, hdelivered, now, Trace.readings_subset hsub hnow, hrefused⟩,
      hrefusal.ends, hrefusal.ended, hrefusal.others⟩

def IsRefused (s : Service) (trace : Trace) (e : Error) (t u : Store.Table) :
    (task : Task) → task.Request → Prop
  | .refresh, q => ∃ device : DeviceId, q.device = device.text ∧ s.Refusal trace device e t u
  | .signUp, _ | .signIn, _ | .signOut, _ | .signOff, _ | .listDevices, _ | .deleteDevices, _ =>
    False

/-- A task that deletes nothing and fails leaves all records as they were, but for the session that
a refused renewal ends, although any operation of the store may have failed on the way. To sign in
or to list devices never changes a record. -/
theorem unchanged_or_refused (hs : ∀ bearer, (s.verifier bearer).All Action.IsRead) {task : Task}
    {q : task.Request} {result : Except Error task.Answer}
    (h : (s.perform bearer task q).Yields trace result) {t u : Store.Table}
    (hleads : trace.Leads t u) :
    (trace.FailsCleanly → task ≠ .deleteDevices → ∀ e, result = .error e →
      u = t ∨ s.IsRefused trace e t u task q) ∧
    (task = .signIn ∨ task = .listDevices → u = t) := by
  have hread (hc : (s.perform bearer task q).All Action.IsRead) : u = t :=
    hleads.eq_of_keeps fun m hm => Moment.keeps_of_isInert (h.all hc m hm).isInert
  constructor
  · rintro hclean htask e rfl
    have hkept (hc : (s.perform bearer task q).Retreats) : u = t :=
      hleads.eq_of_keeps (hc h hclean)
    cases task with
    | signUp => exact .inl (hkept (signUp_retreats s q))
    | signIn => exact .inl (hkept (signIn_retreats bearer q))
    | signOut => exact .inl (hkept (signOut_retreats bearer q))
    | signOff => exact .inl (hkept (signOff_retreats bearer q))
    | refresh => exact refresh_retreats h hclean hleads
    | listDevices => exact .inl (hread (listDevices_reads q (hs bearer)))
    | deleteDevices => exact absurd rfl htask
  · rintro (rfl | rfl)
    · exact hread (signIn_reads bearer q)
    · exact hread (listDevices_reads q (hs bearer))

/-- The provider refuses, but the store takes no sign-out. -/
theorem unchanged_or_refused_unwritten :
    ∃ w : World, (w.runCommand (Crowd.sampleService.refresh sampleRefresh)).1 =
        .error (.storage (.backend "sign_out rejected")) ∧
      (w.runCommand (Crowd.sampleService.refresh sampleRefresh)).2.table = w.table := by
  let w : World := sampleRefreshWorld refusingPeer
  let failing : World := { w with store := { w.store with refused := [.signOut] } }
  have hresult : (failing.runCommand (Crowd.sampleService.refresh sampleRefresh)).1 =
      .error (.storage (.backend "sign_out rejected")) := by
    decide +kernel
  have hclean := World.failsCleanly_trace (w := failing) rfl
    (ExceptT.run (Crowd.sampleService.refresh sampleRefresh))
  have hyields :=
    Command.yields_runCommand failing (Crowd.sampleService.perform "" .refresh sampleRefresh)
  have hleads := failing.leads_trace (ExceptT.run (Crowd.sampleService.refresh sampleRefresh))
  refine ⟨failing, hresult, ?_⟩
  obtain hsame | ⟨device, -, hrefusal⟩ :=
    (unchanged_or_refused Verifier.ofStore_reads hyields hleads).1 hclean nofun _ hresult
  · exact hsame
  · cases hrefusal.ends

end DeviceAuth.Service
