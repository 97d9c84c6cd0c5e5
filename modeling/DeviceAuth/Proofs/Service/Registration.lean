import DeviceAuth.Proofs.Service.Basic
import DeviceAuth.Service.Registration

/-! Signing up: the only record that can change is the device's, which has to be free or the new
owner's, and which is the new owner's afterwards. -/
namespace DeviceAuth.Service

/-- The action leaves a record alone or puts one of a certain owner in its place. -/
def RegistersTo (device : DeviceId) (owner : UserId) : Action → Prop
  | .store (.save r) => r.device = device ∧ r.owner = owner
  | a => a.target? = none

theorem RegistersTo.staysWith {device : DeviceId} {owner : UserId} {a : Action}
    (h : RegistersTo device owner a) : a.StaysWith device owner := by
  cases a with
  | store op =>
    cases op with
    | save r => exact h
    | fetch _ | find _ | list _ => trivial
    | swap _ _ _ | signOut _ _ | remove _ => cases h
  | _ => trivial

theorem RegistersTo.isKeyed {device : DeviceId} {owner : UserId} {a : Action}
    (h : RegistersTo device owner a) : a.IsKeyed := by
  cases a with
  | store op =>
    cases op with
    | swap _ _ _ => cases h
    | _ => trivial
  | _ => trivial

/-- The request is complete, and about the device at the provider of the service. -/
def SignUpRequest.IsFor (s : Service) (device : DeviceId) (q : SignUpRequest) : Prop :=
  q.device = device.text ∧ q.code.text ≠ "" ∧ (q.provider = "" ∨ q.provider = s.provider.text)

theorem checkProvider_error {s : Service} {presented : String} {e : Error}
    (h : s.checkProvider presented = .error e) :
    (∃ reason, e = .invalidArgument reason) ∧ presented ≠ "" ∧ presented ≠ s.provider.text := by
  unfold checkProvider at h
  split at h
  case isFalse => cases h
  rename_i hgiven
  refine ⟨?_, hgiven, ?_⟩
  · obtain h | ⟨name, -, h⟩ := Except.bind_error h
    · obtain ⟨fault, -, rfl⟩ := Except.mapError_error h
      exact ⟨fault.message, rfl⟩
    · split at h
      · exact ⟨_, (Except.error.inj h).symm⟩
      · cases h
  · rintro rfl
    rw [Identifier.ofString_text] at h
    change (if s.provider ≠ s.provider then _ else _) = _ at h
    rw [if_neg (not_not_intro rfl)] at h
    cases h

theorem checkVacant_error {device : DeviceId} {owner : UserId} {found : Option Record} {e : Error}
    (h : checkVacant device owner found = .error e) :
    e = .permissionDenied ("device " ++ device.text ++ " is already registered to another user") ∧
      ∃ r, found = some r ∧ r.owner ≠ owner := by
  cases found with
  | none => cases h
  | some record =>
    simp only [checkVacant] at h
    split at h
    · cases h
    · rename_i howner
      exact ⟨(Except.error.inj h).symm, record, rfl, by simpa [Record.isOwnedBy] using howner⟩

theorem checkVacant_ok {device : DeviceId} {owner : UserId} {found : Option Record}
    (h : checkVacant device owner found = .ok ()) : ∀ r, found = some r → r.owner = owner := by
  rintro r rfl
  simp only [checkVacant] at h
  split at h
  · rename_i ho
    simpa [Record.isOwnedBy] using ho
  · cases h

theorem register_all (s : Service) {device : DeviceId} {owner : UserId} (tokens : OAuth.Tokens)
    {P : Action → Prop} (hfetch : P (.store (.fetch device))) (hnow : P .now)
    (hsave : ∀ r, r.device = device → r.owner = owner → P (.store (.save r))) :
    (s.register device owner tokens).All P := by
  unfold register
  refine (Command.all_store hfetch).bind fun found => ?_
  refine (Command.all_ofExcept _).bind fun _ => ?_
  refine (Command.all_now hnow).bind fun issued => ?_
  refine Command.all_ofExcept_bind fun record hrecord => ?_
  obtain ⟨hdevice, howner, -⟩ := Record.Draft.build_ok (Except.mapError_ok hrecord)
  refine (Command.all_now hnow).bind fun now => ?_
  exact (Command.all_store (hsave record hdevice howner)).bind fun _ => Command.all_pure _

theorem register_registers (s : Service) (device : DeviceId) (owner : UserId)
    (tokens : OAuth.Tokens) : (s.register device owner tokens).All (RegistersTo device owner) :=
  register_all s tokens rfl rfl fun _ hdevice howner => ⟨hdevice, howner⟩

theorem registers_answer {device : DeviceId} {owner : UserId} {a : Action}
    (ha : RegistersTo device owner a) {before : Option Record} {w : World}
    (hw : w.record? device = before ∨ ∃ r, w.record? device = some r ∧ r.owner = owner) :
    (World.answer a w).2.record? device = before ∨
      ∃ r, (World.answer a w).2.record? device = some r ∧ r.owner = owner := by
  by_cases ht : a.target? = none
  · have hkeep : (World.answer a w).2.record? device = w.record? device := by
      cases a with
      | store op =>
        refine Store.get?_table_apply_of_ne fun h => ?_
        cases ht.symm.trans h
      | _ => rfl
    rwa [hkeep]
  · cases a with
    | store op =>
      cases op with
      | save r =>
        obtain ⟨hd, ho⟩ := ha
        show (w.store.apply (.save r)).2.table.get? device = before ∨
          ∃ r', (w.store.apply (.save r)).2.table.get? device = some r' ∧ r'.owner = owner
        rw [Store.table_apply]
        split
        · exact hw
        · right
          exact ⟨r, by simp [Store.Table.next, Store.Table.apply, Store.Table.get?_insert, hd], ho⟩
      | _ => exact absurd ha ht
    | _ => exact absurd ha ht

/-- What a registration changes, it was free to change, and it is the owner's now. -/
theorem record?_register {s : Service} {device : DeviceId} {owner : UserId}
    {tokens : OAuth.Tokens} {w : World} {d : DeviceId}
    (h : (w.runCommand (s.register device owner tokens)).2.record? d ≠ w.record? d) :
    d = device ∧ (∀ r, w.record? device = some r → r.owner = owner) ∧
      ∃ r, (w.runCommand (s.register device owner tokens)).2.record? device = some r ∧
        r.owner = owner := by
  have hall := register_registers s device owner tokens
  have hd : d = device := by
    by_contra hne
    exact h (World.record?_run_of_ne (hall.mono fun _ => RegistersTo.staysWith) hne w)
  subst hd
  refine ⟨rfl, ?_, ?_⟩
  · intro r hr
    unfold register at h
    obtain ⟨e, -, he⟩ | ⟨found, hf, hrest⟩ :=
      World.runCommand_bind_cases (Command.store_reads (.fetch d) rfl) _ w
    · rw [he] at h
      exact absurd rfl h
    have hfound : found = w.record? d := World.runCommand_store_ok hf
    rw [hrest] at h
    obtain ⟨e, -, he⟩ | ⟨u, hc, -⟩ :=
      World.runCommand_bind_cases (Command.all_ofExcept (checkVacant d owner found)) _ w
    · rw [he] at h
      exact absurd rfl h
    · exact checkVacant_ok hc r (hfound.trans hr)
  · have hrun := World.run_of_all (I := fun w' => w'.record? d = w.record? d ∨
        ∃ r, w'.record? d = some r ∧ r.owner = owner)
      (fun a w' ha hw' => registers_answer ha hw') hall (.inl rfl)
    exact hrun.resolve_left h

theorem signUp_keyed (s : Service) (q : SignUpRequest) : (s.signUp q).All Action.IsKeyed := by
  unfold signUp
  refine (Command.all_ofExcept _).bind fun device => ?_
  dsimp only
  split
  · exact Command.all_throw _
  · refine (Command.all_ofExcept _).bind fun _ => ?_
    refine ((s.client.request_reads _).mono fun _ => Action.IsRead.isKeyed).bind fun tokens => ?_
    refine (Command.all_ofExcept _).bind fun owner => ?_
    exact Command.All.guarded trivial (fun _ => trivial) (fun _ => trivial)
      ((register_registers s device owner tokens).mono fun _ => RegistersTo.isKeyed)

theorem runCommand_signUp (s : Service) (q : SignUpRequest) (w : World) :
    (∃ e, w.runCommand (s.signUp q) = (.error e, w)) ∨
      ∃ device tokens owner, q.device = Identifier.text device ∧
        (w.runCommand (s.client.request (.authorizationCode q.code.text))).1 = .ok tokens ∧
        s.client.owner tokens = .ok owner ∧
        w.runCommand (s.signUp q) =
          w.runCommand (.guarded device (s.register device owner tokens)) := by
  unfold signUp
  obtain ⟨e, -, he⟩ | ⟨device, hd, hrest⟩ :=
    World.runCommand_bind_cases (Command.all_ofExcept _) _ w
  · exact .inl ⟨e, he⟩
  rw [hrest]
  dsimp only
  split
  · exact .inl ⟨_, rfl⟩
  obtain ⟨e, -, he⟩ | ⟨u, -, hrest⟩ :=
    World.runCommand_bind_cases (Command.all_ofExcept (s.checkProvider q.provider)) _ w
  · exact .inl ⟨e, he⟩
  rw [hrest]
  obtain ⟨e, -, he⟩ | ⟨tokens, ht, hrest⟩ :=
    World.runCommand_bind_cases (s.client.request_reads _) _ w
  · exact .inl ⟨e, he⟩
  rw [hrest]
  obtain ⟨e, -, he⟩ | ⟨owner, ho, hrest⟩ :=
    World.runCommand_bind_cases (Command.all_ofExcept _) _ w
  · exact .inl ⟨e, he⟩
  exact .inr ⟨device, tokens, owner, (required_ok hd).symm, ht, ho, hrest⟩

theorem record?_signUp {s : Service} {q : SignUpRequest} {w : World} {d : DeviceId}
    (h : (w.runCommand (s.signUp q)).2.record? d ≠ w.record? d) :
    q.device = d.text ∧ ∃ tokens owner,
      (w.runCommand (s.client.request (.authorizationCode q.code.text))).1 = .ok tokens ∧
      s.client.owner tokens = .ok owner ∧ (∀ r, w.record? d = some r → r.owner = owner) ∧
      ∃ r, (w.runCommand (s.signUp q)).2.record? d = some r ∧ r.owner = owner := by
  obtain ⟨e, he⟩ | ⟨device, tokens, owner, hd, ht, ho, hrun⟩ := runCommand_signUp s q w
  · rw [he] at h
    exact absurd rfl h
  · obtain ⟨guards, hguards⟩ :=
      World.record?_runCommand_guarded device d (s.register device owner tokens) w
    rw [hrun, hguards] at h ⊢
    obtain ⟨rfl, hfree, hafter⟩ := record?_register h
    exact ⟨hd, tokens, owner, ht, ho, hfree, hafter⟩

end DeviceAuth.Service
