import DeviceAuth.Proofs.Identifier
import DeviceAuth.Proofs.Ownership
import DeviceAuth.Proofs.Retreat
import DeviceAuth.Proofs.Service.UserDevices
import DeviceAuth.Proofs.Service.Verifier

/-! What a deletion leaves behind. It goes through its targets in order and stops at the first at
which the store fails; the user's devices among those before are gone by then. -/
namespace DeviceAuth

namespace Store.Table

variable {t : Table} {user : UserId}

def without (t : Table) (devices : List DeviceId) : Table :=
  ⟨t.entries.filter (·.1 ∉ devices)⟩

def belongs (t : Table) (user : UserId) (device : DeviceId) : Bool :=
  (t.get? device).any (·.isOwnedBy user)

theorem belongs_iff {device : DeviceId} :
    t.belongs user device = true ↔ ∃ r, t.get? device = some r ∧ r.owner = user := by
  simp [belongs, Option.any_eq_true, Record.isOwnedBy]

@[simp] theorem without_nil (t : Table) : t.without [] = t := by
  simp [without]

theorem without_append (t : Table) (first rest : List DeviceId) :
    t.without (first ++ rest) = (t.without first).without rest := by
  simp only [without, List.filter_filter, List.mem_append, not_or, Bool.decide_and]
  simp only [Bool.and_comm]

theorem erase_eq_without (t : Table) (device : DeviceId) : t.erase device = t.without [device] := by
  simp [erase, without]

theorem get?_without (t : Table) (devices : List DeviceId) (d : DeviceId) :
    (t.without devices).get? d = if d ∈ devices then none else t.get? d := by
  induction devices generalizing t with
  | nil => simp
  | cons device rest ih =>
    rw [← List.singleton_append, without_append, ih, ← erase_eq_without, get?_erase]
    by_cases hd : device = d
    · simp [hd]
    · simp [hd, Ne.symm hd]

theorem belongs_without {devices : List DeviceId} {device : DeviceId} (h : device ∉ devices) :
    (t.without devices).belongs user device = t.belongs user device := by
  rw [belongs, get?_without, if_neg h, belongs]

end Store.Table

/-- The store fails to look a device up or to remove it. -/
structure Moment.FailsAt (device : DeviceId) (m : Moment) : Prop where
  fails : m.succeeds = false
  concerns : m.action = .store (.fetch device) ∨ m.action = .store (.remove device)

namespace Service

variable {user : UserId} {trace : Trace} {t u : Store.Table}

theorem removal_yields {device : DeviceId} {r : Record} {result : Except Error Bool}
    (hr : t.get? device = some r)
    (h : (Command.store (.remove device) >>= fun removed : Option Record =>
      if removed.isNone then pure false else do
        Command.ofProgram (Program.perform (.forgetGuard device))
        return true : Command Bool).Yields trace result)
    (hclean : trace.FailsCleanly) (hleads : trace.Leads t u) :
    (∃ cause, result = .error (.storage cause) ∧ (∃ m ∈ trace, m.FailsAt device) ∧ u = t) ∨
      result = .ok true ∧ u = t.without [device] := by
  obtain ⟨w, rest, rfl, ⟨cause, hfails, rfl, rfl⟩ | ⟨removed, hremoved, hrest⟩⟩ := h.of_store_bind
  · exact .inl ⟨cause, rfl, ⟨_, List.mem_cons_self, Moment.not_succeeds hfails, .inr rfl⟩,
      hleads.of_failed hclean hfails⟩
  obtain ⟨hbefore, hafter⟩ := hleads.of_cons
  subst hbefore
  obtain ⟨hanswer, hnext⟩ := Store.answer_apply hremoved
  have hr : w.store.table.get? device = some r := hr
  obtain rfl : removed = some r := by simpa [Store.Table.apply, hr] using hanswer
  obtain ⟨w', rest', rfl, hend⟩ := Command.Yields.of_perform_bind hrest
  obtain ⟨rfl, rfl⟩ := Command.Yields.of_pure hend
  obtain ⟨hremove, hforget⟩ := hafter.of_singleton
  refine .inr ⟨rfl, ?_⟩
  calc u = w'.table := hforget.symm
    _ = w.store.table.next (.remove device) := hremove.trans hnext
    _ = w.store.table.without [device] := by
      simp [Store.Table.next, Store.Table.apply, hr, Store.Table.erase_eq_without]

theorem deleteDevice_yields {device : DeviceId} {result : Except Error Bool}
    (h : (deleteDevice user device).Yields trace result) (hclean : trace.FailsCleanly)
    (hleads : trace.Leads t u) :
    (∃ cause, result = .error (.storage cause) ∧ (∃ m ∈ trace, m.FailsAt device) ∧ u = t) ∨
      result = .ok (t.belongs user device) ∧ u = t.without ([device].filter (t.belongs user)) := by
  unfold deleteDevice at h
  obtain ⟨w, rest, rfl, ⟨cause, hfails, rfl, rfl⟩ | ⟨found, hfound, hrest⟩⟩ := h.of_store_bind
  · exact .inl ⟨cause, rfl, ⟨_, List.mem_cons_self, Moment.not_succeeds hfails, .inl rfl⟩,
      hleads.of_failed hclean hfails⟩
  obtain ⟨rfl, hafter⟩ := hleads.of_read rfl hfound
  change (if !t.belongs user device then _ else _ : Command Bool).Yields rest result at hrest
  by_cases hbelongs : t.belongs user device = true
  · obtain ⟨r, hr, -⟩ := Store.Table.belongs_iff.mp hbelongs
    rw [if_neg (by simp [hbelongs])] at hrest
    have hclean' : Trace.FailsCleanly rest := fun m hm => hclean m (List.mem_cons_of_mem _ hm)
    obtain ⟨cause, hresult, ⟨m, hm, hfailed⟩, hu⟩ | hremoved :=
      removal_yields hr hrest hclean' hafter
    · exact .inl ⟨cause, hresult, ⟨m, List.mem_cons_of_mem _ hm, hfailed⟩, hu⟩
    · simpa [hbelongs] using Or.inr hremoved
  · rw [if_pos (by simpa using hbelongs)] at hrest
    obtain ⟨rfl, rfl⟩ := Command.Yields.of_pure hrest
    have hu : u = t := hafter.eq_of_keeps (List.forall_mem_nil _)
    exact .inr (by simp [hbelongs, hu])

/-- How far a deletion came: through all devices, or to one at which the store failed. -/
inductive Deleted (user : UserId) (t : Store.Table) (devices : List DeviceId) (trace : Trace) :
    Except Error (List DeviceId) → Store.Table → Prop
  | all : Deleted user t devices trace (.ok (devices.filter (t.belongs user)))
      (t.without (devices.filter (t.belongs user)))
  | upTo {before after : List DeviceId} {device : DeviceId} {cause : StoreError}
      (hdevices : devices = before ++ device :: after)
      (hfailed : ∃ m ∈ trace, m.FailsAt device) :
      Deleted user t devices trace (.error (.storage cause))
        (t.without (before.filter (t.belongs user)))

theorem Deleted.mono {devices : List DeviceId} {trace' : Trace}
    {result : Except Error (List DeviceId)} (h : Deleted user t devices trace result u)
    (hsub : trace ⊆ trace') : Deleted user t devices trace' result u := by
  cases h with
  | all => exact .all
  | upTo hdevices hfailed =>
    obtain ⟨m, hm, hfailed⟩ := hfailed
    exact .upTo hdevices ⟨m, hsub hm, hfailed⟩

theorem filter_belongs_cons {device : DeviceId} {rest : List DeviceId} (h : device ∉ rest) :
    (device :: rest).filter (t.belongs user) = [device].filter (t.belongs user) ++
      rest.filter ((t.without ([device].filter (t.belongs user))).belongs user) := by
  rw [← List.singleton_append, List.filter_append]
  congr 1
  refine List.filter_congr fun d hd => (Store.Table.belongs_without fun hmem => h ?_).symm
  obtain rfl : d = device := List.mem_singleton.mp (List.mem_filter.mp hmem).1
  exact hd

theorem Deleted.cons {device : DeviceId} {rest : List DeviceId} {after : Trace}
    {result : Except Error (List DeviceId)} (hnew : device ∉ rest) (before : Trace)
    (h : Deleted user (t.without ([device].filter (t.belongs user))) rest after result u) :
    Deleted user t (device :: rest) (before ++ after)
      (result.map fun others => if t.belongs user device then device :: others else others) u := by
  cases h with
  | all =>
    rw [← Store.Table.without_append, ← filter_belongs_cons hnew]
    have hall : Deleted user t (device :: rest) (before ++ after) _ _ := .all
    convert hall using 1
    rw [filter_belongs_cons hnew]
    cases hbelongs : t.belongs user device <;> simp [Except.map, hbelongs]
  | @upTo first last failed cause hdevices hfailed =>
    subst hdevices
    obtain ⟨m, hm, hfailed⟩ := hfailed
    have hfirst : device ∉ first := fun hmem => hnew (List.mem_append_left _ hmem)
    rw [← Store.Table.without_append, ← filter_belongs_cons hfirst]
    exact .upTo rfl ⟨m, List.mem_append_right _ hm, hfailed⟩

theorem deleteAll_yields {devices : List DeviceId} {result : Except Error (List DeviceId)}
    (h : (deleteAll user devices).Yields trace result) (hnodup : devices.Nodup)
    (hclean : trace.FailsCleanly) (hleads : trace.Leads t u) :
    Deleted user t devices trace result u := by
  -- the records change from round to round; whose a device is does not, as none comes twice
  induction devices generalizing trace t u result with
  | nil =>
    obtain ⟨rfl, rfl⟩ := Command.Yields.of_pure h
    obtain rfl : u = t := hleads.eq_of_keeps (List.forall_mem_nil _)
    have hall : Deleted user u [] [] _ _ := .all
    simpa using hall
  | cons device rest ih =>
    obtain ⟨hnew, hrest⟩ := List.nodup_cons.mp hnodup
    obtain ⟨e, hfirst, rfl⟩ | ⟨before, gone, after, rfl, hfirst, hothers⟩ := h.of_bind
    · obtain ⟨cause, hcause, hfailed, rfl⟩ | ⟨hok, -⟩ := deleteDevice_yields hfirst hclean hleads
      · cases hcause
        have hupTo : Deleted user u ([] ++ device :: rest) trace (.error (.storage cause)) _ :=
          .upTo rfl hfailed
        simpa using hupTo
      · cases hok
    obtain ⟨met, hbefore, hafter⟩ := hleads.of_append
    obtain ⟨cause, hcause, -⟩ | ⟨hgone, rfl⟩ := deleteDevice_yields hfirst
      (fun m hm => hclean m (List.mem_append_left _ hm)) hbefore
    · cases hcause
    cases hgone
    have hclean' : after.FailsCleanly := fun m hm => hclean m (List.mem_append_right _ hm)
    obtain ⟨e, hlast, rfl⟩ | ⟨middle, others, last, rfl, hlast, hend⟩ := hothers.of_bind
    · exact (ih hlast hrest hclean' hafter).cons hnew before
    · obtain ⟨rfl, rfl⟩ := Command.Yields.of_pure hend
      rw [List.append_nil] at *
      exact (ih hlast hrest hclean' hafter).cons hnew before

/-- The devices that a deletion goes through: those that are asked for, or all of the user's. -/
def DeleteRequest.targetsIn (q : DeleteRequest) (t : Store.Table) (user : UserId) :
    Except Error (List DeviceId) :=
  q.targets.map fun requested =>
    if requested.isEmpty then Identifier.sorted ((t.apply (.list user)).1.map (·.device))
    else requested

theorem DeleteRequest.pairwise_targets {q : DeleteRequest} {requested : List DeviceId}
    (h : q.targets = .ok requested) : requested.Pairwise Identifier.Before := by
  obtain ⟨ids, -, hsorted⟩ := Except.bind_ok h
  cases hsorted
  exact Identifier.pairwise_sorted ids

theorem DeleteRequest.pairwise_targetsIn {q : DeleteRequest} {targets : List DeviceId}
    (h : q.targetsIn t user = .ok targets) : targets.Pairwise Identifier.Before := by
  obtain ⟨requested, hrequested, rfl⟩ := Except.map_ok h
  split
  · exact Identifier.pairwise_sorted _
  · exact pairwise_targets hrequested

def deleteFor (user : UserId) (q : DeleteRequest) : Command DeleteAnswer := do
  let requested ← Command.ofExcept q.targets
  let targets ← if requested.isEmpty then do
      let records : List Record ← Command.store (.list user)
      pure (Identifier.sorted (records.map (·.device)))
    else pure requested
  let gone ← deleteAll user targets
  return ⟨gone.map (·.text)⟩

theorem deleteDevices_eq (s : Service) (bearer : String) (q : DeleteRequest) :
    s.deleteDevices bearer q = s.verifier bearer >>= fun user => deleteFor user q := rfl

theorem deleteTargets_yields {targets : List DeviceId} {result : Except Error DeleteAnswer}
    (h : (deleteAll user targets >>= fun gone =>
      (pure ⟨gone.map (·.text)⟩ : Command DeleteAnswer)).Yields trace result)
    (hnodup : targets.Nodup) (hclean : trace.FailsCleanly) (hleads : trace.Leads t u) :
    ∃ gone, Deleted user t targets trace gone u ∧
      result = gone.map fun devices => ⟨devices.map (·.text)⟩ := by
  obtain ⟨e, hall, rfl⟩ | ⟨before, gone, after, rfl, hall, hend⟩ := h.of_bind
  · exact ⟨_, deleteAll_yields hall hnodup hclean hleads, rfl⟩
  · obtain ⟨rfl, rfl⟩ := Command.Yields.of_pure hend
    rw [List.append_nil] at *
    exact ⟨_, deleteAll_yields hall hnodup hclean hleads, rfl⟩

theorem deleteFor_yields {q : DeleteRequest} {result : Except Error DeleteAnswer}
    (h : (deleteFor user q).Yields trace result) (hclean : trace.FailsCleanly)
    (hleads : trace.Leads t u) :
    (∃ e, q.targets = .error e ∧ result = .error e ∧ u = t) ∨
      (∃ cause, result = .error (.storage cause) ∧ (∃ m ∈ trace, m.succeeds = false) ∧ u = t) ∨
      ∃ targets gone, q.targetsIn t user = .ok targets ∧ Deleted user t targets trace gone u ∧
        result = gone.map fun devices => ⟨devices.map (·.text)⟩ := by
  unfold deleteFor at h
  obtain ⟨e, hunread, rfl, rfl⟩ | ⟨requested, hrequested, hrest⟩ := h.of_ofExcept_bind
  · exact .inl ⟨e, hunread, rfl, hleads.eq_of_keeps (List.forall_mem_nil _)⟩
  dsimp only at hrest
  by_cases hnone : requested.isEmpty = true
  · rw [if_pos hnone] at hrest
    obtain ⟨w, rest, rfl, ⟨cause, hfails, rfl, rfl⟩ | ⟨records, hrecords, hall⟩⟩ :=
      hrest.of_store_bind
    · exact .inr (.inl ⟨cause, rfl, ⟨_, List.mem_cons_self, Moment.not_succeeds hfails⟩,
        hleads.of_failed hclean hfails⟩)
    obtain ⟨rfl, hafter⟩ := hleads.of_read rfl hrecords
    have htargets : q.targetsIn t user =
        .ok (Identifier.sorted ((t.apply (.list user)).1.map (·.device))) := by
      rw [DeleteRequest.targetsIn, hrequested, Except.map, if_pos hnone]
    have hnodup := (DeleteRequest.pairwise_targetsIn htargets).imp And.right
    obtain ⟨gone, hdeleted, rfl⟩ := deleteTargets_yields hall hnodup
      (fun m hm => hclean m (List.mem_cons_of_mem _ hm)) hafter
    exact .inr (.inr ⟨_, gone, htargets, hdeleted.mono (List.subset_cons_self _ rest), rfl⟩)
  · rw [if_neg hnone] at hrest
    have htargets : q.targetsIn t user = .ok requested := by
      rw [DeleteRequest.targetsIn, hrequested, Except.map, if_neg hnone]
    have hnodup := (DeleteRequest.pairwise_targetsIn htargets).imp And.right
    obtain ⟨gone, hdeleted, rfl⟩ := deleteTargets_yields hrest hnodup hclean hleads
    exact .inr (.inr ⟨_, gone, htargets, hdeleted, rfl⟩)

/-- The store failed at one of the targets. Those before it that are the user's are gone, and nobody
is told. -/
inductive CutShort (s : Service) (bearer : String) (q : DeleteRequest) (trace : Trace)
    (t u : Store.Table) : Error → Prop
  | mk {user : UserId} {look : Trace} {before after : List DeviceId} {device : DeviceId}
      {cause : StoreError} (hlook : look <+: trace)
      (huser : (s.verifier bearer).Yields look (.ok user))
      (htargets : q.targetsIn t user = .ok (before ++ device :: after))
      (hordered : (before ++ device :: after).Pairwise Identifier.Before)
      (hfailed : ∃ m ∈ trace, m.FailsAt device)
      (hlost : before.filter (t.belongs user) ≠ [])
      (hu : u = t.without (before.filter (t.belongs user))) :
      CutShort s bearer q trace t u (.storage cause)

/-- A deletion that comes to an error has changed no record, or it was cut short by the store. -/
theorem unchanged_or_cutShort {s : Service} {bearer : String} {q : DeleteRequest} {e : Error}
    (hs : (s.verifier bearer).All Action.IsRead)
    (h : (s.deleteDevices bearer q).Yields trace (.error e)) (hclean : trace.FailsCleanly)
    (hleads : trace.Leads t u) : u = t ∨ s.CutShort bearer q trace t u e := by
  rw [deleteDevices_eq] at h
  obtain ⟨e', hunknown, -⟩ | ⟨look, user, rest, rfl, huser, hrest⟩ := h.of_bind
  · exact .inl (hleads.eq_of_keeps fun m hm =>
      Moment.keeps_of_isInert (hunknown.all hs m hm).isInert)
  obtain ⟨met, hfirst, hlast⟩ := hleads.of_append
  obtain rfl : met = t :=
    hfirst.eq_of_keeps fun m hm => Moment.keeps_of_isInert (huser.all hs m hm).isInert
  have hclean' : rest.FailsCleanly := fun m hm => hclean m (List.mem_append_right look hm)
  obtain ⟨-, -, -, hsame⟩ | ⟨-, -, -, hsame⟩ | ⟨targets, gone, htargets, hdeleted, hresult⟩ :=
    deleteFor_yields hrest hclean' hlast
  · exact .inl hsame
  · exact .inl hsame
  cases hdeleted with
  | all => cases hresult
  | @upTo before after device cause hdevices hfailed =>
    subst hdevices
    cases hresult
    by_cases hlost : before.filter (met.belongs user) = []
    · exact .inl (by rw [hlost, Store.Table.without_nil])
    obtain ⟨m, hm, hfails⟩ := hfailed
    exact .inr ⟨List.prefix_append look rest, huser, htargets,
      DeleteRequest.pairwise_targetsIn htargets, ⟨m, List.mem_append_right look hm, hfails⟩, hlost,
      rfl⟩

theorem DeleteRequest.targets_eq {q : DeleteRequest} {ids targets : List DeviceId}
    (hids : (q.devices.filter (· ≠ "")).mapM (Identifier.ofString .device) = .ok ids)
    (hordered : targets.Pairwise Identifier.Before) (hmem : ∀ d, d ∈ targets ↔ d ∈ ids) :
    q.targets = .ok targets := by
  unfold DeleteRequest.targets
  rw [hids, ← Identifier.sorted_eq hordered hmem]
  rfl

theorem deleteFor_eq {q : DeleteRequest} {targets : List DeviceId} (h : q.targets = .ok targets)
    (hne : targets ≠ []) : deleteFor user q = deleteAll user targets >>= fun gone =>
      pure ⟨gone.map (·.text)⟩ := by
  unfold deleteFor
  rw [h]
  exact if_neg (by simpa using hne)

theorem fault?_sampleSecond : Identifier.fault? "e" = none := by decide

def sampleDevices : World :=
  Verifier.sampleStore [Verifier.sampleActive,
    { Verifier.sampleActive with device := ⟨"e", fault?_sampleSecond⟩, accessToken := ⟨"s"⟩ }]

def sampleUnwanted : DeleteRequest := ⟨["e", "", "d", "e"]⟩

/-- The deletion of both; after some of its actions the store refuses one kind of operation. -/
def sampleDeletion (quiet : Nat) (kind : Store.Operation.Kind) :
    Trace × Except Error DeleteAnswer :=
  Program.among (ExceptT.run (Crowd.sampleService.deleteDevices "t" sampleUnwanted))
    (Program.outage quiet [kind]) sampleDevices

theorem targets_sampleUnwanted :
    sampleUnwanted.targets = .ok [⟨"d", by decide⟩, ⟨"e", by decide⟩] := by
  have hids : ((sampleUnwanted.devices.filter (· ≠ "")).mapM (Identifier.ofString .device)) =
      .ok [⟨"e", by decide⟩, ⟨"d", by decide⟩, ⟨"e", by decide⟩] := rfl
  exact DeleteRequest.targets_eq hids (by decide) (by simp)

theorem sampleDeletion_eq (quiet : Nat) (kind : Store.Operation.Kind) :
    sampleDeletion quiet kind =
      Program.among (ExceptT.run (Verifier.ofStore "t" >>= fun user =>
        deleteAll user [⟨"d", by decide⟩, ⟨"e", by decide⟩] >>= fun gone =>
          (pure ⟨gone.map (·.text)⟩ : Command DeleteAnswer)))
        (Program.outage quiet [kind]) sampleDevices := by
  simp only [sampleDeletion, deleteDevices_eq,
    deleteFor_eq targets_sampleUnwanted (List.cons_ne_nil _ _)]
  rfl

/-- The second device is found, but not removed. -/
theorem cutShort_unremoved :
    let run := sampleDeletion 6 .remove
    run.2 = .error (.storage (.backend "remove rejected")) ∧
      Crowd.sampleService.CutShort "t" sampleUnwanted run.1 sampleDevices.table
        (run.1.leaves sampleDevices.table) (.storage (.backend "remove rejected")) := by
  intro run
  have hrun : run = _ := sampleDeletion_eq 6 .remove
  have hresult : run.2 = .error (.storage (.backend "remove rejected")) := by
    rw [hrun]
    decide +kernel
  have hgone : (run.1.leaves sampleDevices.table).get? Record.sample.device = none := by
    rw [hrun]
    decide +kernel
  have hyields : (Crowd.sampleService.deleteDevices "t" sampleUnwanted).Yields run.1 run.2 :=
    Program.yields_among _ _ sampleDevices
  refine ⟨hresult, ?_⟩
  obtain hsame | hcut := unchanged_or_cutShort (Verifier.ofStore_reads "t") (hresult ▸ hyields)
    (Program.failsCleanly_among (Program.backend_outage 6 [.remove]) _ rfl)
    (Program.leads_among (Program.backend_outage 6 [.remove]) _ sampleDevices)
  · rw [show run.1.leaves sampleDevices.table = _ from hsame] at hgone
    cases hgone
  · exact hcut

/-- The second device is not even looked up, and the first is gone. -/
theorem exists_lost_before_failure :
    let run := sampleDeletion 5 .fetch
    (∀ f ∈ Program.outage 5 [.fetch], ∀ w : World, (f w).store.backend = w.store.backend) ∧
      run.1.FailsCleanly ∧ run.2 = .error (.storage (.backend "fetch rejected")) ∧
      sampleDevices.table.get? Record.sample.device = some Verifier.sampleActive ∧
      (run.1.leaves sampleDevices.table).get? Record.sample.device = none := by
  intro run
  have hrun : run = _ := sampleDeletion_eq 5 .fetch
  have hothers := Program.backend_outage 5 [.fetch]
  refine ⟨hothers, Program.failsCleanly_among hothers _ rfl, ?_, by decide +kernel, ?_⟩
  · rw [hrun]
    decide +kernel
  · rw [hrun]
    decide +kernel

end Service

end DeviceAuth
