import DeviceAuth.Proofs.Service.Deletion
import DeviceAuth.Proofs.Store.Snapshot
import DeviceAuth.Proofs.Tidiness

/-! A deletion next to a listing of the same devices. The listing goes through the user's records
and keeps those that are asked for; the deletion goes through what is asked for and removes what is
the user's. -/
namespace DeviceAuth

namespace World

theorem isSound_of_bind {α β : Type} {w : World} {c : Command α} {f : α → Command β} {a : α}
    (hc : c.All Action.IsRead) (ha : (w.runCommand c).1 = .ok a)
    (h : (w.trace (ExceptT.run (c >>= f))).IsSound) :
    (w.trace (ExceptT.run (f a))).IsSound := by
  have hrun : w.runCommand c = (.ok a, w) := Prod.ext ha (run_of_isRead hc w)
  rw [trace_bind_eq, hrun] at h
  exact fun m hm => h m (List.mem_append_right _ hm)

end World

namespace Service

variable {user : UserId} {t : Store.Table} {ids : List String} {d : DeviceId}

/-- The device is one of those asked for. Who names none asks for all. -/
def Requests (ids : List String) (d : DeviceId) : Prop :=
  (∀ id ∈ ids, id = "") ∨ d.text ∈ ids

theorem matches_iff {q : ListRequest} {r : Record} :
    q.matches r = true ↔ Requests q.devices r.device := by
  simp [ListRequest.matches, Requests, Identifier.text_ne_empty]

theorem mem_devices_list (ht : t.WellFormed) :
    d ∈ (t.apply (.list user)).1.map (·.device) ↔ t.belongs user d = true := by
  rw [Store.Table.belongs_iff, List.mem_map]
  constructor
  · rintro ⟨r, hr, rfl⟩
    obtain ⟨hmem, howned⟩ := List.mem_filter.mp (List.mem_mergeSort.mp hr)
    exact ⟨r, ht.get?_of_mem_records hmem, of_decide_eq_true howned⟩
  · rintro ⟨r, hr, howner⟩
    refine ⟨r, List.mem_mergeSort.mpr (List.mem_filter.mpr ⟨?_, decide_eq_true howner⟩),
      ht.device_of_get? hr⟩
    exact Store.Table.mem_records_of_get? hr

theorem pairwise_devices_list (ht : t.WellFormed) (user : UserId) :
    ((t.apply (.list user)).1.map (·.device)).Pairwise Identifier.Before := by
  have hordered := Store.Table.pairwise_sortByDevice (t.records.filter (·.isOwnedBy user))
  have hnodup : ((t.apply (.list user)).1.map (·.device)).Nodup := by
    refine ((List.mergeSort_perm _ _).map _).nodup_iff.mpr ?_
    exact ht.nodup_devices.sublist (List.filter_sublist.map _)
  exact (List.pairwise_map.mpr hordered).and hnodup

theorem DeleteRequest.targets_ok {q : DeleteRequest}
    (h : ∀ id ∈ q.devices, id = "" ∨ Identifier.fault? id = none) :
    ∃ requested, q.targets = .ok requested ∧ ∀ d, d ∈ requested ↔ d.text ∈ q.devices := by
  have hvalid : ∀ s ∈ q.devices.filter (· ≠ ""), Identifier.fault? s = none := by
    intro s hs
    obtain ⟨hmem, hne⟩ := List.mem_filter.mp hs
    exact (h s hmem).resolve_left (of_decide_eq_true hne)
  refine ⟨Identifier.sorted ((q.devices.filter (· ≠ "")).pmap Identifier.mk hvalid), ?_,
    fun d => ?_⟩
  · rw [DeleteRequest.targets, Identifier.mapM_ofString hvalid]
    rfl
  · rw [Identifier.mem_sorted, List.mem_pmap]
    constructor
    · rintro ⟨s, hs, rfl⟩
      exact (List.mem_filter.mp hs).1
    · intro hd
      exact ⟨d.text, List.mem_filter.mpr ⟨hd, decide_eq_true (Identifier.text_ne_empty d)⟩, rfl⟩

theorem DeleteRequest.targets_error {q : DeleteRequest}
    (h : ∃ id ∈ q.devices, id ≠ "" ∧ Identifier.fault? id ≠ none) :
    ∃ reason, q.targets = .error (.invalidArgument reason) := by
  obtain ⟨id, hmem, hne, hfault⟩ := h
  have hinvalid : ∃ s ∈ q.devices.filter (· ≠ ""), Identifier.fault? s ≠ none :=
    ⟨id, List.mem_filter.mpr ⟨hmem, decide_eq_true hne⟩, hfault⟩
  obtain ⟨e, he⟩ := Identifier.exists_mapM_ofString .device hinvalid
  exact ⟨e.message, by rw [DeleteRequest.targets, he]; rfl⟩

theorem DeleteRequest.mem_targetsIn {q : DeleteRequest} {targets : List DeviceId}
    (ht : t.WellFormed) (hvalid : ∀ id ∈ q.devices, id = "" ∨ Identifier.fault? id = none)
    (htargets : q.targetsIn t user = .ok targets) (hd : t.belongs user d = true) :
    d ∈ targets ↔ Requests q.devices d := by
  obtain ⟨requested, hrequested, hmem⟩ := targets_ok hvalid
  rw [targetsIn, hrequested] at htargets
  cases htargets
  dsimp only
  split
  · rename_i hnone
    have hall : ∀ id ∈ q.devices, id = "" := by
      intro id hid
      refine (hvalid id hid).resolve_right fun hfault => ?_
      have hin := (hmem ⟨id, hfault⟩).mpr hid
      simp [List.isEmpty_iff.mp hnone] at hin
    exact iff_of_true (Identifier.mem_sorted.mpr ((mem_devices_list ht).mpr hd)) (.inl hall)
  · rename_i hsome
    rw [hmem]
    refine ⟨.inr, fun h => h.resolve_left fun hall => hsome ?_⟩
    rw [List.isEmpty_iff, List.eq_nil_iff_forall_not_mem]
    exact fun id hid => Identifier.text_ne_empty id (hall _ ((hmem id).mp hid))

/-- The devices of a user that are asked for, in order. -/
structure Picks (t : Store.Table) (user : UserId) (ids : List String) (devices : List DeviceId) :
    Prop where
  mem_iff : ∀ d, d ∈ devices ↔ t.belongs user d = true ∧ Requests ids d
  ordered : devices.Pairwise Identifier.Before

theorem Picks.unique {devices devices' : List DeviceId} (h : Picks t user ids devices)
    (h' : Picks t user ids devices') : devices = devices' :=
  h.ordered.eq_of_mem_iff h'.ordered fun d => (h.mem_iff d).trans (h'.mem_iff d).symm

theorem picks_shown (ht : t.WellFormed) (user : UserId) (q : ListRequest) :
    Picks t user q.devices (((t.apply (.list user)).1.filter q.matches).map (·.device)) where
  mem_iff d := by
    rw [List.mem_map, ← mem_devices_list ht, List.mem_map]
    simp only [List.mem_filter, matches_iff]
    constructor
    · rintro ⟨r, ⟨hr, hmatches⟩, rfl⟩
      exact ⟨⟨r, hr, rfl⟩, hmatches⟩
    · rintro ⟨⟨r, hr, rfl⟩, hrequests⟩
      exact ⟨r, ⟨hr, hrequests⟩, rfl⟩
  ordered := (pairwise_devices_list ht user).sublist (List.filter_sublist.map _)

theorem picks_removed {q : DeleteRequest} {targets : List DeviceId} (ht : t.WellFormed)
    (hvalid : ∀ id ∈ q.devices, id = "" ∨ Identifier.fault? id = none)
    (htargets : q.targetsIn t user = .ok targets) :
    Picks t user q.devices (targets.filter (t.belongs user)) where
  mem_iff d := by
    rw [List.mem_filter, and_comm]
    exact and_congr_right fun hd => DeleteRequest.mem_targetsIn ht hvalid htargets hd
  ordered := (DeleteRequest.pairwise_targetsIn htargets).filter _

/-- What a deletion comes to, next to a listing of the same devices: neither is done for a bearer
that is not let in, or what is listed is gone. -/
inductive Mirrors (s : Service) (bearer : String) (ids : List String) (w : World) :
    Except Error ListAnswer → Except Error DeleteAnswer × World → Prop
  | refused {e : Error} (hbearer : (w.runCommand (s.verifier bearer)).1 = .error e) :
      Mirrors s bearer ids w (.error e) (.error e, w)
  | deleted {user : UserId} {devices : List DeviceId} {shown : ListAnswer} {w' : World}
      (huser : (w.runCommand (s.verifier bearer)).1 = .ok user)
      (hpicks : Picks w.table user ids devices)
      (hshown : shown.devices = devices.map fun d => ⟨d.text, user.text⟩)
      (hgone : w'.table = w.table.without devices) :
      Mirrors s bearer ids w (.ok shown) (.ok ⟨devices.map (·.text)⟩, w')

theorem Mirrors.of_user {s : Service} {bearer : String} {w : World} {devices : List DeviceId}
    {listed : Except Error ListAnswer} {deletion : Except Error DeleteAnswer × World}
    (h : Mirrors s bearer ids w listed deletion)
    (huser : (w.runCommand (s.verifier bearer)).1 = .ok user)
    (hpicks : Picks w.table user ids devices) :
    listed = .ok ⟨devices.map fun d => ⟨d.text, user.text⟩⟩ ∧
      deletion.1 = .ok ⟨devices.map (·.text)⟩ ∧ deletion.2.table = w.table.without devices := by
  cases h with
  | refused hbearer => cases huser.symm.trans hbearer
  | @deleted user' devices' shown w' huser' hpicks' hshown hgone =>
    cases huser.symm.trans huser'
    obtain rfl := hpicks.unique hpicks'
    exact ⟨hshown ▸ rfl, rfl, hgone⟩

section

variable {s : Service} {bearer : String} {w : World}
  (hs : (s.verifier bearer).All Action.IsRead) (ht : w.table.WellFormed)
include hs ht

theorem runCommand_listDevices
    (hsound : (w.trace (ExceptT.run (s.listDevices bearer ⟨[], ids⟩))).IsSound) :
    (∃ e, (w.runCommand (s.verifier bearer)).1 = .error e ∧
      (w.runCommand (s.listDevices bearer ⟨[], ids⟩)).1 = .error e) ∨
    ∃ user devices, (w.runCommand (s.verifier bearer)).1 = .ok user ∧
      Picks w.table user ids devices ∧
      (w.runCommand (s.listDevices bearer ⟨[], ids⟩)).1 =
        .ok ⟨devices.map fun d => ⟨d.text, user.text⟩⟩ := by
  unfold listDevices at hsound ⊢
  obtain ⟨e, he, hrun⟩ | ⟨user, huser, hrun⟩ := World.runCommand_bind_cases hs _ w
  · exact .inl ⟨e, he, congrArg Prod.fst hrun⟩
  have hsearch := World.isSound_of_bind hs huser hsound
  obtain ⟨records, hrecords⟩ : ∃ records, (w.store.apply (.list user)).1 = .ok records :=
    Moment.exists_ok_of_succeeds (hsearch _ List.mem_cons_self)
  refine .inr ⟨user, _, huser, picks_shown ht user ⟨[], ids⟩, ?_⟩
  obtain rfl : records = (w.table.apply (.list user)).1 := (Store.answer_apply hrecords).1
  have howner : ∀ r ∈ (w.table.apply (.list user)).1, r.owner = user := fun r hr =>
    of_decide_eq_true (List.mem_filter.mp (List.mem_mergeSort.mp hr)).2
  rw [hrun, if_neg (by simp [ListRequest.concerns]), World.runCommand_bind, World.runCommand_store,
    hrecords, List.map_map]
  refine congrArg (fun shown => Except.ok (ListAnswer.mk shown))
    (List.map_congr_left fun r hr => ?_)
  rw [howner r (List.mem_filter.mp hr).1]
  rfl

theorem runCommand_deleteDevices_of_sound
    (hvalid : ∀ id ∈ ids, id = "" ∨ Identifier.fault? id = none)
    (hsound : (w.trace (ExceptT.run (s.deleteDevices bearer ⟨ids⟩))).IsSound) :
    (∃ e, (w.runCommand (s.verifier bearer)).1 = .error e ∧
      w.runCommand (s.deleteDevices bearer ⟨ids⟩) = (.error e, w)) ∨
    ∃ user devices, (w.runCommand (s.verifier bearer)).1 = .ok user ∧
      Picks w.table user ids devices ∧
      (w.runCommand (s.deleteDevices bearer ⟨ids⟩)).1 = .ok ⟨devices.map (·.text)⟩ ∧
      (w.runCommand (s.deleteDevices bearer ⟨ids⟩)).2.table = w.table.without devices := by
  rw [deleteDevices_eq] at hsound ⊢
  obtain ⟨e, he, hrun⟩ | ⟨user, huser, hrun⟩ := World.runCommand_bind_cases hs (deleteFor · ⟨ids⟩) w
  · exact .inl ⟨e, he, hrun⟩
  have hrest : (w.trace (ExceptT.run (deleteFor user ⟨ids⟩))).IsSound :=
    World.isSound_of_bind (f := (deleteFor · ⟨ids⟩)) hs huser hsound
  have hnever : ∀ m ∈ w.trace (ExceptT.run (deleteFor user ⟨ids⟩)), m.succeeds ≠ false :=
    fun m hm => by simp [hrest m hm]
  rw [hrun]
  -- it stops early only for a name that cannot be read or for an operation that fails
  obtain ⟨e, herror, -⟩ | ⟨cause, -, ⟨m, hm, hfails⟩, -⟩ |
      ⟨targets, gone, htargets, hdeleted, hresult⟩ :=
    deleteFor_yields (Command.yields_runCommand w (deleteFor user ⟨ids⟩))
      (fun m hm hfails => absurd hfails (hnever m hm)) (World.leads_trace w _)
  · obtain ⟨requested, hrequested, -⟩ := DeleteRequest.targets_ok (q := ⟨ids⟩) hvalid
    rw [hrequested] at herror
    cases herror
  · exact absurd hfails (hnever m hm)
  refine .inr ⟨user, targets.filter (w.table.belongs user), huser,
    picks_removed (q := ⟨ids⟩) ht hvalid htargets, ?_⟩
  generalize hafter : (w.run (ExceptT.run (deleteFor user ⟨ids⟩))).2.table = u at hdeleted
  cases hdeleted with
  | all => exact ⟨hresult, hafter⟩
  | upTo hdevices hfailed =>
    obtain ⟨m, hm, hfails⟩ := hfailed
    exact absurd hfails.fails (hnever m hm)

end

/-- As long as the store works, a deletion takes away just what a listing of the same devices shows,
and fails just if the listing fails. A text that names no device is refused, and nothing is deleted
then. -/
theorem deleteDevices_mirrors_listDevices {s : Service} {bearer : String} {w : World}
    (hs : (s.verifier bearer).All Action.IsRead) (ht : w.table.WellFormed) (ids : List String) :
    ((∀ id ∈ ids, id = "" ∨ Identifier.fault? id = none) →
      (w.trace (ExceptT.run (s.listDevices bearer ⟨[], ids⟩))).IsSound →
      (w.trace (ExceptT.run (s.deleteDevices bearer ⟨ids⟩))).IsSound →
      Mirrors s bearer ids w (w.runCommand (s.listDevices bearer ⟨[], ids⟩)).1
        (w.runCommand (s.deleteDevices bearer ⟨ids⟩))) ∧
    ((∃ id ∈ ids, id ≠ "" ∧ Identifier.fault? id ≠ none) →
      ∀ user, (w.runCommand (s.verifier bearer)).1 = .ok user →
        ∃ reason, w.runCommand (s.deleteDevices bearer ⟨ids⟩) =
          (.error (.invalidArgument reason), w)) := by
  constructor
  · intro hvalid hlist hdelete
    obtain ⟨e, he, hshown⟩ | ⟨user, devices, huser, hpicks, hshown⟩ :=
      runCommand_listDevices hs ht hlist
    · obtain ⟨e', he', hrun⟩ | ⟨user, -, huser, -⟩ :=
        runCommand_deleteDevices_of_sound hs ht hvalid hdelete
      · cases he.symm.trans he'
        rw [hshown, hrun]
        exact .refused he
      · cases he.symm.trans huser
    · obtain ⟨e', he', -⟩ | ⟨user', devices', huser', hpicks', hresult, hgone⟩ :=
        runCommand_deleteDevices_of_sound hs ht hvalid hdelete
      · cases huser.symm.trans he'
      cases huser.symm.trans huser'
      obtain rfl := hpicks.unique hpicks'
      rw [hshown,
        show w.runCommand (s.deleteDevices bearer ⟨ids⟩) = (_, _) from Prod.ext hresult rfl]
      exact .deleted huser hpicks rfl hgone
  · intro hinvalid user huser
    obtain ⟨reason, hreason⟩ := DeleteRequest.targets_error (q := ⟨ids⟩) hinvalid
    have hverified : w.runCommand (s.verifier bearer) = (.ok user, w) :=
      Prod.ext huser (World.run_of_isRead hs w)
    refine ⟨reason, ?_⟩
    rw [deleteDevices_eq, World.runCommand_bind_ok w hverified]
    unfold deleteFor
    rw [hreason]
    rfl

/-- One of two devices is named twice, and then a text that names none. -/
theorem mirrors_sample :
    let e : DeviceId := ⟨"e", by decide⟩
    let run := sampleDevices.runCommand
      (Crowd.sampleService.deleteDevices "t" ⟨["e", "", "e"]⟩)
    (sampleDevices.runCommand (Crowd.sampleService.listDevices "t" ⟨[], ["e", "", "e"]⟩)).1 =
        .ok ⟨[⟨"e", "u"⟩]⟩ ∧
      run.1 = .ok ⟨["e"]⟩ ∧ run.2.table = sampleDevices.table.without [e] ∧
      ∃ reason, sampleDevices.runCommand
        (Crowd.sampleService.deleteDevices "t" ⟨["e", "a b"]⟩) =
          (.error (.invalidArgument reason), sampleDevices) := by
  intro e run
  have hreads : (Crowd.sampleService.verifier "t").All Action.IsRead := Verifier.ofStore_reads "t"
  have ht : sampleDevices.table.WellFormed := Store.Table.wellFormed_ofRecords _
  have huser : (sampleDevices.runCommand (Crowd.sampleService.verifier "t")).1 =
      .ok ⟨"u", by decide⟩ := by
    decide +kernel
  have hpicks : Picks sampleDevices.table ⟨"u", by decide⟩ ["e", "", "e"] [e] := by
    refine ⟨fun d => ⟨fun hd => ?_, fun ⟨_, hd⟩ => ?_⟩, List.pairwise_singleton _ _⟩
    · rw [List.mem_singleton.mp hd]
      exact ⟨by decide +kernel, .inr List.mem_cons_self⟩
    · rcases hd with hnone | hd
      · exact absurd (hnone "e" List.mem_cons_self) (by decide)
      · have htext : d.text = "e" := by simpa [Identifier.text_ne_empty] using hd
        exact List.mem_singleton.mpr (Identifier.ext_text htext)
  have hmirrors := (deleteDevices_mirrors_listDevices hreads ht ["e", "", "e"]).1 (by decide)
    (World.isSound_trace rfl rfl _) (World.isSound_trace rfl rfl _)
  have hinvalid := (deleteDevices_mirrors_listDevices hreads ht ["e", "a b"]).2
    ⟨"a b", by decide⟩ _ huser
  obtain ⟨hshown, hresult, hgone⟩ := hmirrors.of_user huser hpicks
  exact ⟨hshown, hresult, hgone, hinvalid⟩

end Service

end DeviceAuth
