import DeviceAuth.Proofs.Service.Basic
import DeviceAuth.Service.UserDevices

/-! Listing changes no record, and deleting removes only records of the user behind the bearer. -/
namespace DeviceAuth.Service

theorem listDevices_reads {s : Service} {bearer : String} (q : ListRequest)
    (hs : (s.verifier bearer).All Action.IsRead) : (s.listDevices bearer q).All Action.IsRead := by
  unfold listDevices
  refine hs.bind fun user => ?_
  split
  · exact Command.all_pure _
  · exact (Command.store_reads (.list user) rfl).bind fun records => Command.all_pure _

/-- The record of a device is as before, or it was the user's and is gone. -/
def KeptOrRemoved (user : UserId) (w w' : World) (d : DeviceId) : Prop :=
  w'.record? d = w.record? d ∨ (w'.record? d = none ∧ ∃ r, w.record? d = some r ∧ r.owner = user)

theorem KeptOrRemoved.trans {user : UserId} {w₁ w₂ w₃ : World} {d : DeviceId}
    (h₁ : KeptOrRemoved user w₁ w₂ d) (h₂ : KeptOrRemoved user w₂ w₃ d) :
    KeptOrRemoved user w₁ w₃ d := by
  rcases h₁ with h₁ | ⟨hnone, hr⟩
  · rcases h₂ with h₂ | ⟨hnone, hr⟩
    · exact .inl (h₂.trans h₁)
    · exact .inr ⟨hnone, h₁ ▸ hr⟩
  · rcases h₂ with h₂ | ⟨hnone', -⟩
    · exact .inr ⟨h₂.trans hnone, hr⟩
    · exact .inr ⟨hnone', hr⟩

theorem keptOrRemoved_remove {user : UserId} {w : World} {device d : DeviceId} {r : Record}
    (hr : w.record? device = some r) (ho : r.owner = user) :
    KeptOrRemoved user w { w with store := (w.store.apply (.remove device)).2 } d := by
  show (w.store.apply (.remove device)).2.table.get? d = w.record? d ∨
    ((w.store.apply (.remove device)).2.table.get? d = none ∧ _)
  by_cases hd : device = d
  · subst hd
    rw [Store.table_apply]
    split
    · exact .inl rfl
    · have hget : w.store.table.get? device = some r := hr
      exact .inr ⟨by simp [Store.Table.next, Store.Table.apply, hget, Store.Table.get?_erase],
        r, hr, ho⟩
  · refine .inl (Store.get?_table_apply_of_ne fun h => hd ?_)
    exact Option.some.inj h

theorem keptOrRemoved_deleteDevice (user : UserId) (device : DeviceId) (w : World)
    (d : DeviceId) :
    KeptOrRemoved user w (w.runCommand (deleteDevice user device)).2 d := by
  unfold deleteDevice
  obtain ⟨e, -, he⟩ | ⟨found, hf, hrest⟩ :=
    World.runCommand_bind_cases (Command.store_reads (.fetch device) rfl) _ w
  · rw [he]
    exact .inl rfl
  rw [hrest]
  have hfound : found = w.record? device := World.runCommand_store_ok hf
  split
  · exact .inl rfl
  rename_i howned
  cases hr : found with
  | none => simp [hr] at howned
  | some r =>
    have ho : r.owner = user := by simpa [hr, Record.isOwnedBy] using howned
    have hremoved : KeptOrRemoved user w
        { w with store := (w.store.apply (.remove device)).2 } d :=
      keptOrRemoved_remove (hfound.symm.trans hr) ho
    rw [World.runCommand_bind, World.runCommand_store]
    cases hx : (w.store.apply (.remove device)).1 with
    | error e => exact hremoved
    | ok removed =>
      dsimp only [Except.mapError]
      split
      · exact hremoved
      · rw [World.runCommand_bind, World.runCommand_perform]
        exact hremoved

theorem keptOrRemoved_deleteAll (user : UserId) (devices : List DeviceId) (w : World)
    (d : DeviceId) : KeptOrRemoved user w (w.runCommand (deleteAll user devices)).2 d := by
  induction devices generalizing w with
  | nil => exact .inl rfl
  | cons device rest ih =>
    have hfirst := keptOrRemoved_deleteDevice user device w d
    unfold deleteAll
    rw [World.runCommand_bind]
    rcases hrun : w.runCommand (deleteDevice user device) with ⟨e | gone, w'⟩
    · rw [hrun] at hfirst
      exact hfirst
    · rw [hrun] at hfirst
      have hrest := ih w'
      dsimp only
      rw [World.runCommand_bind]
      rcases hrun' : w'.runCommand (deleteAll user rest) with ⟨e | others, w''⟩
      · rw [hrun'] at hrest
        exact hfirst.trans hrest
      · rw [hrun'] at hrest
        exact hfirst.trans hrest

theorem runCommand_deleteDevices {s : Service} {bearer : String}
    (hs : (s.verifier bearer).All Action.IsRead) (q : DeleteRequest) (w : World) :
    (∃ e, w.runCommand (s.deleteDevices bearer q) = (.error e, w)) ∨
      ∃ user targets, (w.runCommand (s.verifier bearer)).1 = .ok user ∧
        w.runCommand (s.deleteDevices bearer q) =
          w.runCommand (deleteAll user targets >>= fun gone => pure ⟨gone.map (·.text)⟩) := by
  unfold deleteDevices
  obtain ⟨e, -, he⟩ | ⟨user, hu, hrest⟩ := World.runCommand_bind_cases hs _ w
  · exact .inl ⟨e, he⟩
  rw [hrest]
  obtain ⟨e, -, he⟩ | ⟨requested, -, hrest⟩ :=
    World.runCommand_bind_cases (Command.all_ofExcept q.targets) _ w
  · exact .inl ⟨e, he⟩
  rw [hrest]
  dsimp only
  split
  · obtain ⟨e, -, he⟩ | ⟨records, -, hrest⟩ :=
      World.runCommand_bind_cases (Command.store_reads (.list user) rfl) _ w
    · exact .inl ⟨e, he⟩
    · exact .inr ⟨user, _, hu, hrest⟩
  · exact .inr ⟨user, requested, hu, rfl⟩

theorem keptOrRemoved_deleteDevices {s : Service} {bearer : String}
    (hs : (s.verifier bearer).All Action.IsRead) {q : DeleteRequest} {w : World} {d : DeviceId}
    (h : (w.runCommand (s.deleteDevices bearer q)).2.record? d ≠ w.record? d) :
    ∃ user, (w.runCommand (s.verifier bearer)).1 = .ok user ∧
      (w.runCommand (s.deleteDevices bearer q)).2.record? d = none ∧
      ∃ r, w.record? d = some r ∧ r.owner = user := by
  obtain ⟨e, he⟩ | ⟨user, targets, hu, hrun⟩ := runCommand_deleteDevices hs q w
  · rw [he] at h
    exact absurd rfl h
  have hkept := keptOrRemoved_deleteAll user targets w d
  have hworld : (w.runCommand (s.deleteDevices bearer q)).2 =
      (w.runCommand (deleteAll user targets)).2 := by
    rw [hrun, World.runCommand_bind]
    rcases w.runCommand (deleteAll user targets) with ⟨e | gone, w'⟩ <;> rfl
  rw [hworld] at h ⊢
  exact ⟨user, hu, hkept.resolve_left h⟩

theorem deleteAll_free (user : UserId) (devices : List DeviceId) :
    (deleteAll user devices).All Action.IsFree := by
  induction devices with
  | nil => exact Command.all_pure _
  | cons device rest ih =>
    have hfirst : (deleteDevice user device).All Action.IsFree := by
      unfold deleteDevice
      refine (Command.all_store trivial).bind fun found => ?_
      split
      · exact Command.all_pure _
      · refine (Command.all_store trivial).bind fun removed => ?_
        split
        · exact Command.all_pure _
        · exact (Command.all_perform trivial).bind fun _ => Command.all_pure _
    exact hfirst.bind fun gone => ih.bind fun others => Command.all_pure _

theorem deleteDevices_free {s : Service} {bearer : String} (q : DeleteRequest)
    (hs : (s.verifier bearer).All Action.IsFree) :
    (s.deleteDevices bearer q).All Action.IsFree := by
  unfold deleteDevices
  refine hs.bind fun user => ?_
  refine (Command.all_ofExcept _).bind fun requested => ?_
  have hend : ∀ targets, (deleteAll user targets >>= fun gone =>
      (pure ⟨gone.map (·.text)⟩ : Command DeleteAnswer)).All Action.IsFree :=
    fun targets => (deleteAll_free user targets).bind fun gone => Command.all_pure _
  dsimp only
  split
  · exact (Command.all_store trivial).bind fun records => hend _
  · exact hend requested

end DeviceAuth.Service
