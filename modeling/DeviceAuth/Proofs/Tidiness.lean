import DeviceAuth.Proofs.Ownership
import DeviceAuth.Proofs.Trace

/-! The guards that a service keeps, and the devices that it knows. Whoever takes a record away has
to have the guard forgotten as well; whoever takes the guard of a device may be left with one that
belongs to no record. -/
namespace DeviceAuth

variable {α β : Type}

namespace Guards

variable {g : Guards} {device d : DeviceId}

def devices (g : Guards) : List DeviceId := g.entries.map (·.1)

theorem mem_devices_lookup : d ∈ (g.lookup device).2.devices ↔ d = device ∨ d ∈ g.devices := by
  unfold lookup
  cases hentry : g.entries.find? (·.1 = device) with
  | none => simp [devices]
  | some entry =>
    have hmem : device ∈ g.devices := by
      have hdevice : entry.1 = device := by simpa using List.find?_some hentry
      exact List.mem_map.mpr ⟨entry, List.mem_of_find?_eq_some hentry, hdevice⟩
    exact ⟨.inr, fun h => h.elim (fun hd => hd ▸ hmem) id⟩

theorem mem_devices_forget : d ∈ (g.forget device).devices ↔ d ∈ g.devices ∧ d ≠ device := by
  simp only [devices, forget, List.mem_map, List.mem_filter, decide_eq_true_eq]
  constructor
  · rintro ⟨entry, ⟨hentry, hne⟩, rfl⟩
    exact ⟨⟨entry, hentry, rfl⟩, hne⟩
  · rintro ⟨⟨entry, hentry, rfl⟩, hne⟩
    exact ⟨entry, ⟨hentry, hne⟩, rfl⟩

end Guards

/-- The action takes no record away, and a guard is kept for the same devices after it. -/
def Action.IsSteady : Action → Prop
  | .store (.remove _) | .lookupGuard _ | .forgetGuard _ => False
  | _ => True

theorem Action.IsRead.isSteady {a : Action} (h : a.IsRead) : a.IsSteady := by
  cases a with
  | store op =>
    cases op with
    | remove _ => cases h
    | _ => trivial
  | lookupGuard _ | forgetGuard _ => cases h
  | _ => trivial

namespace World

variable {w : World} {device d : DeviceId}

def Tidy (w : World) : Prop := ∀ d ∈ w.guards.devices, w.record? d ≠ none

theorem registered_answer {a : Action} (ha : a ≠ .store (.remove d)) (h : w.record? d ≠ none) :
    (answer a w).2.record? d ≠ none := by
  rcases record?_answer_cases a w d with hsame | ⟨r, -, hafter⟩ | ⟨r, now, -, hafter⟩ | ⟨hremove, -⟩
  · rwa [hsame]
  · simp [hafter]
  · simp [hafter]
  · exact absurd hremove ha

theorem steady_answer {a : Action} (ha : a.IsSteady) (w : World) :
    (answer a w).2.guards.devices = w.guards.devices ∧
      ∀ d, w.record? d ≠ none → (answer a w).2.record? d ≠ none := by
  refine ⟨?_, fun d => registered_answer ?_⟩
  · cases a with
    | lookupGuard _ | forgetGuard _ => cases ha
    | _ => rfl
  · rintro rfl
    cases ha

theorem steady_run {p : Program α} (hp : p.All Action.IsSteady) (w : World) :
    (w.run p).2.guards.devices = w.guards.devices ∧
      ∀ d, w.record? d ≠ none → (w.run p).2.record? d ≠ none := by
  refine run_of_all (I := fun w' => w'.guards.devices = w.guards.devices ∧
    ∀ d, w.record? d ≠ none → w'.record? d ≠ none) (fun a w' ha hw' => ?_) hp ⟨rfl, fun _ => id⟩
  obtain ⟨hdevices, hrecords⟩ := steady_answer ha w'
  exact ⟨hdevices.trans hw'.1, fun d hd => hrecords d (hw'.2 d hd)⟩

theorem Tidy.of_steady {p : Program α} (hp : p.All Action.IsSteady) (hw : w.Tidy) :
    (w.run p).2.Tidy := by
  obtain ⟨hdevices, hrecords⟩ := steady_run hp w
  intro d hd
  exact hrecords d (hw d (hdevices ▸ hd))

theorem steady_guarded {body : Command α} (hbody : body.All Action.IsSteady) (w : World)
    (device : DeviceId) :
    let w' := (w.runCommand (.guarded device body)).2
    (∀ d, d ∈ w'.guards.devices ↔ d = device ∨ d ∈ w.guards.devices) ∧
      ∀ d, w.record? d ≠ none → w'.record? d ≠ none := by
  have hrun := congrArg Prod.snd (w.runCommand_guarded device body)
  let taken : World :=
    { w with guards := (w.guards.lookup device).2.acquire (w.guards.lookup device).1 }
  obtain ⟨hdevices, hrecords⟩ := steady_run hbody taken
  intro w'
  have hw' : w' = _ := hrun
  rw [hw']
  refine ⟨fun d => ?_, hrecords⟩
  exact (Eq.to_iff (congrArg (d ∈ ·) hdevices)).trans Guards.mem_devices_lookup

theorem tidy_guarded_iff {body : Command α} (hbody : body.All Action.IsSteady) (hw : w.Tidy) :
    (w.runCommand (.guarded device body)).2.Tidy ↔
      (w.runCommand (.guarded device body)).2.record? device ≠ none := by
  obtain ⟨hdevices, hrecords⟩ := steady_guarded hbody w device
  refine ⟨fun h => h device ((hdevices device).mpr (.inl rfl)), fun h d hd => ?_⟩
  rcases (hdevices d).mp hd with rfl | hd
  · exact h
  · exact hrecords d (hw d hd)

end World

/-- The moment takes the record of a device away but reports a failure, so that the guard that is
kept for the device stays. -/
structure Moment.Loses (device : DeviceId) (m : Moment) : Prop where
  action_eq : m.action = .store (.remove device)
  fails : m.succeeds = false
  kept : device ∈ m.before.guards.devices
  gone : m.after.record? device = none

namespace World

theorem trace_bind_eq (w : World) (c : Command α) (f : α → Command β) :
    w.trace (ExceptT.run (c >>= f)) = w.trace (ExceptT.run c) ++
      match w.runCommand c with
      | (.ok a, w') => w'.trace (ExceptT.run (f a))
      | (.error _, _) => [] := by
  refine (w.trace_bind (ExceptT.run c) (ExceptT.bindCont f)).trans ?_
  rcases h : w.run (ExceptT.run c) with ⟨e | a, w'⟩ <;> simp only [runCommand, h] <;> rfl

end World

namespace Command

variable {w : World}

/-- The command leaves things tidy, unless it loses a record. It does not succeed then. -/
structure Clears (c : Command α) (w : World) : Prop where
  tidy_iff : (w.runCommand c).2.Tidy ↔ ∀ m ∈ w.trace (ExceptT.run c), ∀ d, ¬m.Loses d
  of_ok : ∀ a, (w.runCommand c).1 = .ok a → (w.runCommand c).2.Tidy

theorem not_loses_of_all {c : Command α} (hc : c.All fun a => ∀ d, a ≠ .store (.remove d)) :
    ∀ m ∈ w.trace (ExceptT.run c), ∀ d, ¬m.Loses d :=
  fun m hm d h => (Command.yields_runCommand w c).all hc m hm d h.action_eq

theorem clears_of_steady {c : Command α} (hc : c.All Action.IsSteady) (hw : w.Tidy) :
    c.Clears w := by
  have hafter : (w.runCommand c).2.Tidy := hw.of_steady hc
  have hkept : ∀ m ∈ w.trace (ExceptT.run c), ∀ d, ¬m.Loses d := by
    refine not_loses_of_all (hc.mono ?_)
    rintro _ ha d rfl
    exact ha
  exact ⟨iff_of_true hafter hkept, fun _ _ => hafter⟩

theorem Clears.bind {c : Command α} {f : α → Command β} (hc : c.Clears w)
    (hf : ∀ a w', w.runCommand c = (.ok a, w') → w'.Tidy → (f a).Clears w') :
    (c >>= f).Clears w := by
  obtain ⟨htidy, hok⟩ := hc
  have hrun := w.runCommand_bind c f
  have htrace := w.trace_bind_eq c f
  rcases hresult : w.runCommand c with ⟨e | a, w'⟩
  · rw [hresult] at hrun htrace htidy
    refine ⟨?_, ?_⟩
    · rw [hrun, htrace, List.append_nil]
      exact htidy
    · rw [hrun]
      exact nofun
  · rw [hresult] at hrun htrace htidy hok
    have hw' : w'.Tidy := hok a rfl
    obtain ⟨hrest, hrestOk⟩ := hf a w' hresult hw'
    refine ⟨?_, hrun ▸ hrestOk⟩
    rw [hrun, htrace, List.forall_mem_append]
    exact hrest.trans (and_iff_right (htidy.mp hw')).symm

end Command

namespace Moment

variable {w : World} {device : DeviceId}

theorem not_loses_of_ok {removed : Option Record}
    (h : (w.store.apply (.remove device)).1 = .ok removed) (d : DeviceId) :
    ¬Loses d ⟨.store (.remove device), w⟩ := by
  intro hloses
  have hfails := hloses.fails
  simp [succeeds, h, Except.isOk, Except.toBool] at hfails

theorem tidy_remove_iff {e : StoreError} (hw : w.Tidy)
    (h : (w.store.apply (.remove device)).1 = .error e) :
    (after ⟨.store (.remove device), w⟩).Tidy ↔ ∀ d, ¬Loses d ⟨.store (.remove device), w⟩ := by
  refine ⟨fun htidy d hloses => htidy d hloses.kept hloses.gone, fun hkept d hd hgone => ?_⟩
  by_cases hdevice : Action.store (.remove device) = .store (.remove d)
  · have hfails : succeeds ⟨.store (.remove device), w⟩ = false := by
      simp [succeeds, h, Except.isOk, Except.toBool]
    exact hkept d ⟨hdevice, hfails, hd, hgone⟩
  · exact World.registered_answer hdevice (hw d hd) hgone

theorem tidy_remove_forget (hw : w.Tidy) :
    let w' := after ⟨.store (.remove device), w⟩
    World.Tidy { w' with guards := w'.guards.forget device } := by
  intro w' d hd
  obtain ⟨hd, hne⟩ := Guards.mem_devices_forget.mp hd
  have hother : Action.store (.remove device) ≠ .store (.remove d) := by
    intro heq
    cases heq
    exact hne rfl
  have hkept : w'.record? d ≠ none := World.registered_answer hother (hw d hd)
  exact hkept

theorem tidy_remove_of_none (hw : w.Tidy) (h : (w.store.apply (.remove device)).1 = .ok none) :
    (after ⟨.store (.remove device), w⟩).Tidy := by
  intro d hd
  refine World.registered_answer (fun heq => ?_) (hw d hd)
  cases heq
  have hnone : none = (w.table.apply (.remove device)).1 := (Store.answer_apply h).1
  refine hw device hd ?_
  simp only [Store.Table.apply] at hnone
  split at hnone
  · assumption
  · cases hnone

end Moment

namespace Command

/-- A record is removed, and then its guard is forgotten. If there was none, the guard may stay. -/
theorem clears_remove {w : World} (device : DeviceId) {f : Option Record → Command α}
    (hw : w.Tidy) (hf : ∀ removed, (f removed).All fun a => ∀ d, a ≠ .store (.remove d))
    (hforgets : ∀ (removed : Option Record) (w' : World),
      (removed = none ∧ (w'.runCommand (f removed)).2 = w') ∨
        (w'.runCommand (f removed)).2 = { w' with guards := w'.guards.forget device }) :
    (store (.remove device) >>= f).Clears w := by
  let met : Moment := ⟨.store (.remove device), w⟩
  have hrun := w.runCommand_bind (store (.remove device)) f
  have htrace := w.trace_bind_eq (store (.remove device)) f
  rw [World.runCommand_store] at hrun htrace
  cases hx : (w.store.apply (.remove device)).1 with
  | error e =>
    rw [hx] at hrun htrace
    change w.runCommand _ = (.error (.storage e), met.after) at hrun
    change w.trace _ = [met] at htrace
    constructor
    · rw [hrun, htrace, List.forall_mem_singleton]
      exact Moment.tidy_remove_iff hw hx
    · rw [hrun]
      exact nofun
  | ok removed =>
    rw [hx] at hrun htrace
    change w.runCommand _ = met.after.runCommand (f removed) at hrun
    change w.trace _ = met :: met.after.trace (ExceptT.run (f removed)) at htrace
    have hafter : (met.after.runCommand (f removed)).2.Tidy := by
      obtain ⟨rfl, hsame⟩ | hforgot := hforgets removed met.after
      · rw [hsame]
        exact Moment.tidy_remove_of_none hw hx
      · rw [hforgot]
        exact Moment.tidy_remove_forget hw
    have hkept : ∀ m ∈ met :: met.after.trace (ExceptT.run (f removed)), ∀ d, ¬m.Loses d :=
      List.forall_mem_cons.mpr ⟨Moment.not_loses_of_ok hx, not_loses_of_all (hf removed)⟩
    rw [← hrun] at hafter
    rw [← htrace] at hkept
    exact ⟨iff_of_true hafter hkept, fun _ _ => hafter⟩

end Command

end DeviceAuth
