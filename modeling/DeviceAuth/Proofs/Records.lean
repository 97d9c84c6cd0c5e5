import DeviceAuth.Proofs.Program
import DeviceAuth.Proofs.Store.Table

/-! The records of a world, whatever keeps them. A file store whose snapshot cannot be written has
changed its records all the same, so what an operation does to them is that of a table. -/
namespace DeviceAuth

variable {α β : Type}

namespace Store

def table (s : Store) : Table := s.backend.table

theorem table_apply (s : Store) (op : Operation) :
    (s.apply op).2.table = if op.kind ∈ s.refused then s.table else s.table.next op := by
  unfold apply
  split
  · rfl
  · cases hb : s.backend with
    | memory t => simp [table, hb, Backend.apply, Backend.table, Table.next]
    | file f =>
      simp only [table, hb, Backend.apply, Backend.table, FileStore.apply, Table.next]
      rcases f.table.apply op with ⟨result, _ | t⟩ <;> rfl

theorem not_mem_refused_of_ok {s : Store} {op : Operation} {x : op.Result}
    (h : (s.apply op).1 = .ok x) : op.kind ∉ s.refused := by
  intro hr
  simp [apply, hr] at h

theorem answer_apply {s : Store} {op : Operation} {x : op.Result}
    (h : (s.apply op).1 = .ok x) :
    x = (s.table.apply op).1 ∧ (s.apply op).2.table = s.table.next op := by
  have hr : op.kind ∉ s.refused := not_mem_refused_of_ok h
  refine ⟨?_, by rw [table_apply, if_neg hr]⟩
  simp only [apply, hr, if_false] at h
  cases hb : s.backend with
  | memory t =>
    simp only [hb, Backend.apply, Except.ok.injEq] at h
    simp [table, hb, Backend.table, ← h]
  | file f =>
    simp only [hb, Backend.apply, FileStore.apply] at h
    simp only [table, hb, Backend.table]
    rcases hf : f.table.apply op with ⟨result, _ | t⟩
    · simp only [hf, Except.ok.injEq] at h
      exact h.symm
    · simp only [hf] at h
      cases hp : (FileStore.persist f.path t s.disk).1 with
      | ok u =>
        simp only [hp, Except.map, Except.ok.injEq] at h
        exact h.symm
      | error e => simp [hp, Except.map] at h

theorem apply_of_target?_eq_none {s : Store} {op : Operation} (h : op.target? = none) :
    (s.apply op).2 = s := by
  obtain ⟨backend, disk, refused⟩ := s
  unfold apply
  split
  · rfl
  · cases op <;> simp only [Operation.target?, reduceCtorEq] at h <;> cases backend <;> rfl

theorem apply_of_reads {s : Store} {op : Operation} (h : op.target? = none)
    (hr : op.kind ∉ s.refused) : s.apply op = (.ok (s.table.apply op).1, s) := by
  apply Prod.ext
  · obtain ⟨backend, disk, refused⟩ := s
    unfold apply
    rw [if_neg hr]
    cases op <;> simp only [Operation.target?, reduceCtorEq] at h <;> cases backend <;> rfl
  · exact apply_of_target?_eq_none h

theorem get?_table_apply_of_ne {s : Store} {op : Operation} {device : DeviceId}
    (h : op.target? ≠ some device) : (s.apply op).2.table.get? device = s.table.get? device := by
  rw [table_apply]
  split
  · rfl
  · exact Table.get?_next_of_ne h

end Store

def Action.target? : Action → Option DeviceId
  | .store op => op.target?
  | _ => none

/-- Records are only put under the device that they name. -/
def Action.IsKeyed : Action → Prop
  | .store op => op.IsKeyed
  | _ => True

def Action.IsRead : Action → Prop
  | .store op => op.target? = none
  | .send _ | .now | .freshState => True
  | .lookupGuard _ | .forgetGuard _ | .acquire _ | .release _ => False

/-- The action has to do with another server or with the clock. -/
def Action.IsRemote : Action → Prop
  | .send _ | .now => True
  | _ => False

/-- The action needs no guard: it puts no record in place, and no guard is held for it. -/
def Action.IsFree : Action → Prop
  | .store (.save _) | .store (.swap _ _ _) => False
  | .lookupGuard _ | .acquire _ | .release _ => False
  | _ => True

/-- What the action saves, if it does, has a property. -/
def Action.Saves (P : Record → Prop) : Action → Prop
  | .store (.save r) => P r
  | _ => True

/-- The action changes the record of no other device, and gives that of this one to nobody but the
owner. -/
def Action.StaysWith (device : DeviceId) (owner : UserId) : Action → Prop
  | .store (.save r) => r.device = device ∧ r.owner = owner
  | .store (.swap d _ r) => d = device ∧ r.owner = owner
  | .store (.signOut d _) | .store (.remove d) => d = device
  | _ => True

theorem Action.IsRemote.isRead {a : Action} (h : a.IsRemote) : a.IsRead := by
  cases a with
  | send _ | now => trivial
  | _ => cases h

theorem Action.IsRead.target? {a : Action} (h : a.IsRead) : a.target? = none := by
  cases a with
  | store op => exact h
  | _ => rfl

theorem Action.IsRead.staysWith {a : Action} (h : a.IsRead) (device : DeviceId)
    (owner : UserId) : a.StaysWith device owner := by
  cases a with
  | store op =>
    cases op with
    | fetch _ | find _ | list _ => trivial
    | save _ | swap _ _ _ | signOut _ _ | remove _ => cases h
  | _ => trivial

theorem Action.StaysWith.target? {device d : DeviceId} {owner : UserId} {a : Action}
    (h : a.StaysWith device owner) (hd : a.target? = some d) : d = device := by
  cases a with
  | store op =>
    cases op with
    | fetch _ | find _ | list _ => cases hd
    | save r => exact (Option.some.inj hd).symm.trans h.1
    | swap _ _ _ => exact (Option.some.inj hd).symm.trans h.1
    | signOut _ _ | remove _ => exact (Option.some.inj hd).symm.trans h
  | _ => cases hd

theorem Action.IsRead.isFree {a : Action} (h : a.IsRead) : a.IsFree := by
  cases a with
  | store op =>
    cases op with
    | save _ | swap _ _ _ => cases h
    | _ => trivial
  | lookupGuard _ | acquire _ | release _ => cases h
  | _ => trivial

theorem Action.IsFree.isKeyed {a : Action} (h : a.IsFree) : a.IsKeyed := by
  cases a with
  | store op =>
    cases op with
    | swap device expected replacement => cases h
    | _ => trivial
  | _ => trivial

theorem Action.IsFree.saves {a : Action} (h : a.IsFree) {P : Record → Prop} : a.Saves P := by
  cases a with
  | store op =>
    cases op with
    | save _ => cases h
    | _ => trivial
  | _ => trivial

theorem Action.IsRead.isKeyed {a : Action} (h : a.IsRead) : a.IsKeyed := h.isFree.isKeyed

theorem Command.store_reads (op : Store.Operation) (h : op.target? = none) :
    (Command.store op).All Action.IsRead := Command.all_store (P := Action.IsRead) h

theorem Store.Table.owner_next {t : Table} {op : Operation} {device : DeviceId} {owner : UserId}
    (h : (Action.store op).StaysWith device owner)
    (ht : ∀ r, t.get? device = some r → r.owner = owner) :
    ∀ r, (t.next op).get? device = some r → r.owner = owner := by
  intro r hr
  rcases t.get?_next_cases op device with hsame | ⟨put, hputs, hput⟩ | ⟨old, now, hold, hout⟩ |
    ⟨-, -, hnone⟩
  · exact ht r (hsame.symm.trans hr)
  · have howner : put.owner = owner := by
      cases op with
      | save _ | swap _ _ _ => exact hputs.2 ▸ h.2
      | _ => cases hputs
    rw [hput] at hr
    exact Option.some.inj hr ▸ howner
  · rw [hout] at hr
    exact Option.some.inj hr ▸ ht old hold
  · rw [hnone] at hr
    cases hr

namespace World

def table (w : World) : Store.Table := w.store.table

def record? (w : World) (device : DeviceId) : Option Record := w.table.get? device

theorem answer_of_isRead {a : Action} (h : a.IsRead) (w : World) : (answer a w).2 = w := by
  cases a with
  | store op =>
    show { w with store := (w.store.apply op).2 } = w
    rw [Store.apply_of_target?_eq_none h]
  | lookupGuard _ | forgetGuard _ | acquire _ | release _ => cases h
  | send _ | now | freshState => rfl

theorem record?_answer_of_ne {a : Action} {device d : DeviceId} {owner : UserId}
    (h : a.StaysWith device owner) (hd : d ≠ device) (w : World) :
    (answer a w).2.record? d = w.record? d := by
  cases a with
  | store op => exact Store.get?_table_apply_of_ne fun ht => hd (h.target? ht)
  | _ => rfl

theorem owner_answer {a : Action} {device : DeviceId} {owner : UserId}
    (h : a.StaysWith device owner) {w : World}
    (hw : ∀ r, w.record? device = some r → r.owner = owner) :
    ∀ r, (answer a w).2.record? device = some r → r.owner = owner := by
  cases a with
  | store op =>
    show ∀ r, (w.store.apply op).2.table.get? device = some r → r.owner = owner
    rw [Store.table_apply]
    split
    · exact hw
    · exact Store.Table.owner_next h hw
  | _ => exact hw

theorem wellFormed_answer {a : Action} (h : a.IsKeyed) {w : World} (hw : w.table.WellFormed) :
    (answer a w).2.table.WellFormed := by
  cases a with
  | store op =>
    show (w.store.apply op).2.table.WellFormed
    rw [Store.table_apply]
    split
    · exact hw
    · exact hw.next h
  | _ => exact hw

theorem run_of_isRead {p : Program α} (h : p.All Action.IsRead) (w : World) :
    (w.run p).2 = w :=
  run_of_all (I := fun w' => w' = w)
    (fun _ w' ha hw' => (answer_of_isRead ha w').trans hw') h rfl

theorem runCommand_bind_cases {c : Command α} (h : c.All Action.IsRead) (f : α → Command β)
    (w : World) :
    (∃ e, (w.runCommand c).1 = .error e ∧ w.runCommand (c >>= f) = (.error e, w)) ∨
      ∃ a, (w.runCommand c).1 = .ok a ∧ w.runCommand (c >>= f) = w.runCommand (f a) := by
  have hw : (w.runCommand c).2 = w := run_of_isRead h w
  rw [runCommand_bind]
  rcases hc : w.runCommand c with ⟨e | a, w'⟩
  · rw [hc] at hw
    exact .inl ⟨e, rfl, by cases hw; rfl⟩
  · rw [hc] at hw
    exact .inr ⟨a, rfl, by cases hw; rfl⟩

theorem runCommand_store_ok {op : Store.Operation} {x : op.Result} {w : World}
    (h : (w.runCommand (.store op)).1 = .ok x) : x = (w.table.apply op).1 := by
  rw [runCommand_store] at h
  cases hs : (w.store.apply op).1 with
  | error e => simp [hs, Except.mapError] at h
  | ok y =>
    simp only [hs, Except.mapError, Except.ok.injEq] at h
    exact h ▸ (Store.answer_apply hs).1

theorem record?_runCommand_guarded (device d : DeviceId) (body : Command α) (w : World) :
    ∃ guards, (w.runCommand (.guarded device body)).2.record? d =
      ({ w with guards := guards }.runCommand body).2.record? d := by
  refine ⟨(w.guards.lookup device).2.acquire (w.guards.lookup device).1, ?_⟩
  have h := runCommand_guarded w device body
  exact congrArg (fun x => x.2.record? d) h

theorem record?_run_of_ne {device d : DeviceId} {owner : UserId} {p : Program α}
    (h : p.All (Action.StaysWith device owner)) (hd : d ≠ device) (w : World) :
    (w.run p).2.record? d = w.record? d :=
  run_of_all (I := fun w' => w'.record? d = w.record? d)
    (fun _ w' ha hw' => (record?_answer_of_ne ha hd w').trans hw') h rfl

theorem owner_run {device : DeviceId} {owner : UserId} {p : Program α}
    (h : p.All (Action.StaysWith device owner)) {w : World}
    (hw : ∀ r, w.record? device = some r → r.owner = owner) :
    ∀ r, (w.run p).2.record? device = some r → r.owner = owner :=
  run_of_all (I := fun w' => ∀ r, w'.record? device = some r → r.owner = owner)
    (fun _ _ ha hw' => owner_answer ha hw') h hw

theorem wellFormed_run {p : Program α} (h : p.All Action.IsKeyed) {w : World}
    (hw : w.table.WellFormed) : (w.run p).2.table.WellFormed :=
  run_of_all (I := fun w' => w'.table.WellFormed) (fun _ _ ha hw' => wellFormed_answer ha hw') h hw

end World

end DeviceAuth
