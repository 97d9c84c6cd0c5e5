import DeviceAuth.Proofs.Store.Commuting
import DeviceAuth.Proofs.Supersession

/-! Commands that keep to some devices. Such a command does the same in all worlds that cannot be
told apart on these devices, so two that keep to different ones can be run in either order. -/
namespace DeviceAuth

variable {α β : Type} {D E : DeviceId → Prop}

namespace World

/-- Worlds that cannot be told apart on some devices. Guards do not count: whoever runs alone gets
them. -/
structure SameFor (D : DeviceId → Prop) (w w' : World) : Prop where
  clock : w.clock = w'.clock
  peer : w.peer = w'.peer
  store : w.store.SameFor D w'.store

theorem SameFor.refl (w : World) : w.SameFor D w := ⟨rfl, rfl, .refl _⟩

theorem SameFor.trans {w w' w'' : World} (h : w.SameFor D w') (h' : w'.SameFor D w'') :
    w.SameFor D w'' :=
  ⟨h.clock.trans h'.clock, h.peer.trans h'.peer, h.store.trans h'.store⟩

theorem sameFor_guards (w : World) (guards : Guards) :
    w.SameFor D { w with guards := guards } := ⟨rfl, rfl, .refl _⟩

end World

/-- What the program does to the store are operations on some devices. Run in any other world that
is the same for these, it does the same operations and comes to the same result. -/
def Program.KeepsTo (D : DeviceId → Prop) (p : Program α) (w : World) : Prop :=
  ∃ ops, (∀ op ∈ ops, op.Concerns D) ∧ ∀ w', w.SameFor D w' →
    (w'.run p).1 = (w.run p).1 ∧ (w'.run p).2.store = w'.store.after ops

namespace Program

variable {w : World}

theorem keepsTo_of_store_eq {p : Program α} (h : ∀ w', w.SameFor D w' →
    (w'.run p).1 = (w.run p).1 ∧ (w'.run p).2.store = w'.store) : p.KeepsTo D w :=
  ⟨[], List.forall_mem_nil _, h⟩

theorem KeepsTo.sameFor_run {p : Program α} (h : p.KeepsTo D w) {w' : World}
    (hw' : w.SameFor D w') : (w.run p).2.SameFor D (w'.run p).2 := by
  obtain ⟨ops, hops, hrun⟩ := h
  refine ⟨?_, ?_, ?_⟩
  · exact (World.clock_run w p).trans (hw'.clock.trans (World.clock_run w' p).symm)
  · exact (World.peer_run w p).trans (hw'.peer.trans (World.peer_run w' p).symm)
  · rw [(hrun w (.refl w)).2, (hrun w' hw').2]
    exact (hw'.store.after hops).1

theorem KeepsTo.bind {p : Program α} {f : α → Program β} (hp : p.KeepsTo D w)
    (hf : (f (w.run p).1).KeepsTo D (w.run p).2) : (p.bind f).KeepsTo D w := by
  have hsame {w' : World} (hw' : w.SameFor D w') := hp.sameFor_run hw'
  obtain ⟨ops, hops, hrun⟩ := hp
  obtain ⟨ops', hops', hrun'⟩ := hf
  refine ⟨ops ++ ops', List.forall_mem_append.mpr ⟨hops, hops'⟩, fun w' hw' => ?_⟩
  obtain ⟨hresult, hstore⟩ := hrun w' hw'
  obtain ⟨hresult', hstore'⟩ := hrun' _ (hsame hw')
  rw [World.run_bind, World.run_bind, hresult, Store.after_append, ← hstore]
  exact ⟨hresult', hstore'⟩

theorem KeepsTo.unseen {p : Program α} (h : p.KeepsTo D w) (hapart : ∀ d, E d → ¬D d) :
    w.SameFor E (w.run p).2 := by
  obtain ⟨ops, hops, hrun⟩ := h
  refine ⟨(World.clock_run w p).symm, (World.peer_run w p).symm, ?_⟩
  rw [(hrun w (.refl w)).2]
  exact Store.sameFor_after hops hapart

/-- Two programs that keep to different devices come to the same results in either order, leave the
same records and files, and neither changes a record of the other's. -/
theorem KeepsTo.comm {p : Program α} {q : Program β} (hw : w.table.WellFormed)
    (hp : p.KeepsTo D w) (hq : q.KeepsTo E w) (hapart : ∀ d, D d → ¬E d) :
    (((w.run p).2.run q).1 = (w.run q).1 ∧ ((w.run q).2.run p).1 = (w.run p).1) ∧
      Store.Same ((w.run p).2.run q).2.store ((w.run q).2.run p).2.store ∧
      (∀ d, ¬D d → (w.run p).2.record? d = w.record? d) ∧
      ∀ d, ¬E d → (w.run q).2.record? d = w.record? d := by
  have hunseen : w.SameFor E (w.run p).2 := hp.unseen fun d he hd => hapart d hd he
  have hunseen' : w.SameFor D (w.run q).2 := hq.unseen hapart
  have hkept (d : DeviceId) (hd : ¬D d) : (w.run p).2.record? d = w.record? d :=
    ((hp.unseen (E := fun d => ¬D d) fun _ => id).store.record d hd).symm
  have hkept' (d : DeviceId) (he : ¬E d) : (w.run q).2.record? d = w.record? d :=
    ((hq.unseen (E := fun d => ¬E d) fun _ => id).store.record d he).symm
  obtain ⟨ops, hops, hrun⟩ := hp
  obtain ⟨ops', hops', hrun'⟩ := hq
  refine ⟨⟨(hrun' _ hunseen).1, (hrun _ hunseen').1⟩, ?_, hkept, hkept'⟩
  rw [(hrun' _ hunseen).2, (hrun _ hunseen').2, (hrun w (.refl w)).2, (hrun' w (.refl w)).2]
  exact Store.after_comm hw hops hops' hapart

end Program

namespace Command

variable {w : World}

abbrev KeepsTo (D : DeviceId → Prop) (c : Command α) (w : World) : Prop :=
  Program.KeepsTo D (ExceptT.run c) w

theorem keepsTo_pure (a : α) : (pure a : Command α).KeepsTo D w :=
  Program.keepsTo_of_store_eq fun _ _ => ⟨rfl, rfl⟩

theorem keepsTo_throw (e : Error) : (throw e : Command α).KeepsTo D w :=
  Program.keepsTo_of_store_eq fun _ _ => ⟨rfl, rfl⟩

theorem keepsTo_ofExcept (e : Except Error α) : (ofExcept e).KeepsTo D w :=
  Program.keepsTo_of_store_eq fun _ _ => ⟨rfl, rfl⟩

theorem keepsTo_now : now.KeepsTo D w :=
  Program.keepsTo_of_store_eq fun _ h => ⟨congrArg Except.ok h.clock.symm, rfl⟩

theorem keepsTo_send (call : Http.Call) :
    (ofProgram (Program.perform (.send call))).KeepsTo D w :=
  Program.keepsTo_of_store_eq fun _ h =>
    ⟨congrArg (fun peer : Http.Peer => (.ok (peer call) : Except Error Http.Delivery)) h.peer.symm,
      rfl⟩

theorem keepsTo_forgetGuard (device : DeviceId) :
    (ofProgram (Program.perform (.forgetGuard device))).KeepsTo D w :=
  Program.keepsTo_of_store_eq fun _ _ => ⟨rfl, rfl⟩

theorem keepsTo_store {op : Store.Operation} (hop : op.Concerns D) :
    (Command.store op).KeepsTo D w := by
  refine ⟨[op], fun o ho => List.mem_singleton.mp ho ▸ hop, fun w' h => ⟨?_, rfl⟩⟩
  exact congrArg (Except.mapError Error.storage) (h.store.apply hop).1.symm

theorem KeepsTo.bind {c : Command α} {f : α → Command β} (hc : c.KeepsTo D w)
    (hf : ∀ a, (w.runCommand c).1 = .ok a → (f a).KeepsTo D (w.runCommand c).2) :
    (c >>= f).KeepsTo D w := by
  have hrest : ∀ result, (w.runCommand c).1 = result →
      Program.KeepsTo D (ExceptT.bindCont f result) (w.runCommand c).2 := by
    intro result hresult
    cases result with
    | ok a => exact hf a hresult
    | error e => exact keepsTo_throw e
  exact Program.KeepsTo.bind hc (hrest _ rfl)

theorem KeepsTo.tryCatch {c : Command α} {f : Error → Command α} (hc : c.KeepsTo D w)
    (hf : ∀ e, (f e).KeepsTo D (w.runCommand c).2) :
    (MonadExcept.tryCatch c f).KeepsTo D w := by
  refine Program.KeepsTo.bind hc ?_
  split
  · exact keepsTo_pure _
  · exact hf _

theorem KeepsTo.guarded {device : DeviceId} {body : Command α} (h : body.KeepsTo D w) :
    (Command.guarded device body).KeepsTo D w := by
  obtain ⟨ops, hops, hrun⟩ := h
  refine ⟨ops, hops, fun w' hw' => ?_⟩
  obtain ⟨taken, released, heq⟩ := w.runCommand_guarded_eq device body
  obtain ⟨taken', released', heq'⟩ := w'.runCommand_guarded_eq device body
  obtain ⟨hresult, -⟩ := hrun _ (w.sameFor_guards taken)
  obtain ⟨hresult', hstore'⟩ := hrun _ (hw'.trans (w'.sameFor_guards taken'))
  constructor
  · exact (congrArg Prod.fst heq').trans
      ((hresult'.trans hresult.symm).trans (congrArg Prod.fst heq).symm)
  · exact (congrArg (fun x => x.2.store) heq').trans hstore'

end Command

end DeviceAuth
