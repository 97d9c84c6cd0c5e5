import DeviceAuth.Proofs.Trace

/-! Commands that fail with the records as they were. Nobody else is at work, but any operation of
the store may fail at any time, as long as it leaves the records alone then. -/
namespace DeviceAuth

variable {α β : Type}

def Action.IsInert (a : Action) : Prop := a.target? = none

theorem Action.IsRead.isInert {a : Action} (h : a.IsRead) : a.IsInert := h.target?

namespace Moment

variable {m : Moment}

def Keeps (m : Moment) : Prop := m.after.table = m.before.table

theorem keeps_of_isInert (h : m.action.IsInert) : m.Keeps := by
  obtain ⟨action, before⟩ := m
  cases action with
  | store op => exact congrArg Store.table (Store.apply_of_target?_eq_none h)
  | _ => rfl

theorem keeps_of_not_writes (h : m.writes ≠ true) : m.Keeps :=
  keeps_of_isInert (by simpa [Action.IsInert, writes] using h)

end Moment

namespace Trace

variable {trace : Trace} {t u : Store.Table}

/-- An operation of the store that fails leaves the records as they were. -/
def FailsCleanly (trace : Trace) : Prop := ∀ m ∈ trace, m.succeeds = false → m.Keeps

/-- Every action finds the records as the one before it left them. The rest of the world may have
changed, so what fails now may have gone well a moment ago. -/
inductive Leads : Trace → Store.Table → Store.Table → Prop
  | nil (t : Store.Table) : Leads [] t t
  | cons {m : Moment} {rest : Trace} {u : Store.Table} (h : Leads rest m.after.table u) :
    Leads (m :: rest) m.before.table u

theorem Leads.eq_of_keeps (h : trace.Leads t u) (hkeeps : ∀ m ∈ trace, m.Keeps) : u = t := by
  induction h with
  | nil t => rfl
  | cons h ih =>
    obtain ⟨hm, hrest⟩ := List.forall_mem_cons.mp hkeeps
    exact (ih hrest).trans hm

theorem Leads.writes (h : trace.Leads t u) : Leads trace.writes t u := by
  induction h with
  | nil t => exact .nil t
  | @cons m rest u h ih =>
    by_cases hm : m.writes = true
    · rw [Trace.writes, List.filter_cons_of_pos hm]
      exact .cons ih
    · rw [Trace.writes, List.filter_cons_of_neg hm, ← Moment.keeps_of_not_writes hm]
      exact ih

theorem Leads.of_cons {m : Moment} {rest : Trace} (h : Leads (m :: rest) t u) :
    m.before.table = t ∧ rest.Leads m.after.table u := by
  cases h with
  | cons h => exact ⟨rfl, h⟩

theorem Leads.of_singleton {m : Moment} (h : Leads [m] t u) :
    m.before.table = t ∧ m.after.table = u := by
  obtain ⟨hbefore, hafter⟩ := h.of_cons
  cases hafter
  exact ⟨hbefore, rfl⟩

theorem Leads.of_append {before after : Trace} (h : Leads (before ++ after) t u) :
    ∃ met, before.Leads t met ∧ after.Leads met u := by
  induction before generalizing t with
  | nil => exact ⟨t, .nil t, h⟩
  | cons m rest ih =>
    obtain ⟨rfl, hrest⟩ := h.of_cons
    obtain ⟨met, hfirst, hlast⟩ := ih hrest
    exact ⟨met, .cons hfirst, hlast⟩

theorem Leads.of_failed {op : Store.Operation} {w : World} {cause : StoreError}
    (h : Leads [⟨.store op, w⟩] t u)
    (hclean : FailsCleanly [⟨.store op, w⟩]) (hfails : (w.store.apply op).1 = .error cause) :
    u = t := by
  obtain ⟨rfl, rfl⟩ := h.of_singleton
  exact hclean _ (List.mem_singleton_self _) (Moment.not_succeeds hfails)

theorem Leads.of_read {op : Store.Operation} {w : World} {rest : Trace} {x : op.Result}
    (h : Leads (⟨.store op, w⟩ :: rest) t u) (hreads : op.target? = none)
    (hx : (w.store.apply op).1 = .ok x) :
    x = (t.apply op).1 ∧ rest.Leads t u := by
  obtain ⟨hbefore, hafter⟩ := h.of_cons
  have hsame : (Moment.after ⟨.store op, w⟩).table = w.table := Moment.keeps_of_isInert hreads
  rw [hsame, show w.table = t from hbefore] at hafter
  exact ⟨(Store.answer_apply hx).1.trans (congrArg (fun t => (t.apply op).1) hbefore), hafter⟩

def leaves (t : Store.Table) (trace : Trace) : Store.Table :=
  trace.foldl (fun _ m => m.after.table) t

end Trace

theorem Store.apply_of_memory {s : Store} {t : Table} (h : s.backend = .memory t)
    (op : Operation) :
    (s.apply op).2 = s ∨
      (∃ x, (s.apply op).1 = .ok x) ∧ (s.apply op).2.backend = .memory (t.next op) := by
  obtain ⟨backend, disk, refused⟩ := s
  cases h
  unfold apply
  split
  · exact .inl rfl
  · exact .inr ⟨⟨_, rfl⟩, rfl⟩

namespace World

theorem trace_step (w : World) (action : Action) (next : action.Answer → Program α) :
    w.trace (.step action next) =
      ⟨action, w⟩ :: (answer action w).2.trace (next (answer action w).1) := rfl

def refusing (kinds : List Store.Operation.Kind) (w : World) : World :=
  { w with store := { w.store with refused := kinds } }

theorem leads_trace (w : World) (p : Program α) : (w.trace p).Leads w.table (w.run p).2.table := by
  induction p generalizing w with
  | done a => exact .nil w.table
  | step action next ih => exact .cons (ih _ _)

theorem memory_answer {w : World} {t : Store.Table} (h : w.store.backend = .memory t)
    (action : Action) : ∃ t', (answer action w).2.store.backend = .memory t' := by
  cases action with
  | store op =>
    obtain hsame | ⟨-, hbackend⟩ := Store.apply_of_memory h op
    · exact ⟨t, (congrArg Store.backend hsame).trans h⟩
    · exact ⟨_, hbackend⟩
  | _ => exact ⟨t, h⟩

theorem keeps_of_memory {w : World} {t : Store.Table} (h : w.store.backend = .memory t)
    {action : Action} (hfails : Moment.succeeds ⟨action, w⟩ = false) :
    Moment.Keeps ⟨action, w⟩ := by
  cases action with
  | store op =>
    obtain hsame | ⟨⟨x, hx⟩, -⟩ := Store.apply_of_memory h op
    · exact congrArg Store.table hsame
    · simp [Moment.succeeds, hx, Except.isOk, Except.toBool] at hfails
  | _ => rfl

end World

namespace Program

/-- Nothing is amiss at first, and then the store refuses. -/
def outage (quiet : Nat) (kinds : List Store.Operation.Kind) : List (World → World) :=
  List.replicate quiet id ++ [World.refusing kinds]

theorem backend_outage (quiet : Nat) (kinds : List Store.Operation.Kind) :
    ∀ f ∈ outage quiet kinds, ∀ w : World, (f w).store.backend = w.store.backend := by
  intro f hf w
  rcases List.mem_append.mp hf with hf | hf
  · rw [(List.mem_replicate.mp hf).2, id]
  · rw [List.mem_singleton.mp hf, World.refusing]

variable {others : List (World → World)}

theorem meets_others {P : (World → World) → Prop} (hid : P id) (h : ∀ f ∈ others, P f) :
    P (others.headD id) ∧ ∀ f ∈ others.tail, P f := by
  cases others with
  | nil => exact ⟨hid, List.forall_mem_nil _⟩
  | cons f rest => exact List.forall_mem_cons.mp h

variable (h : ∀ f ∈ others, ∀ w : World, (f w).store.backend = w.store.backend)
include h

theorem leads_among (p : Program α) (w : World) :
    (p.among others w).1.Leads w.table ((p.among others w).1.leaves w.table) := by
  induction p generalizing others w with
  | done a => exact .nil w.table
  | step action next ih =>
    obtain ⟨hmeets, hrest⟩ := meets_others (fun _ => rfl) h
    have htable : (others.headD id w).table = w.table := congrArg Store.Backend.table (hmeets w)
    exact htable ▸ .cons (ih _ hrest _)

theorem failsCleanly_among (p : Program α) {w : World} {t : Store.Table}
    (hw : w.store.backend = .memory t) : (p.among others w).1.FailsCleanly := by
  induction p generalizing others w t with
  | done a => exact List.forall_mem_nil _
  | step action next ih =>
    obtain ⟨hmeets, hrest⟩ := meets_others (fun _ => rfl) h
    have hmet : (others.headD id w).store.backend = .memory t := (hmeets w).trans hw
    obtain ⟨t', ht'⟩ := World.memory_answer hmet action
    exact List.forall_mem_cons.mpr ⟨World.keeps_of_memory hmet, ih _ hrest ht'⟩

end Program

theorem World.failsCleanly_trace {w : World} {t : Store.Table} (h : w.store.backend = .memory t)
    (p : Program α) : (w.trace p).FailsCleanly :=
  Program.failsCleanly_among (List.forall_mem_nil _) p h

theorem World.isSound_trace {w : World} {t : Store.Table} (h : w.store.backend = .memory t)
    (hrefused : w.store.refused = []) (p : Program α) : (w.trace p).IsSound := by
  induction p generalizing w t with
  | done a => exact List.forall_mem_nil _
  | step action next ih =>
    obtain ⟨t', ht'⟩ := World.memory_answer h action
    rw [World.trace_step]
    refine List.forall_mem_cons.mpr ⟨?_, ih _ ht' ?_⟩
    · cases action with
      | store op =>
        simp [Moment.succeeds, Store.apply, hrefused, h, Store.Backend.apply, Except.isOk,
          Except.toBool]
      | _ => rfl
    · cases action with
      | store op => simp [World.answer, Store.apply, hrefused]
      | _ => exact hrefused

namespace Command

/-- Whenever the command fails, all that it did has left the records alone. -/
def Retreats (c : Command α) : Prop :=
  ∀ ⦃trace e⦄, c.Yields trace (.error e) → trace.FailsCleanly → ∀ m ∈ trace, m.Keeps

def Succeeds (c : Command α) : Prop := ∀ ⦃trace e⦄, ¬c.Yields trace (.error e)

variable {c : Command α} {f : α → Command β}

theorem succeeds_pure (a : α) : (pure a : Command α).Succeeds := by
  intro trace e h
  cases h

theorem succeeds_perform (action : Action) :
    (ofProgram (Program.perform action)).Succeeds := by
  intro trace e h
  obtain ⟨w, rest, -, hrest⟩ := Program.Yields.of_step h
  cases hrest

theorem Succeeds.bind (hc : c.Succeeds) (hf : ∀ a, (f a).Succeeds) : (c >>= f).Succeeds := by
  intro trace e h
  obtain ⟨e', hyields, -⟩ | ⟨before, a, after, -, -, hyields⟩ := h.of_bind
  · exact hc hyields
  · exact hf a hyields

theorem retreats_of_all (h : c.All Action.IsInert) : c.Retreats :=
  fun _ _ hyields _ m hm => Moment.keeps_of_isInert (hyields.all h m hm)

theorem Retreats.after (hc : c.All Action.IsInert)
    (hf : ∀ a, (f a).Retreats) : (c >>= f).Retreats := by
  intro trace e h hclean m hm
  obtain ⟨e', hyields, -⟩ | ⟨before, a, after, rfl, hyields, hrest⟩ := h.of_bind
  · exact Moment.keeps_of_isInert (hyields.all hc m hm)
  · rcases List.mem_append.mp hm with hm | hm
    · exact Moment.keeps_of_isInert (hyields.all hc m hm)
    · exact hf a hrest (fun m hm => hclean m (List.mem_append_right before hm)) m hm

theorem Retreats.bind (hc : c.Retreats) (hf : ∀ a, (f a).Succeeds) : (c >>= f).Retreats := by
  intro trace e h hclean
  obtain ⟨e', hyields, -⟩ | ⟨before, a, after, -, -, hyields⟩ := h.of_bind
  · exact hc hyields hclean
  · exact absurd hyields (fun h => hf a h)

theorem retreats_store (op : Store.Operation) : (store op).Retreats := by
  intro trace e h hclean m hm
  obtain ⟨w, rest, rfl, hrest⟩ := Program.Yields.of_step h
  change Program.Yields (.done ((w.store.apply op).1.mapError Error.storage)) rest _ at hrest
  cases hx : (w.store.apply op).1 with
  | ok x =>
    rw [hx] at hrest
    cases hrest
  | error cause =>
    rw [hx] at hrest
    cases hrest
    obtain rfl := List.mem_singleton.mp hm
    exact hclean _ List.mem_cons_self (Moment.not_succeeds hx)

theorem Retreats.guarded {device : DeviceId} (hc : c.Retreats) :
    (Command.guarded device c).Retreats := by
  intro trace e h hclean m hm
  obtain ⟨w₁, w₂, w₃, guard, inner, hyields, rfl⟩ := h.of_guarded
  have hinner (m : Moment) (hm : m ∈ inner) : m.Keeps :=
    hc hyields (fun m hm => hclean m (by simp [hm])) m hm
  simp only [List.cons_append, List.mem_cons, List.mem_append, List.not_mem_nil, or_false] at hm
  rcases hm with rfl | rfl | hm | rfl
  · rfl
  · rfl
  · exact hinner m hm
  · rfl

end Command

end DeviceAuth
