import DeviceAuth.Proofs.Locality

/-! Two programs side by side. They do the same actions one after the other, on stores and servers
that are alike but not the same, and so they come to results that are alike. -/
namespace DeviceAuth

variable {α β γ δ : Type}

def Action.IsOfGuard : Action → Prop
  | .lookupGuard _ | .forgetGuard _ | .acquire _ | .release _ => True
  | .store _ | .send _ | .now | .freshState => False

theorem World.store_answer_of_isOfGuard {a : Action} (h : a.IsOfGuard) (w : World) :
    (answer a w).2.store = w.store := by
  cases a with
  | lookupGuard _ | forgetGuard _ | acquire _ | release _ => rfl
  | store _ | send _ | now | freshState => cases h

/-- Whether a program may have changed the store. -/
inductive Stage where
  | reading
  | written

/-- What two programs find alike: stores, when they ask them, and the servers they send to, if the
requests belong together. -/
structure Likeness where
  stores : Store → Store → Prop
  calls : Http.Call → Http.Call → Prop

variable {L : Likeness}

namespace Likeness

/-- The clocks show the same, and requests that belong together are answered the same. -/
structure Surroundings (L : Likeness) (w w' : World) : Prop where
  clock : w.clock = w'.clock
  peer : ∀ call call', L.calls call call' → w.peer call = w'.peer call'

/-- Worlds that are alike before anything is done in them. -/
structure Worlds (L : Likeness) (w w' : World) : Prop extends L.Surroundings w w' where
  stores : L.stores w.store w'.store

theorem Surroundings.answer {w w' : World} (h : L.Surroundings w w') (a a' : Action) :
    L.Surroundings (World.answer a w).2 (World.answer a' w').2 := by
  refine ⟨?_, fun call call' hcalls => ?_⟩
  · rw [World.clock_answer, World.clock_answer, h.clock]
  · rw [World.peer_answer, World.peer_answer, h.peer call call' hcalls]

end Likeness

namespace Program

/-- Two programs that do the same in lockstep, from a stage on. Neither asks the store anything once
it has written to it, so it does not matter what it has written. -/
inductive Twin (L : Likeness) (R : Stage → α → β → Prop) : Stage → Program α → Program β → Prop
  | done {stage : Stage} {a : α} {b : β} (h : R stage a b) : Twin L R stage (.done a) (.done b)
  | now {stage : Stage} {next : Instant → Program α} {next' : Instant → Program β}
    (h : ∀ t, Twin L R stage (next t) (next' t)) :
    Twin L R stage (.step .now next) (.step .now next')
  | guard {stage : Stage} {a a' : Action} {next : a.Answer → Program α}
    {next' : a'.Answer → Program β} (ha : a.IsOfGuard) (ha' : a'.IsOfGuard)
    (h : ∀ x x', Twin L R stage (next x) (next' x')) :
    Twin L R stage (.step a next) (.step a' next')
  | send {stage : Stage} {call call' : Http.Call} {next : Http.Delivery → Program α}
    {next' : Http.Delivery → Program β} (hcalls : L.calls call call')
    (h : ∀ delivery, Twin L R stage (next delivery) (next' delivery)) :
    Twin L R stage (.step (.send call) next) (.step (.send call') next')
  | store {stage : Stage} {op op' : Store.Operation} {S : op.Result → op'.Result → Prop}
    {next : Except StoreError op.Result → Program α}
    {next' : Except StoreError op'.Result → Program β}
    (hanswer : ∀ s s', L.stores s s' → Except.Agree S (s.apply op).1 (s'.apply op').1)
    (hstage : stage = .reading → op.target? = none ∧ op'.target? = none)
    (h : ∀ x x', Except.Agree S x x' → Twin L R stage (next x) (next' x')) :
    Twin L R .reading (.step (.store op) next) (.step (.store op') next')

variable {R : Stage → α → β → Prop} {S : Stage → γ → δ → Prop} {stage : Stage} {p : Program α}
  {p' : Program β}

theorem Twin.bind (h : Twin L R stage p p') {f : α → Program γ} {f' : β → Program δ}
    (hf : ∀ stage a b, R stage a b → Twin L S stage (f a) (f' b)) :
    Twin L S stage (p.bind f) (p'.bind f') := by
  induction h with
  | done h => exact hf _ _ _ h
  | now h ih => exact .now ih
  | guard ha ha' h ih => exact .guard ha ha' ih
  | send hcalls h ih => exact .send hcalls ih
  | store hanswer hstage h ih => exact .store hanswer hstage ih

/-- Two programs that run alone. -/
theorem Twin.run (h : Twin L R stage p p') {w w' : World} (hw : L.Surroundings w w')
    (hstores : stage = .reading → L.stores w.store w'.store) :
    ∃ stage, R stage (w.run p).1 (w'.run p').1 := by
  induction h generalizing w w' with
  | done h => exact ⟨_, h⟩
  | @now stage next next' h ih =>
    change ∃ stage, R stage (w.run (next w.clock)).1 (w'.run (next' w'.clock)).1
    rw [← hw.clock]
    exact ih w.clock hw hstores
  | @guard stage a a' next next' ha ha' h ih =>
    refine ih _ _ (hw.answer a a') fun hreading => ?_
    change L.stores (World.answer a w).2.store (World.answer a' w').2.store
    rw [World.store_answer_of_isOfGuard ha, World.store_answer_of_isOfGuard ha']
    exact hstores hreading
  | @send stage call call' next next' hcalls h ih =>
    change ∃ stage, R stage (w.run (next (w.peer call))).1 (w'.run (next' (w'.peer call'))).1
    rw [← hw.peer call call' hcalls]
    exact ih _ hw hstores
  | @store stage op op' S next next' hanswer hstage h ih =>
    have hstores := hstores rfl
    refine ih _ _ (hanswer _ _ hstores) (hw.answer (.store op) (.store op')) fun hreading => ?_
    obtain ⟨hop, hop'⟩ := hstage hreading
    change L.stores (w.store.apply op).2 (w'.store.apply op').2
    rw [Store.apply_of_target?_eq_none hop, Store.apply_of_target?_eq_none hop']
    exact hstores

end Program

/-- Each of two programs has met what the other has, as far as it looked: the clock, the servers it
sent to and, when it asked it, the store. Between two actions others may have done anything. -/
def Trace.Alike (L : Likeness) (trace trace' : Trace) : Prop :=
  ∀ m ∈ trace.zip trace', L.Surroundings m.1.before m.2.before ∧
    ∀ op, m.1.action = .store op → L.stores m.1.before.store m.2.before.store

/-- Two programs that run among others. -/
theorem Program.Twin.yields {R : Stage → α → β → Prop} {stage : Stage} {p : Program α}
    {p' : Program β} (h : Program.Twin L R stage p p') {trace trace' : Trace} {a : α} {b : β}
    (ha : p.Yields trace a) (hb : p'.Yields trace' b) (halike : Trace.Alike L trace trace') :
    ∃ stage, R stage a b := by
  induction h generalizing trace trace' with
  | done h =>
    cases ha
    cases hb
    exact ⟨_, h⟩
  | @now stage next next' h ih =>
    obtain ⟨w, rest, rfl, hnext⟩ := ha.of_step
    obtain ⟨w', rest', rfl, hnext'⟩ := hb.of_step
    obtain ⟨⟨hw, -⟩, hrest⟩ := List.forall_mem_cons.mp halike
    refine ih w.clock hnext ?_ hrest
    change (next' w'.clock).Yields rest' b at hnext'
    rwa [← hw.clock] at hnext'
  | guard _ _ h ih =>
    obtain ⟨w, rest, rfl, hnext⟩ := ha.of_step
    obtain ⟨w', rest', rfl, hnext'⟩ := hb.of_step
    exact ih _ _ hnext hnext' (List.forall_mem_cons.mp halike).2
  | @send stage call call' next next' hcalls h ih =>
    obtain ⟨w, rest, rfl, hnext⟩ := ha.of_step
    obtain ⟨w', rest', rfl, hnext'⟩ := hb.of_step
    obtain ⟨⟨hw, -⟩, hrest⟩ := List.forall_mem_cons.mp halike
    change (next' (w'.peer call')).Yields rest' b at hnext'
    rw [← hw.peer call call' hcalls] at hnext'
    exact ih _ hnext hnext' hrest
  | store hanswer hstage h ih =>
    obtain ⟨w, rest, rfl, hnext⟩ := ha.of_step
    obtain ⟨w', rest', rfl, hnext'⟩ := hb.of_step
    obtain ⟨⟨-, hstores⟩, hrest⟩ := List.forall_mem_cons.mp halike
    exact ih _ _ (hanswer _ _ (hstores _ rfl)) hnext hnext' hrest

namespace Command

/-- Commands in lockstep. Both come to an error, and to the same, or to results that are alike. -/
def Twin (L : Likeness) (R : Stage → α → β → Prop) (stage : Stage) (c : Command α)
    (c' : Command β) : Prop :=
  Program.Twin L (fun stage => Except.Agree (R stage)) stage (ExceptT.run c) (ExceptT.run c')

variable {R : Stage → α → β → Prop} {S : Stage → γ → δ → Prop} {stage : Stage}

theorem twin_pure {a : α} {b : β} (h : R stage a b) : Twin L R stage (pure a) (pure b) :=
  .done (.ok h)

theorem twin_throw (e : Error) : Twin L R stage (throw e) (throw e) := .done (.error e)

theorem twin_ofExcept {T : α → β → Prop} {x : Except Error α} {y : Except Error β}
    (h : Except.Agree T x y) :
    Twin L (fun stage' a b => stage' = stage ∧ T a b) stage (ofExcept x) (ofExcept y) :=
  .done (h.mono fun _ _ hT => ⟨rfl, hT⟩)

theorem twin_same (x : Except Error α) :
    Twin L (fun stage' a b => stage' = stage ∧ a = b ∧ x = .ok a) stage (ofExcept x)
      (ofExcept x) := by
  refine twin_ofExcept ?_
  cases x with
  | ok a => exact .ok ⟨rfl, rfl⟩
  | error e => exact .error e

theorem Twin.bind {c : Command α} {c' : Command β} (h : Twin L R stage c c') {f : α → Command γ}
    {f' : β → Command δ} (hf : ∀ stage a b, R stage a b → Twin L S stage (f a) (f' b)) :
    Twin L S stage (c >>= f) (c' >>= f') := by
  refine Program.Twin.bind h fun stage x y hagree => ?_
  cases hagree with
  | ok hR => exact hf stage _ _ hR
  | error e => exact twin_throw e

theorem twin_now : Twin L (fun stage' t t' => stage' = stage ∧ t = t') stage now now :=
  .now fun _ => .done (.ok ⟨rfl, rfl⟩)

theorem twin_forgetGuard (device device' : DeviceId) :
    Twin L (fun stage' _ _ => stage' = stage) stage
      (ofProgram (Program.perform (.forgetGuard device)))
      (ofProgram (Program.perform (.forgetGuard device'))) :=
  .guard trivial trivial fun _ _ => .done (.ok rfl)

theorem twin_read (op op' : Store.Operation) {T : op.Result → op'.Result → Prop}
    (hop : op.target? = none) (hop' : op'.target? = none)
    (h : ∀ s s', L.stores s s' → Except.Agree T (s.apply op).1 (s'.apply op').1) :
    Twin L (fun stage x y => stage = .reading ∧ T x y) .reading (store op) (store op') := by
  have hstays : Stage.reading = .reading → op.target? = none ∧ op'.target? = none :=
    fun _ => ⟨hop, hop'⟩
  refine .store h hstays fun x y hagree => .done ?_
  exact (hagree.mapError Error.storage).mono fun _ _ hT => ⟨rfl, hT⟩

theorem twin_write (op op' : Store.Operation) {T : op.Result → op'.Result → Prop}
    (h : ∀ s s', L.stores s s' → Except.Agree T (s.apply op).1 (s'.apply op').1) :
    Twin L (fun _ => T) .reading (store op) (store op') := by
  have hleaves : Stage.written = .reading → op.target? = none ∧ op'.target? = none := nofun
  exact .store h hleaves fun x y hagree => .done (hagree.mapError Error.storage)

theorem Twin.guarded {c : Command α} {c' : Command β} (h : Twin L R stage c c')
    (device device' : DeviceId) : Twin L R stage (guarded device c) (guarded device' c') := by
  refine .guard trivial trivial fun guard guard' => .guard trivial trivial fun _ _ => ?_
  refine Program.Twin.bind h fun stage x y hagree => ?_
  exact .guard trivial trivial fun _ _ => .done hagree

theorem Twin.tryCatch {T : α → β → Prop} {c : Command α} {c' : Command β}
    (h : Program.Twin L (fun stage' x y => stage' = stage ∧ Except.Agree T x y) stage
      (ExceptT.run c) (ExceptT.run c')) {f : Error → Command α} {f' : Error → Command β}
    (hf : ∀ e, Twin L (fun stage' a b => stage' = stage ∧ T a b) stage (f e) (f' e)) :
    Twin L (fun stage' a b => stage' = stage ∧ T a b) stage (MonadExcept.tryCatch c f)
      (MonadExcept.tryCatch c' f') := by
  refine Program.Twin.bind h fun stage' x y hagree => ?_
  obtain ⟨rfl, hagree⟩ := hagree
  cases hagree with
  | ok hT => exact twin_pure ⟨rfl, hT⟩
  | error e => exact hf e

theorem Twin.outcome {T : Stage → α → β → Prop} {c : Command α} {c' : Command β}
    (h : Twin L T .reading c c') :
    (∀ w w', L.Worlds w w' →
      Except.Agree (fun _ _ => True) (w.runCommand c).1 (w'.runCommand c').1) ∧
    ∀ trace trace' result result', c.Yields trace result → c'.Yields trace' result' →
      Trace.Alike L trace trace' → Except.Agree (fun _ _ => True) result result' := by
  refine ⟨fun w w' hw => ?_, fun trace trace' result result' hc hc' halike => ?_⟩
  · obtain ⟨stage, hagree⟩ := Program.Twin.run h hw.toSurroundings fun _ => hw.stores
    exact hagree.mono fun _ _ _ => trivial
  · obtain ⟨stage, hagree⟩ := Program.Twin.yields h hc hc' halike
    exact hagree.mono fun _ _ _ => trivial

end Command

end DeviceAuth
