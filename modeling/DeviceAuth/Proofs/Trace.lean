import DeviceAuth.Proofs.Interleaving

/-! What a program did, action by action, each in the world that it met. Nothing ties the worlds of
two actions together, so whatever holds of every trace holds whatever others do in between. -/
namespace DeviceAuth

variable {α β : Type}

structure Moment where
  action : Action
  before : World

namespace Moment

def after (m : Moment) : World := (World.answer m.action m.before).2

def writes (m : Moment) : Bool := m.action.target?.isSome

/-- The action is no operation of the store that fails. -/
def succeeds (m : Moment) : Bool :=
  match m.action with
  | .store op => (m.before.store.apply op).1.isOk
  | _ => true

def call? (m : Moment) : Option Http.Call :=
  match m.action with
  | .send call => some call
  | _ => none

def delivery? (m : Moment) : Option Http.Delivery :=
  match m.action with
  | .send call => some (m.before.peer call)
  | _ => none

def reading? (m : Moment) : Option Instant :=
  match m.action with
  | .now => some m.before.clock
  | _ => none

theorem exists_ok_of_succeeds {op : Store.Operation} {w : World}
    (h : Moment.succeeds ⟨.store op, w⟩ = true) : ∃ x, (w.store.apply op).1 = .ok x := by
  cases hx : (w.store.apply op).1 with
  | error e => simp [succeeds, hx, Except.isOk, Except.toBool] at h
  | ok x => exact ⟨x, rfl⟩

theorem not_succeeds {op : Store.Operation} {w : World} {cause : StoreError}
    (h : (w.store.apply op).1 = .error cause) : Moment.succeeds ⟨.store op, w⟩ = false := by
  simp [succeeds, h, Except.isOk, Except.toBool]

theorem record?_after {op : Store.Operation} {w : World} {x : op.Result}
    (h : (w.store.apply op).1 = .ok x) (d : DeviceId) :
    (Moment.after ⟨.store op, w⟩).record? d = (w.table.next op).get? d := by
  show (w.store.apply op).2.table.get? d = _
  rw [(Store.answer_apply h).2]
  rfl

end Moment

/-- All that a program did, the first action first. -/
abbrev Trace := List Moment

namespace Trace

def writes (t : Trace) : List Moment := t.filter Moment.writes

def calls (t : Trace) : List Http.Call := t.filterMap Moment.call?

def deliveries (t : Trace) : List Http.Delivery := t.filterMap Moment.delivery?

def readings (t : Trace) : List Instant := t.filterMap Moment.reading?

def IsSound (t : Trace) : Prop := ∀ m ∈ t, m.succeeds = true

instance (t : Trace) : Decidable t.IsSound :=
  inferInstanceAs (Decidable (∀ m ∈ t, m.succeeds = true))

theorem not_isSound {t : Trace} {op : Store.Operation} {w : World} {cause : StoreError}
    (hm : ⟨.store op, w⟩ ∈ t) (h : (w.store.apply op).1 = .error cause) : ¬t.IsSound := by
  intro hsound
  cases (hsound _ hm).symm.trans (Moment.not_succeeds h)

/-- Whenever the call is made, this is what comes back. -/
def Returns (t : Trace) (call : Http.Call) (delivery : Http.Delivery) : Prop :=
  ∀ asked, ⟨.send call, asked⟩ ∈ t → asked.peer call = delivery

def IsStill (now : Instant) (t : Trace) : Prop := ∀ read ∈ t.readings, read = now

variable {t : Trace} {call : Http.Call}

@[simp] theorem writes_append (t u : Trace) : writes (t ++ u) = t.writes ++ u.writes :=
  List.filter_append ..

@[simp] theorem calls_append (t u : Trace) : calls (t ++ u) = t.calls ++ u.calls :=
  List.filterMap_append ..

@[simp] theorem deliveries_append (t u : Trace) :
    deliveries (t ++ u) = t.deliveries ++ u.deliveries :=
  List.filterMap_append ..

@[simp] theorem readings_append (t u : Trace) : readings (t ++ u) = t.readings ++ u.readings :=
  List.filterMap_append ..

theorem calls_cons {m : Moment} (h : m.call? = none) (t : Trace) : calls (m :: t) = t.calls :=
  List.filterMap_cons_none h

theorem mem_deliveries {asked : World} (h : ⟨.send call, asked⟩ ∈ t) :
    asked.peer call ∈ t.deliveries :=
  List.mem_filterMap.mpr ⟨_, h, rfl⟩

theorem mem_readings {w : World} (h : ⟨.now, w⟩ ∈ t) : w.clock ∈ t.readings :=
  List.mem_filterMap.mpr ⟨_, h, rfl⟩

theorem exists_mem_of_mem_calls (h : call ∈ t.calls) : ∃ asked, ⟨.send call, asked⟩ ∈ t := by
  obtain ⟨⟨action, asked⟩, hm, hcall⟩ := List.mem_filterMap.mp h
  cases action with
  | send call' =>
    cases hcall
    exact ⟨asked, hm⟩
  | _ => cases hcall

theorem calls_subset {inner : Trace} (h : inner ⊆ t) : inner.calls ⊆ t.calls :=
  List.filterMap_subset _ h

theorem readings_subset {inner : Trace} (h : inner ⊆ t) : inner.readings ⊆ t.readings :=
  List.filterMap_subset _ h

theorem IsStill.mono {inner : Trace} {now : Instant} (h : t.IsStill now) (hsub : inner ⊆ t) :
    inner.IsStill now :=
  fun read hread => h read (readings_subset hsub hread)

theorem IsStill.clock_eq {now : Instant} (h : t.IsStill now) {w : World}
    (hmem : ⟨.now, w⟩ ∈ t) : w.clock = now :=
  h _ (mem_readings hmem)

end Trace

namespace Program

/-- With these moments, one for each of its actions, the program comes to a result. -/
inductive Yields : Program α → Trace → α → Prop
  | done (a : α) : Yields (.done a) [] a
  | step {action : Action} {next : action.Answer → Program α} {w : World} {rest : Trace} {a : α}
    (h : Yields (next (World.answer action w).1) rest a) :
    Yields (.step action next) (⟨action, w⟩ :: rest) a

variable {p : Program α} {trace : Trace}

theorem Yields.of_step {action : Action} {next : action.Answer → Program α} {a : α}
    (h : (Program.step action next).Yields trace a) :
    ∃ w rest, trace = ⟨action, w⟩ :: rest ∧ (next (World.answer action w).1).Yields rest a := by
  cases h with
  | step h => exact ⟨_, _, rfl, h⟩

theorem Yields.of_bind {f : α → Program β} {b : β} (h : (p.bind f).Yields trace b) :
    ∃ before a after, trace = before ++ after ∧ p.Yields before a ∧ (f a).Yields after b := by
  induction p generalizing trace with
  | done a => exact ⟨[], a, trace, rfl, .done a, h⟩
  | step action next ih =>
    obtain ⟨w, rest, rfl, hrest⟩ := h.of_step
    obtain ⟨before, a, after, rfl, hp, hf⟩ := ih _ hrest
    exact ⟨_ :: before, a, after, rfl, .step hp, hf⟩

theorem Yields.all {P : Action → Prop} {a : α} (h : p.Yields trace a) (hp : p.All P) :
    ∀ m ∈ trace, P m.action := by
  induction h with
  | done a => simp
  | step h ih =>
    intro m hm
    rcases List.mem_cons.mp hm with rfl | hm
    · exact hp.1
    · exact ih (hp.2 _) m hm

/-- Runs a program while others act: before each of its actions the world changes as they say. -/
def among : Program α → List (World → World) → World → Trace × α
  | .done a, _, _ => ([], a)
  | .step action next, others, w =>
    let met := (others.headD id) w
    let rest := (next (World.answer action met).1).among others.tail (World.answer action met).2
    (⟨action, met⟩ :: rest.1, rest.2)

theorem yields_among (p : Program α) (others : List (World → World)) (w : World) :
    p.Yields (p.among others w).1 (p.among others w).2 := by
  induction p generalizing others w with
  | done a => exact .done a
  | step action next ih => exact .step (ih _ _ _)

end Program

namespace World

/-- What a program does when nothing else is going on. -/
def trace (w : World) (p : Program α) : Trace := (p.among [] w).1

theorem trace_bind (w : World) (p : Program α) (f : α → Program β) :
    w.trace (p.bind f) = w.trace p ++ (w.run p).2.trace (f (w.run p).1) := by
  induction p generalizing w with
  | done a => rfl
  | step action next ih => exact congrArg (_ :: ·) (ih _ _)

theorem yields_trace (w : World) (p : Program α) : p.Yields (w.trace p) (w.run p).1 := by
  have hrun : (p.among [] w).2 = (w.run p).1 := by
    induction p generalizing w with
    | done a => rfl
    | step action next ih => exact ih _ _
  exact hrun ▸ p.yields_among [] w

theorem before_of_mem_trace {w : World} {p : Program α} {m : Moment} (h : m ∈ w.trace p) :
    m.before.clock = w.clock ∧ m.before.peer = w.peer := by
  induction p generalizing w with
  | done a => cases h
  | step action next ih =>
    rcases List.mem_cons.mp h with rfl | h
    · exact ⟨rfl, rfl⟩
    · obtain ⟨hclock, hpeer⟩ := ih _ h
      exact ⟨hclock.trans (clock_answer w action), hpeer.trans (peer_answer w action)⟩

theorem returns_trace (w : World) (p : Program α) (call : Http.Call) :
    (w.trace p).Returns call (w.peer call) :=
  fun _ hasked => congrFun (before_of_mem_trace hasked).2 call

theorem isStill_trace (w : World) (p : Program α) : (w.trace p).IsStill w.clock := by
  intro read hread
  obtain ⟨⟨action, before⟩, hm, hreading⟩ := List.mem_filterMap.mp hread
  cases action with
  | now =>
    cases hreading
    exact (before_of_mem_trace hm).1
  | _ => cases hreading

theorem yields_of_run {w : World} {p : Program α} {a : α} (h : (w.run p).1 = a) :
    p.Yields (w.trace p) a := by
  rw [← h]
  exact w.yields_trace p

end World

namespace Command

/-- A command yields what its program does: a value or an error. -/
def Yields (c : Command α) (trace : Trace) (result : Except Error α) : Prop :=
  Program.Yields (ExceptT.run c) trace result

theorem yields_runCommand (w : World) (c : Command α) :
    c.Yields (w.trace (ExceptT.run c)) (w.runCommand c).1 :=
  w.yields_trace _

variable {trace : Trace} {result : Except Error β}

theorem Yields.all {P : Action → Prop} {c : Command β} (h : c.Yields trace result)
    (hc : c.All P) : ∀ m ∈ trace, P m.action := Program.Yields.all h hc

theorem Yields.of_ofExcept {e : Except Error β} (h : (ofExcept e).Yields trace result) :
    trace = [] ∧ result = e := by
  cases h
  exact ⟨rfl, rfl⟩

theorem Yields.of_pure {b : β} (h : (pure b : Command β).Yields trace result) :
    trace = [] ∧ result = .ok b :=
  Yields.of_ofExcept (e := .ok b) h

theorem Yields.of_ofExcept_bind {e : Except Error α} {f : α → Command β}
    (h : (ofExcept e >>= f).Yields trace result) :
    (∃ x, e = .error x ∧ trace = [] ∧ result = .error x) ∨
      ∃ a, e = .ok a ∧ (f a).Yields trace result := by
  cases e with
  | error x =>
    obtain ⟨rfl, rfl⟩ := Yields.of_ofExcept (e := .error x) h
    exact .inl ⟨x, rfl, rfl, rfl⟩
  | ok a => exact .inr ⟨a, rfl, h⟩

theorem Yields.of_bind {c : Command α} {f : α → Command β} (h : (c >>= f).Yields trace result) :
    (∃ e, c.Yields trace (.error e) ∧ result = .error e) ∨
      ∃ before a after, trace = before ++ after ∧ c.Yields before (.ok a) ∧
        (f a).Yields after result := by
  obtain ⟨before, x, after, rfl, hc, hf⟩ := Program.Yields.of_bind (p := ExceptT.run c) h
  cases x with
  | ok a => exact .inr ⟨before, a, after, rfl, hc, hf⟩
  | error e =>
    obtain ⟨rfl, rfl⟩ := Yields.of_ofExcept (e := .error e) hf
    exact .inl ⟨e, by rwa [List.append_nil], rfl⟩

theorem Yields.of_tryCatch {c : Command β} {f : Error → Command β}
    (h : (tryCatch c f).Yields trace result) :
    (∃ a, c.Yields trace (.ok a) ∧ result = .ok a) ∨
      ∃ before e after, trace = before ++ after ∧ c.Yields before (.error e) ∧
        (f e).Yields after result := by
  obtain ⟨before, x, after, rfl, hc, hf⟩ := Program.Yields.of_bind (p := ExceptT.run c) h
  cases x with
  | ok a =>
    obtain ⟨rfl, rfl⟩ := Yields.of_pure hf
    exact .inl ⟨a, by rwa [List.append_nil], rfl⟩
  | error e => exact .inr ⟨before, e, after, rfl, hc, hf⟩

theorem Yields.of_now_bind {f : Instant → Command β} (h : (now >>= f).Yields trace result) :
    ∃ w rest, trace = ⟨.now, w⟩ :: rest ∧ (f w.clock).Yields rest result :=
  Program.Yields.of_step h

theorem Yields.of_perform_bind {action : Action} {f : action.Answer → Command β}
    (h : (ofProgram (Program.perform action) >>= f).Yields trace result) :
    ∃ w rest, trace = ⟨action, w⟩ :: rest ∧
      (f (World.answer action w).1).Yields rest result :=
  Program.Yields.of_step h

theorem Yields.of_store_bind {op : Store.Operation} {f : op.Result → Command β}
    (h : (store op >>= f).Yields trace result) :
    ∃ w rest, trace = ⟨.store op, w⟩ :: rest ∧
      ((∃ e, (w.store.apply op).1 = .error e ∧ rest = [] ∧ result = .error (.storage e)) ∨
        ∃ x, (w.store.apply op).1 = .ok x ∧ (f x).Yields rest result) := by
  obtain ⟨w, rest, rfl, hrest⟩ := Program.Yields.of_step h
  refine ⟨w, rest, rfl, ?_⟩
  change Program.Yields (ExceptT.run (ofExcept ((w.store.apply op).1.mapError .storage) >>= f))
    rest result at hrest
  cases hx : (w.store.apply op).1 with
  | error e =>
    rw [hx] at hrest
    obtain ⟨hrest, hresult⟩ := Yields.of_ofExcept (e := .error (.storage e)) hrest
    exact .inl ⟨e, rfl, hrest, hresult⟩
  | ok x =>
    rw [hx] at hrest
    exact .inr ⟨x, rfl, hrest⟩

theorem Yields.of_guarded {device : DeviceId} {body : Command β}
    (h : (guarded device body).Yields trace result) :
    ∃ w₁ w₂ w₃ guard inner, body.Yields inner result ∧
      trace = ⟨.lookupGuard device, w₁⟩ :: ⟨.acquire guard, w₂⟩ :: inner ++
        [⟨.release guard, w₃⟩] := by
  obtain ⟨w₁, rest₁, rfl, hacquire⟩ := Program.Yields.of_step h
  obtain ⟨w₂, rest₂, rfl, hinner⟩ := Program.Yields.of_step hacquire
  obtain ⟨inner, x, last, rfl, hbody, hrelease⟩ :=
    Program.Yields.of_bind (p := ExceptT.run body) hinner
  obtain ⟨w₃, rest₃, rfl, hend⟩ := Program.Yields.of_step hrelease
  cases hend
  exact ⟨w₁, w₂, w₃, _, inner, hbody, rfl⟩

/-- Taking a guard and giving it back neither calls anybody nor writes. -/
theorem Yields.inner_of_guarded {device : DeviceId} {body : Command β}
    (h : (guarded device body).Yields trace result) :
    ∃ inner, body.Yields inner result ∧ inner ⊆ trace ∧ trace.calls = inner.calls ∧
      trace.writes = inner.writes := by
  obtain ⟨w₁, w₂, w₃, guard, inner, hinner, rfl⟩ := h.of_guarded
  refine ⟨inner, hinner, fun m hm => by simp [hm], ?_, ?_⟩
  · exact (Trace.calls_append inner _).trans (List.append_nil _)
  · exact (Trace.writes_append inner _).trans (List.append_nil _)

end Command

def Event.moment (e : Event) : Moment := ⟨e.action, e.before⟩

namespace Crowd

/-- What one of the commands did, the first action first. -/
def trace (caller : Nat) : List Event → Trace
  | [] => []
  | e :: earlier =>
    if e.caller = caller then trace caller earlier ++ [e.moment] else trace caller earlier

theorem mem_trace {caller : Nat} {history : List Event} {m : Moment}
    (h : m ∈ trace caller history) :
    ∃ since e before, history = since ++ e :: before ∧ e.caller = caller ∧ e.moment = m := by
  induction history with
  | nil => simp [trace] at h
  | cons e earlier ih =>
    have hlater (hm : m ∈ trace caller earlier) : ∃ since e' before,
        e :: earlier = since ++ e' :: before ∧ e'.caller = caller ∧ e'.moment = m := by
      obtain ⟨since, e', before, rfl, hcaller, hmoment⟩ := ih hm
      exact ⟨e :: since, e', before, rfl, hcaller, hmoment⟩
    unfold trace at h
    split at h
    · rename_i hcaller
      rcases List.mem_append.mp h with hm | hm
      · exact hlater hm
      · exact ⟨[], e, earlier, rfl, hcaller, (List.mem_singleton.mp hm).symm⟩
    · exact hlater h

variable {start c : Crowd} {history : List Event}

theorem Run.exists_program (h : Run start history c) {i : Nat} {p : Program Unit}
    (hp : c.programs[i]? = some p) : ∃ p₀, start.programs[i]? = some p₀ := by
  induction h generalizing p with
  | start => exact ⟨p, hp⟩
  | elsewhere h htable hguards ih => exact ih hp
  | step h hadvance ih =>
    obtain ⟨-, -, -, next, hprogram, rfl⟩ := advance_eq_some hadvance
    rw [List.getElem?_set] at hp
    split at hp
    · rename_i hi
      subst hi
      exact ih hprogram
    · exact ih hp

/-- Whatever the rest of a command comes to from here on, the whole command comes to with what it
has done so far. -/
theorem Run.yields (h : Run start history c) {i : Nat} {p₀ p : Program Unit}
    (hp₀ : start.programs[i]? = some p₀) (hp : c.programs[i]? = some p) {rest : Trace}
    (hrest : p.Yields rest ()) : p₀.Yields (trace i history ++ rest) () := by
  induction h generalizing p rest with
  | start =>
    obtain rfl : p₀ = p := Option.some.inj (hp₀.symm.trans hp)
    exact hrest
  | elsewhere h htable hguards ih => exact ih hp hrest
  | @step history c c' e h hadvance ih =>
    obtain ⟨-, hbefore, -, next, hprogram, rfl⟩ := advance_eq_some hadvance
    by_cases hi : e.caller = i
    · subst hi
      have hlength : e.caller < c.programs.length := (List.getElem?_eq_some_iff.mp hprogram).1
      rw [List.getElem?_set_self hlength] at hp
      cases hp
      have hstep := ih hprogram (Program.Yields.step (w := c.world) hrest)
      simpa [trace, Event.moment, hbefore] using hstep
    · rw [List.getElem?_set_ne hi] at hp
      rw [trace, if_neg hi]
      exact ih hp hrest

end Crowd

end DeviceAuth
