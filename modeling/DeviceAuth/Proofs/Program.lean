import DeviceAuth.Program

/-! What a program can come to do, said action by action, and the laws of running commands with
nothing else going on. -/
namespace DeviceAuth

variable {α β : Type} {P Q : Action → Prop}

namespace Program

instance : LawfulMonad Program := LawfulMonad.mk' Program bind_done (fun _ _ => rfl) bind_assoc

/-- Every action that the program can come to is one of `P`. -/
def All (P : Action → Prop) : Program α → Prop
  | .done _ => True
  | .step action next => P action ∧ ∀ answer, (next answer).All P

theorem All.mono (h : ∀ a, P a → Q a) {p : Program α} (hp : p.All P) : p.All Q := by
  induction p with
  | done a => trivial
  | step action next ih => exact ⟨h action hp.1, fun answer => ih answer (hp.2 answer)⟩

theorem All.bind {p : Program α} {f : α → Program β} (hp : p.All P) (hf : ∀ a, (f a).All P) :
    (p.bind f).All P := by
  induction p with
  | done a => exact hf a
  | step action next ih => exact ⟨hp.1, fun answer => ih answer (hp.2 answer)⟩

end Program

namespace Command

def All (P : Action → Prop) (c : Command α) : Prop := Program.All P (ExceptT.run c)

theorem All.mono (h : ∀ a, P a → Q a) {c : Command α} (hc : c.All P) : c.All Q :=
  Program.All.mono h hc

theorem all_pure (a : α) : (pure a : Command α).All P := trivial

theorem all_throw (e : Error) : (throw e : Command α).All P := trivial

theorem all_ofExcept (e : Except Error α) : (ofExcept e).All P := trivial

theorem all_now (h : P .now) : now.All P := ⟨h, fun _ => trivial⟩

theorem all_store {op : Store.Operation} (h : P (.store op)) : (store op).All P :=
  ⟨h, fun _ => trivial⟩

theorem all_perform {action : Action} (h : P action) :
    (ofProgram (Program.perform action)).All P := ⟨h, fun _ => trivial⟩

theorem All.bind {c : Command α} {f : α → Command β} (hc : c.All P) (hf : ∀ a, (f a).All P) :
    (c >>= f).All P := by
  refine Program.All.bind hc fun result => ?_
  cases result with
  | ok a => exact hf a
  | error e => trivial

theorem all_ofExcept_bind {e : Except Error α} {f : α → Command β}
    (hf : ∀ a, e = .ok a → (f a).All P) : (ofExcept e >>= f).All P := by
  cases e with
  | ok a => exact hf a rfl
  | error e => trivial

theorem All.tryCatch {c : Command α} {f : Error → Command α} (hc : c.All P)
    (hf : ∀ e, (f e).All P) : (MonadExcept.tryCatch c f).All P := by
  refine Program.All.bind hc fun result => ?_
  cases result with
  | ok a => trivial
  | error e => exact hf e

theorem All.guarded {device : DeviceId} {body : Command α} (hl : P (.lookupGuard device))
    (ha : ∀ g, P (.acquire g)) (hr : ∀ g, P (.release g)) (hb : body.All P) :
    (Command.guarded device body).All P := by
  refine ⟨hl, fun g => ⟨ha g, fun _ => ?_⟩⟩
  have hend : ∀ result : Except Error α,
      ((Program.perform (.release g)).bind fun _ => .done result).All P :=
    fun _ => ⟨hr g, fun _ => trivial⟩
  exact Program.All.bind (p := ExceptT.run body) hb hend

end Command

namespace World

variable (w : World)

theorem run_bind (p : Program α) (f : α → Program β) :
    w.run (p.bind f) = (w.run p).2.run (f (w.run p).1) :=
  Program.run_bind answer p f w

theorem runCommand_bind (c : Command α) (f : α → Command β) :
    w.runCommand (c >>= f) =
      match w.runCommand c with
      | (.ok a, w) => w.runCommand (f a)
      | (.error e, w) => (.error e, w) := by
  refine (run_bind w (ExceptT.run c) _).trans ?_
  rcases h : w.run (ExceptT.run c) with ⟨a | e, w'⟩ <;> simp only [runCommand, h] <;> rfl

@[simp] theorem runCommand_pure (a : α) : w.runCommand (pure a) = (.ok a, w) := rfl

@[simp] theorem runCommand_ofExcept (e : Except Error α) :
    w.runCommand (.ofExcept e) = (e, w) := rfl

@[simp] theorem runCommand_now : w.runCommand .now = (.ok w.clock, w) := rfl

@[simp] theorem runCommand_store (op : Store.Operation) :
    w.runCommand (.store op) =
      ((w.store.apply op).1.mapError .storage, { w with store := (w.store.apply op).2 }) := rfl

@[simp] theorem runCommand_perform (action : Action) :
    w.runCommand (.ofProgram (Program.perform action)) =
      (.ok (answer action w).1, (answer action w).2) := rfl

theorem runCommand_bind_ok {c : Command α} {f : α → Command β} {a : α} {w' : World}
    (h : w.runCommand c = (.ok a, w')) : w.runCommand (c >>= f) = w'.runCommand (f a) := by
  rw [runCommand_bind, h]

theorem runCommand_guarded (device : DeviceId) (body : Command α) :
    let (id, guards) := w.guards.lookup device
    let (result, w') := { w with guards := guards.acquire id }.runCommand body
    w.runCommand (.guarded device body) =
      (result, { w' with guards := w'.guards.release id }) :=
  run_bind _ (ExceptT.run body) _

theorem clock_answer (a : Action) : (answer a w).2.clock = w.clock := by
  cases a <;> rfl

theorem clock_run (p : Program α) : (w.run p).2.clock = w.clock := by
  induction p generalizing w with
  | done a => rfl
  | step action next ih => exact (ih _ _).trans (clock_answer w action)

theorem peer_answer (w : World) (a : Action) : (answer a w).2.peer = w.peer := by
  cases a <;> rfl

theorem peer_run (w : World) (p : Program α) : (w.run p).2.peer = w.peer := by
  induction p generalizing w with
  | done a => rfl
  | step action next ih => exact (ih _ _).trans (peer_answer w action)

theorem run_of_all {I : World → Prop} (keep : ∀ a w, P a → I w → I (answer a w).2)
    {p : Program α} (hp : p.All P) {w : World} (hw : I w) : I (w.run p).2 := by
  induction p generalizing w with
  | done a => exact hw
  | step action next ih => exact ih _ (hp.2 _) (keep action w hp.1 hw)

end World

end DeviceAuth
