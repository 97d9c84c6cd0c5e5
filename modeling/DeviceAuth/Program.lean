import DeviceAuth.Http.Message
import DeviceAuth.Store.Basic

/-! Commands as trees of atomic actions. A tree says what is done next for every answer, so one
command can be run alone, with a store that fails, or among others that act between its actions. -/
namespace DeviceAuth

abbrev GuardId := Nat

inductive Action where
  /-- One operation of the store. -/
  | store (op : Store.Operation)
  /-- The guard of a device, made if there is none. -/
  | lookupGuard (device : DeviceId)
  /-- The guard of a device is no longer kept. -/
  | forgetGuard (device : DeviceId)
  | acquire (guard : GuardId)
  | release (guard : GuardId)
  /-- A request to another server. -/
  | send (call : Http.Call)
  | now
  /-- A fresh text of 32 letters and digits. -/
  | freshState

abbrev Action.Answer : Action → Type
  | .store op => Except StoreError op.Result
  | .lookupGuard _ => GuardId
  | .forgetGuard _ => Unit
  | .acquire _ => Unit
  | .release _ => Unit
  | .send _ => Http.Delivery
  | .now => Instant
  | .freshState => String

inductive Program (α : Type) where
  | done (a : α)
  | step (action : Action) (next : action.Answer → Program α)

namespace Program

def bind : Program α → (α → Program β) → Program β
  | .done a, f => f a
  | .step action next, f => .step action fun answer => (next answer).bind f

instance : Monad Program where
  pure := .done
  bind := bind

def perform (action : Action) : Program action.Answer := .step action .done

def run (answer : (action : Action) → σ → action.Answer × σ) : Program α → σ → α × σ
  | .done a, s => (a, s)
  | .step action next, s =>
    let (x, s) := answer action s
    (next x).run answer s

@[simp] theorem bind_done (p : Program α) : p.bind .done = p := by
  induction p with
  | done a => rfl
  | step action next ih => simp [bind, ih]

theorem bind_assoc (p : Program α) (f : α → Program β) (g : β → Program γ) :
    (p.bind f).bind g = p.bind fun a => (f a).bind g := by
  induction p with
  | done a => rfl
  | step action next ih => simp [bind, ih]

theorem run_bind (answer : (action : Action) → σ → action.Answer × σ) (p : Program α)
    (f : α → Program β) (s : σ) :
    (p.bind f).run answer s = (f (p.run answer s).1).run answer (p.run answer s).2 := by
  induction p generalizing s with
  | done a => rfl
  | step action next ih => simp [bind, run, ih]

end Program

abbrev Command (α : Type) := ExceptT Error Program α

namespace Command

def ofProgram (p : Program α) : Command α := ExceptT.lift p

def ofExcept (e : Except Error α) : Command α := ExceptT.mk (.done e)

def store (op : Store.Operation) : Command op.Result :=
  ExceptT.mk ((Program.perform (.store op)).bind fun answer => .done (answer.mapError .storage))

def now : Command Instant := ofProgram (Program.perform .now)

/-- Holds the guard of a device while the body runs, however the body ends. -/
def guarded (device : DeviceId) (body : Command α) : Command α :=
  ExceptT.mk ((Program.perform (.lookupGuard device)).bind fun guard =>
    (Program.perform (.acquire guard)).bind fun _ =>
      (ExceptT.run body).bind fun result =>
        (Program.perform (.release guard)).bind fun _ => .done result)

end Command

/-- The guards of devices. Forgetting a guard does not release it. -/
structure Guards where
  entries : List (DeviceId × GuardId)
  next : GuardId
  held : List GuardId

namespace Guards

def empty : Guards := ⟨[], 0, []⟩

def lookup (g : Guards) (device : DeviceId) : GuardId × Guards :=
  match g.entries.find? (·.1 = device) with
  | some (_, id) => (id, g)
  | none => (g.next, { g with entries := (device, g.next) :: g.entries, next := g.next + 1 })

def forget (g : Guards) (device : DeviceId) : Guards :=
  { g with entries := g.entries.filter (·.1 ≠ device) }

def acquire (g : Guards) (id : GuardId) : Guards := { g with held := id :: g.held }

def release (g : Guards) (id : GuardId) : Guards := { g with held := g.held.filter (· ≠ id) }

end Guards

structure World where
  store : Store
  guards : Guards
  clock : Instant
  peer : Http.Peer
  state : String

namespace World

/-- Answers an action when no other command is running. -/
def answer : (action : Action) → World → action.Answer × World
  | .store op, w =>
    let (result, store) := w.store.apply op
    (result, { w with store := store })
  | .lookupGuard device, w =>
    let (id, guards) := w.guards.lookup device
    (id, { w with guards := guards })
  | .forgetGuard device, w => ((), { w with guards := w.guards.forget device })
  | .acquire id, w => ((), { w with guards := w.guards.acquire id })
  | .release id, w => ((), { w with guards := w.guards.release id })
  | .send call, w => (w.peer call, w)
  | .now, w => (w.clock, w)
  | .freshState, w => (w.state, w)

def run (w : World) (p : Program α) : α × World := p.run answer w

def runCommand (w : World) (c : Command α) : Except Error α × World := w.run (ExceptT.run c)

end World

end DeviceAuth
