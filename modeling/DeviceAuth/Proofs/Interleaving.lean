import DeviceAuth.Proofs.Records

/-! Commands that run at once. One action of one command is done at a time, by any that can go on; a
guard is acquired only while nobody holds it. -/
namespace DeviceAuth

structure Event where
  caller : Nat
  action : Action
  before : World

def Event.after (e : Event) : World := (World.answer e.action e.before).2

/-- Only a guard has to be waited for. -/
def World.isReady (w : World) : Action → Bool
  | .acquire guard => !w.guards.held.contains guard
  | _ => true

/-- What commands act on, and what is left of each of them. -/
structure Crowd where
  world : World
  programs : List (Program Unit)

namespace Crowd

/-- The next action of a command that can go on. -/
def advance (c : Crowd) (caller : Nat) : Option (Event × Crowd) :=
  match c.programs[caller]? with
  | none | some (.done _) => none
  | some (.step action next) =>
    if c.world.isReady action then
      let (answer, world) := World.answer action c.world
      some (⟨caller, action, c.world⟩, ⟨world, c.programs.set caller (next answer)⟩)
    else none

/-- The events up to some moment, the last of them first. Everything but records and guards may
also change by itself. -/
inductive Run (start : Crowd) : List Event → Crowd → Prop where
  | start : Run start [] start
  | step {history : List Event} {c c' : Crowd} {e : Event} (h : Run start history c)
    (hadvance : c.advance e.caller = some (e, c')) : Run start (e :: history) c'
  | elsewhere {history : List Event} {c : Crowd} {w : World} (h : Run start history c)
    (htable : w.table = c.world.table) (hguards : w.guards = c.world.guards) :
    Run start history { c with world := w }

def follow : List Nat → List Event → Crowd → Option (List Event × Crowd)
  | [], history, c => some (history, c)
  | caller :: rest, history, c =>
    match c.advance caller with
    | none => none
    | some (e, c) => follow rest (e :: history) c

variable {start c c' : Crowd} {history : List Event} {e : Event} {caller : Nat}

theorem advance_eq_some (h : c.advance caller = some (e, c')) :
    e.caller = caller ∧ e.before = c.world ∧ c.world.isReady e.action = true ∧
      ∃ next, c.programs[caller]? = some (.step e.action next) ∧
        c' = ⟨e.after, c.programs.set caller (next (World.answer e.action c.world).1)⟩ := by
  unfold advance at h
  split at h
  · cases h
  · cases h
  · rename_i action next hprogram
    split at h
    · rename_i hready
      cases h
      exact ⟨rfl, rfl, hready, next, hprogram, rfl⟩
    · cases h

theorem run_of_follow {order : List Nat} {history' : List Event} (h : Run start history c)
    (hfollow : follow order history c = some (history', c')) : Run start history' c' := by
  induction order generalizing history c with
  | nil =>
    cases hfollow
    exact h
  | cons caller rest ih =>
    unfold follow at hfollow
    split at hfollow
    · cases hfollow
    · rename_i e c₁ hadvance
      refine ih (h.step ?_) hfollow
      rw [(advance_eq_some hadvance).1]
      exact hadvance

theorem Run.moment {later earlier : List Event} (h : Run start (later ++ e :: earlier) c) :
    ∃ c₀ c₁, Run start earlier c₀ ∧ c₀.advance e.caller = some (e, c₁) := by
  generalize hhistory : later ++ e :: earlier = history at h
  induction h generalizing later with
  | start => simp at hhistory
  | step h hadvance ih =>
    cases later with
    | nil =>
      cases hhistory
      exact ⟨_, _, h, hadvance⟩
    | cons x later =>
      obtain ⟨-, hrest⟩ := List.cons.inj hhistory
      exact ih hrest
  | elsewhere h htable hguards ih => exact ih hhistory

theorem Run.all {P : Nat → Action → Prop} (h : Run start history c)
    (hall : ∀ (i : Nat) (p : Program Unit), start.programs[i]? = some p → p.All (P i)) :
    ∀ (i : Nat) (p : Program Unit), c.programs[i]? = some p → p.All (P i) := by
  induction h with
  | start => exact hall
  | elsewhere h htable hguards ih => exact ih
  | step h hadvance ih =>
    obtain ⟨-, -, -, next, hprogram, rfl⟩ := advance_eq_some hadvance
    intro i p hp
    rw [List.getElem?_set] at hp
    split at hp
    · rename_i hi
      split at hp
      · cases hp
        have hrest := ih _ _ hprogram
        exact hi ▸ hrest.2 _
      · cases hp
    · exact ih i p hp

end Crowd

end DeviceAuth
