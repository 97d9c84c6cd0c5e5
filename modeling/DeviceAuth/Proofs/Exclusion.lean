import DeviceAuth.Proofs.Interleaving
import DeviceAuth.Proofs.Section
import Mathlib.Logic.Function.Basic

/-! Mutual exclusion of guarded sections. The guard of a device is that of everybody in its section,
for as long as nobody makes the service forget it. -/
namespace DeviceAuth

namespace Guards

def find? (g : Guards) (device : DeviceId) : Option GuardId :=
  (g.entries.find? (·.1 = device)).map (·.2)

theorem lookup_of_find? {g : Guards} {device : DeviceId} {guard : GuardId}
    (h : g.find? device = some guard) : g.lookup device = (guard, g) := by
  obtain ⟨⟨d, id⟩, hentry, rfl⟩ := Option.map_eq_some_iff.mp h
  rw [lookup, hentry]

theorem find?_lookup_self (g : Guards) (device : DeviceId) :
    (g.lookup device).2.find? device = some (g.lookup device).1 := by
  unfold lookup
  cases hentry : g.entries.find? (·.1 = device) with
  | none => simp [find?]
  | some entry => simp [find?, hentry]

theorem find?_lookup {g : Guards} {device device' : DeviceId} {guard : GuardId}
    (h : g.find? device = some guard) : (g.lookup device').2.find? device = some guard := by
  by_cases hd : device' = device
  · subst hd
    rw [lookup_of_find? h]
    exact h
  · unfold lookup
    cases hentry : g.entries.find? (·.1 = device') with
    | none => simpa [find?, hd] using h
    | some entry => exact h

theorem find?_forget {g : Guards} {device device' : DeviceId} (hd : device' ≠ device) :
    (g.forget device').find? device = g.find? device := by
  simp only [find?, forget, List.find?_filter]
  congr 2
  funext entry
  by_cases hentry : entry.1 = device <;> simp [hentry, Ne.symm hd]

end Guards

namespace World

variable {a : Action} {w : World} {device : DeviceId} {guard : GuardId}

theorem find?_guards_answer (h : w.guards.find? device = some guard)
    (ha : a ≠ .forgetGuard device) : (answer a w).2.guards.find? device = some guard := by
  cases a with
  | lookupGuard device' => exact Guards.find?_lookup h
  | forgetGuard device' =>
    have hd : device' ≠ device := fun hd => ha (hd ▸ rfl)
    exact (Guards.find?_forget hd).trans h
  | _ => exact h

theorem mem_held_answer (h : guard ∈ w.guards.held) (ha : a ≠ .release guard) :
    guard ∈ (answer a w).2.guards.held := by
  cases a with
  | lookupGuard device' =>
    show guard ∈ (w.guards.lookup device').2.held
    unfold Guards.lookup
    split
    · exact h
    · exact h
  | acquire guard' => exact List.mem_cons_of_mem _ h
  | release guard' =>
    have hg : guard ≠ guard' := fun hg => ha (hg ▸ rfl)
    simpa [answer, Guards.release] using ⟨h, hg⟩
  | _ => exact h

end World

namespace Phase

variable {phase : Phase} {a : Action} {w : World} {device : DeviceId} {guard : GuardId}

theorem isIn_next (device : DeviceId) (guard : GuardId) (seen : Option (Option Record))
    {a : Action} {answer : a.Answer} (ha : ∀ guard', a ≠ .release guard') :
    IsIn device guard ((holding device guard seen).next a answer) := by
  cases a with
  | release guard' => exact absurd rfl (ha guard')
  | store op =>
    cases op with
    | fetch device' =>
      cases answer with
      | ok found => exact ⟨_, rfl⟩
      | error e => exact ⟨_, rfl⟩
    | _ => exact ⟨_, rfl⟩
  | _ => exact ⟨_, rfl⟩

theorem IsIn.section? (h : phase.IsIn device guard) : phase.section? = some (device, guard) := by
  obtain ⟨seen, rfl⟩ := h
  rfl

theorem held?_next (hallows : phase.Allows a)
    (h : (phase.next a (World.answer a w).1).held? = some guard) :
    a = .acquire guard ∨ (phase.held? = some guard ∧ a ≠ .release guard) := by
  cases phase with
  | outside => cases a <;> cases h
  | waiting device guard' =>
    cases a with
    | acquire _ =>
      obtain rfl := hallows
      exact .inl (congrArg Action.acquire (Option.some.inj h))
    | _ => cases hallows
  | holding device guard' seen =>
    by_cases ha : ∀ guard'', a ≠ .release guard''
    · obtain ⟨seen', hin⟩ := isIn_next device guard' seen ha
      rw [hin] at h
      exact .inr ⟨h, ha guard⟩
    · obtain ⟨guard'', rfl⟩ := not_forall_not.mp ha
      cases h

/-- Who is in the section of a device has looked its guard up just now, or was there before. -/
theorem section?_next (hallows : phase.Allows a)
    (h : (phase.next a (World.answer a w).1).section? = some (device, guard)) :
    (a = .lookupGuard device ∧ guard = (w.guards.lookup device).1) ∨
      (phase.section? = some (device, guard) ∧ (∀ device', a ≠ .lookupGuard device') ∧
        ∀ guard', a ≠ .release guard') := by
  cases phase with
  | outside =>
    cases a with
    | lookupGuard device' =>
      cases h
      exact .inl ⟨rfl, rfl⟩
    | _ => cases h
  | waiting device guard' =>
    cases a with
    | acquire _ => exact .inr ⟨h, nofun, nofun⟩
    | _ => cases hallows
  | holding device guard' seen =>
    by_cases ha : ∀ guard'', a ≠ .release guard''
    · obtain ⟨seen', hin⟩ := isIn_next device guard' seen ha
      rw [hin] at h
      refine .inr ⟨h, ?_, ha⟩
      rintro device' rfl
      cases hallows
    · obtain ⟨guard'', rfl⟩ := not_forall_not.mp ha
      cases h

end Phase

namespace Crowd

/-- The device in whose section a command is, told by what it has done. -/
def engaged? (caller : Nat) : List Event → Option DeviceId
  | [] => none
  | e :: earlier =>
    if e.caller = caller then
      match e.action with
      | .lookupGuard device => some device
      | .release _ => none
      | _ => engaged? caller earlier
    else engaged? caller earlier

/-- The guard of the device was never forgotten while a command was in the device's section. -/
def Undisturbed (device : DeviceId) : List Event → Prop
  | [] => True
  | e :: earlier =>
    (e.action = .forgetGuard device → ∀ caller, engaged? caller earlier ≠ some device) ∧
      Undisturbed device earlier

/-- The guard of the device was forgotten while the command was in the section that it is in. -/
def Robbed (device : DeviceId) (caller : Nat) (history : List Event) : Prop :=
  ∃ since e before, history = since ++ e :: before ∧ e.action = .forgetGuard device ∧
    engaged? caller before = some device ∧
    ∀ x ∈ since, x.caller = caller → ∀ guard, x.action ≠ .release guard

theorem not_robbed_of_undisturbed {device : DeviceId} {history : List Event}
    (hu : Undisturbed device history) (caller : Nat) : ¬Robbed device caller history := by
  rintro ⟨since, e, before, rfl, hforget, hengaged, -⟩
  induction since with
  | nil => exact hu.1 hforget caller hengaged
  | cons x since ih => exact ih hu.2

/-- Where the commands are. No two of them hold one guard. -/
structure Placed (history : List Event) (c : Crowd) (phases : Nat → Phase) : Prop where
  follows : ∀ (i : Nat) (p : Program Unit), c.programs[i]? = some p →
    p.Follows (phases i) fun _ phase => phase = .outside
  engaged : ∀ i d guard, (phases i).section? = some (d, guard) → engaged? i history = some d
  held : ∀ i guard, (phases i).held? = some guard → guard ∈ c.world.guards.held
  alone : ∀ i j guard, (phases i).held? = some guard → (phases j).held? = some guard → i = j

/-- Whoever is in the section of the device has its guard, or has been robbed of it. -/
structure Guarded (device : DeviceId) (history : List Event) (c : Crowd)
    (phases : Nat → Phase) : Prop extends Placed history c phases where
  shared : ∀ i guard, (phases i).section? = some (device, guard) →
    c.world.guards.find? device = some guard ∨ Robbed device i history

/-- Where the commands are, if they exclude each other. -/
structure Orderly (device : DeviceId) (history : List Event) (c : Crowd)
    (phases : Nat → Phase) : Prop extends Placed history c phases where
  known : ∀ i guard, (phases i).section? = some (device, guard) →
    c.world.guards.find? device = some guard

variable {device : DeviceId} {history : List Event} {c c' : Crowd} {phases : Nat → Phase}
  {e : Event}

def nextPhases (phases : Nat → Phase) (e : Event) : Nat → Phase :=
  Function.update phases e.caller
    ((phases e.caller).next e.action (World.answer e.action e.before).1)

theorem nextPhases_self (phases : Nat → Phase) (e : Event) :
    nextPhases phases e e.caller =
      (phases e.caller).next e.action (World.answer e.action e.before).1 :=
  Function.update_self ..

theorem nextPhases_of_ne {i : Nat} (h : i ≠ e.caller) : nextPhases phases e i = phases i :=
  Function.update_of_ne h ..

namespace Placed

theorem allows (h : Placed history c phases) (ha : c.advance e.caller = some (e, c')) :
    (phases e.caller).Allows e.action := by
  obtain ⟨-, -, -, next, hprogram, -⟩ := advance_eq_some ha
  exact (h.follows _ _ hprogram).1

theorem follows_step (h : Placed history c phases)
    (ha : c.advance e.caller = some (e, c')) (i : Nat) (p : Program Unit)
    (hp : c'.programs[i]? = some p) :
    p.Follows (nextPhases phases e i) fun _ phase => phase = .outside := by
  obtain ⟨-, hbefore, -, next, hprogram, rfl⟩ := advance_eq_some ha
  by_cases hi : i = e.caller
  · subst hi
    have hlength : e.caller < c.programs.length := (List.getElem?_eq_some_iff.mp hprogram).1
    rw [List.getElem?_set_self hlength] at hp
    cases hp
    rw [nextPhases_self, hbefore]
    exact (h.follows _ _ hprogram).2 _
  · rw [List.getElem?_set_ne (Ne.symm hi)] at hp
    rw [nextPhases_of_ne hi]
    exact h.follows i p hp

theorem engaged_step (h : Placed history c phases)
    (ha : c.advance e.caller = some (e, c')) (i : Nat) (d : DeviceId) (guard : GuardId)
    (hi : (nextPhases phases e i).section? = some (d, guard)) :
    engaged? i (e :: history) = some d := by
  unfold engaged?
  by_cases hcaller : e.caller = i
  · subst hcaller
    rw [nextPhases_self] at hi
    rw [if_pos rfl]
    rcases Phase.section?_next (h.allows ha) hi with ⟨hlookup, -⟩ | ⟨hsection, hlookup, hrelease⟩
    · rw [hlookup]
    · have hbefore := h.engaged _ _ _ hsection
      split
      · exact absurd (by assumption) (hlookup _)
      · exact absurd (by assumption) (hrelease _)
      · exact hbefore
  · rw [if_neg hcaller]
    rw [nextPhases_of_ne (Ne.symm hcaller)] at hi
    exact h.engaged i d guard hi

theorem held_of_release (h : Placed history c phases)
    (ha : c.advance e.caller = some (e, c')) {guard : GuardId}
    (hrelease : e.action = .release guard) : (phases e.caller).held? = some guard := by
  have hallows := h.allows ha
  rw [hrelease] at hallows
  cases hphase : phases e.caller with
  | outside => rw [hphase] at hallows; cases hallows
  | waiting _ _ => rw [hphase] at hallows; cases hallows
  | holding _ guard' _ =>
    rw [hphase] at hallows
    obtain rfl : guard = guard' := hallows
    rfl

theorem held_step (h : Placed history c phases)
    (ha : c.advance e.caller = some (e, c')) (i : Nat) (guard : GuardId)
    (hi : (nextPhases phases e i).held? = some guard) : guard ∈ c'.world.guards.held := by
  obtain ⟨-, hbefore, -, next, -, rfl⟩ := advance_eq_some ha
  show guard ∈ (World.answer e.action e.before).2.guards.held
  by_cases hcaller : i = e.caller
  · subst hcaller
    rw [nextPhases_self] at hi
    rcases Phase.held?_next (h.allows ha) hi with hacquire | ⟨hheld, hrelease⟩
    · rw [hacquire]
      exact List.mem_cons_self
    · refine World.mem_held_answer ?_ hrelease
      rw [hbefore]
      exact h.held _ _ hheld
  · rw [nextPhases_of_ne hcaller] at hi
    refine World.mem_held_answer ?_ fun hrelease => ?_
    · rw [hbefore]
      exact h.held _ _ hi
    · exact hcaller (h.alone _ _ _ hi (h.held_of_release ha hrelease))

theorem caller_of_held (h : Placed history c phases)
    (ha : c.advance e.caller = some (e, c')) {i : Nat} {guard : GuardId}
    (hcaller : (nextPhases phases e e.caller).held? = some guard)
    (hi : (phases i).held? = some guard) : i = e.caller := by
  obtain ⟨-, -, hready, -⟩ := advance_eq_some ha
  rw [nextPhases_self] at hcaller
  rcases Phase.held?_next (h.allows ha) hcaller with hacquire | ⟨hheld, -⟩
  · rw [hacquire] at hready
    have hfree : guard ∉ c.world.guards.held := by simpa [World.isReady] using hready
    exact absurd (h.held _ _ hi) hfree
  · exact h.alone _ _ _ hi hheld

theorem alone_step (h : Placed history c phases)
    (ha : c.advance e.caller = some (e, c')) (i j : Nat) (guard : GuardId)
    (hi : (nextPhases phases e i).held? = some guard)
    (hj : (nextPhases phases e j).held? = some guard) : i = j := by
  by_cases hicaller : i = e.caller
  · by_cases hjcaller : j = e.caller
    · exact hicaller.trans hjcaller.symm
    · rw [nextPhases_of_ne hjcaller] at hj
      subst hicaller
      exact (h.caller_of_held ha hi hj).symm
  · rw [nextPhases_of_ne hicaller] at hi
    by_cases hjcaller : j = e.caller
    · subst hjcaller
      exact h.caller_of_held ha hj hi
    · rw [nextPhases_of_ne hjcaller] at hj
      exact h.alone _ _ _ hi hj

theorem step (h : Placed history c phases) (ha : c.advance e.caller = some (e, c')) :
    Placed (e :: history) c' (nextPhases phases e) where
  follows := h.follows_step ha
  engaged := h.engaged_step ha
  held := h.held_step ha
  alone := h.alone_step ha

theorem elsewhere (h : Placed history c phases) {w : World} (hguards : w.guards = c.world.guards) :
    Placed history { c with world := w } phases where
  follows := h.follows
  engaged := h.engaged
  held := hguards ▸ h.held
  alone := h.alone

theorem start {start : Crowd} (h : ∀ (i : Nat) (p : Program Unit), start.programs[i]? = some p →
    p.Follows .outside fun _ phase => phase = .outside) : Placed [] start fun _ => .outside where
  follows := h
  engaged := nofun
  held := nofun
  alone := nofun

theorem eq_of_find? (h : Placed history c phases) {i j : Nat} {gi gj : GuardId}
    (hi : (phases i).IsIn device gi) (hj : (phases j).IsIn device gj)
    (hfindi : c.world.guards.find? device = some gi)
    (hfindj : c.world.guards.find? device = some gj) : i = j := by
  obtain ⟨seeni, hi⟩ := hi
  obtain ⟨seenj, hj⟩ := hj
  obtain rfl : gi = gj := Option.some.inj (hfindi.symm.trans hfindj)
  exact h.alone i j gi (by rw [hi]; rfl) (by rw [hj]; rfl)

end Placed

namespace Guarded

theorem shared_step (h : Guarded device history c phases)
    (ha : c.advance e.caller = some (e, c')) (i : Nat) (guard : GuardId)
    (hi : (nextPhases phases e i).section? = some (device, guard)) :
    c'.world.guards.find? device = some guard ∨ Robbed device i (e :: history) := by
  obtain ⟨-, hbefore, -, next, -, rfl⟩ := advance_eq_some ha
  show (World.answer e.action e.before).2.guards.find? device = some guard ∨ _
  have hkept (hsection : (phases i).section? = some (device, guard))
      (hstays : e.caller = i → ∀ guard', e.action ≠ .release guard') :
      (World.answer e.action e.before).2.guards.find? device = some guard ∨
        Robbed device i (e :: history) := by
    rcases h.shared i guard hsection with hknown | ⟨since, f, before, rfl, hforget, hengaged, hin⟩
    · by_cases hforget : e.action = .forgetGuard device
      · exact .inr ⟨[], e, history, rfl, hforget, h.engaged i device guard hsection,
          List.forall_mem_nil _⟩
      · exact .inl (World.find?_guards_answer (hbefore ▸ hknown) hforget)
    · exact .inr ⟨e :: since, f, before, rfl, hforget, hengaged,
        List.forall_mem_cons.mpr ⟨hstays, hin⟩⟩
  by_cases hcaller : i = e.caller
  · subst hcaller
    rw [nextPhases_self] at hi
    rcases Phase.section?_next (h.allows ha) hi with
      ⟨hlookup, rfl⟩ | ⟨hsection, -, hrelease⟩
    · rw [hlookup]
      exact .inl (Guards.find?_lookup_self e.before.guards device)
    · exact hkept hsection fun _ => hrelease
  · rw [nextPhases_of_ne hcaller] at hi
    exact hkept hi fun heq => absurd heq.symm hcaller

theorem step (h : Guarded device history c phases) (ha : c.advance e.caller = some (e, c')) :
    Guarded device (e :: history) c' (nextPhases phases e) where
  toPlaced := h.toPlaced.step ha
  shared := h.shared_step ha

theorem elsewhere (h : Guarded device history c phases) {w : World}
    (hguards : w.guards = c.world.guards) :
    Guarded device history { c with world := w } phases where
  toPlaced := h.toPlaced.elsewhere hguards
  shared := hguards ▸ h.shared

/-- Two commands are in the section of one device at once only if one has been robbed. -/
theorem eq_or_robbed (h : Guarded device history c phases) {i j : Nat} {gi gj : GuardId}
    (hi : (phases i).IsIn device gi) (hj : (phases j).IsIn device gj) :
    i = j ∨ Robbed device i history ∨ Robbed device j history := by
  rcases h.shared i gi hi.section? with hfindi | hrobbed
  · rcases h.shared j gj hj.section? with hfindj | hrobbed
    · exact .inl (h.eq_of_find? hi hj hfindi hfindj)
    · exact .inr (.inr hrobbed)
  · exact .inr (.inl hrobbed)

end Guarded

namespace Orderly

theorem guarded (h : Orderly device history c phases) : Guarded device history c phases where
  toPlaced := h.toPlaced
  shared := fun i guard hi => .inl (h.known i guard hi)

theorem step (h : Orderly device history c phases) (ha : c.advance e.caller = some (e, c'))
    (hu : Undisturbed device (e :: history)) :
    Orderly device (e :: history) c' (nextPhases phases e) where
  toPlaced := h.toPlaced.step ha
  known := fun i guard hi =>
    (h.guarded.shared_step ha i guard hi).resolve_right (not_robbed_of_undisturbed hu i)

theorem elsewhere (h : Orderly device history c phases) {w : World}
    (hguards : w.guards = c.world.guards) :
    Orderly device history { c with world := w } phases where
  toPlaced := h.toPlaced.elsewhere hguards
  known := hguards ▸ h.known

theorem start {start : Crowd} (h : ∀ (i : Nat) (p : Program Unit), start.programs[i]? = some p →
    p.Follows .outside fun _ phase => phase = .outside) :
    Orderly device [] start fun _ => .outside where
  toPlaced := .start h
  known := nofun

theorem eq_of_holding (h : Orderly device history c phases) {i j : Nat} {gi gj : GuardId}
    (hi : (phases i).IsIn device gi) (hj : (phases j).IsIn device gj) : i = j :=
  h.eq_of_find? hi hj (h.known i gi hi.section?) (h.known j gj hj.section?)

end Orderly

end Crowd

end DeviceAuth
