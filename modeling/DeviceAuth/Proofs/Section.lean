import DeviceAuth.Proofs.Records

/-! Guarded sections. A program looks up the guard of a device, acquires it and releases it; inside
it may put a record of the device in place, if it has seen that the owner stays the same. -/
namespace DeviceAuth

variable {α β : Type}

/-- Where a program is. Inside a section it may have seen what the store holds of the device. -/
inductive Phase where
  | outside
  | waiting (device : DeviceId) (guard : GuardId)
  | holding (device : DeviceId) (guard : GuardId) (seen : Option (Option Record))

namespace Phase

def section? : Phase → Option (DeviceId × GuardId)
  | .outside => none
  | .waiting device guard | .holding device guard _ => some (device, guard)

def held? : Phase → Option GuardId
  | .outside | .waiting _ _ => none
  | .holding _ guard _ => some guard

def Allows : Phase → Action → Prop
  | .outside, .lookupGuard _ => True
  | .waiting _ guard, .acquire guard' => guard' = guard
  | .waiting _ _, _ => False
  | .holding _ guard _, .release guard' => guard' = guard
  | .holding device _ seen, .store (.save r) =>
    r.device = device ∧ ∃ found, seen = some found ∧ ∀ r₀, found = some r₀ → r₀.owner = r.owner
  | .holding device _ seen, .store (.swap device' _ r) =>
    device' = device ∧ ∃ r₀, seen = some (some r₀) ∧ r₀.owner = r.owner
  | .outside, a | .holding _ _ _, a => a.IsFree

def next : Phase → (a : Action) → a.Answer → Phase
  | .outside, .lookupGuard device, guard => .waiting device guard
  | .waiting device guard, .acquire _, _ => .holding device guard none
  | .holding _ _ _, .release _, _ => .outside
  | .holding device guard seen, .store (.fetch device'), .ok found =>
    .holding device guard (if device' = device then some found else seen)
  | .holding device guard _, .store (.save _), _ => .holding device guard none
  | phase, _, _ => phase

def Stays (phase : Phase) (a : Action) : Prop :=
  phase.Allows a ∧ ∀ answer, phase.next a answer = phase

def IsIn (device : DeviceId) (guard : GuardId) (phase : Phase) : Prop :=
  ∃ seen, phase = .holding device guard seen

end Phase

namespace Program

/-- From a phase on, the program does only what is allowed, and ends as it should. -/
def Follows (phase : Phase) : Program α → (α → Phase → Prop) → Prop
  | .done a, ends => ends a phase
  | .step action rest, ends =>
    phase.Allows action ∧ ∀ answer, (rest answer).Follows (phase.next action answer) ends

theorem Follows.bind {p : Program α} {f : α → Program β} {mid : α → Phase → Prop}
    {ends : β → Phase → Prop} {phase : Phase} (hp : p.Follows phase mid)
    (hf : ∀ a phase, mid a phase → (f a).Follows phase ends) : (p.bind f).Follows phase ends := by
  induction p generalizing phase with
  | done a => exact hf a phase hp
  | step action rest ih => exact ⟨hp.1, fun answer => ih answer (hp.2 answer)⟩

theorem Follows.mono {p : Program α} {mid ends : α → Phase → Prop} {phase : Phase}
    (hp : p.Follows phase mid) (h : ∀ a phase, mid a phase → ends a phase) :
    p.Follows phase ends := by
  induction p generalizing phase with
  | done a => exact h a phase hp
  | step action rest ih => exact ⟨hp.1, fun answer => ih answer (hp.2 answer)⟩

theorem follows_of_stays {p : Program α} {phase : Phase} (hp : p.All phase.Stays) :
    p.Follows phase fun _ phase' => phase' = phase := by
  induction p with
  | done a => rfl
  | step action rest ih =>
    refine ⟨hp.1.1, fun answer => ?_⟩
    rw [hp.1.2 answer]
    exact ih answer (hp.2 answer)

end Program

namespace Command

/-- A command follows as its program does; it ends with a value or with an error. -/
def Follows (phase : Phase) (c : Command α) (ends : α → Phase → Prop) (fails : Phase → Prop) :
    Prop :=
  Program.Follows phase (ExceptT.run c) fun result phase =>
    match result with
    | .ok a => ends a phase
    | .error _ => fails phase

variable {phase : Phase} {fails : Phase → Prop}

theorem Follows.bind {c : Command α} {f : α → Command β} {mid : α → Phase → Prop}
    {ends : β → Phase → Prop} (hc : c.Follows phase mid fails)
    (hf : ∀ a phase, mid a phase → (f a).Follows phase ends fails) :
    (c >>= f).Follows phase ends fails := by
  refine Program.Follows.bind hc fun result phase h => ?_
  cases result with
  | ok a => exact hf a phase h
  | error e => exact h

theorem Follows.mono {c : Command α} {mid ends : α → Phase → Prop}
    (hc : c.Follows phase mid fails) (h : ∀ a phase, mid a phase → ends a phase) :
    c.Follows phase ends fails := by
  refine Program.Follows.mono hc fun result phase hmid => ?_
  cases result with
  | ok a => exact h a phase hmid
  | error e => exact hmid

theorem follows_of_stays {c : Command α} (hc : c.All phase.Stays) (hfails : fails phase) :
    c.Follows phase (fun _ phase' => phase' = phase) fails := by
  refine (Program.follows_of_stays hc).mono fun result phase' h => ?_
  cases result with
  | ok a => exact h
  | error e => exact h ▸ hfails

theorem follows_ofExcept_bind {e : Except Error α} {f : α → Command β}
    {ends : β → Phase → Prop} (hf : ∀ a, e = .ok a → (f a).Follows phase ends fails)
    (hfails : fails phase) : (ofExcept e >>= f).Follows phase ends fails := by
  cases e with
  | ok a => exact hf a rfl
  | error e => exact hfails

theorem follows_of_free {c : Command α} (hc : c.All Action.IsFree) :
    c.Follows .outside (fun _ phase => phase = .outside) (· = .outside) := by
  refine follows_of_stays (hc.mono fun a ha => ?_) rfl
  cases a with
  | lookupGuard _ => cases ha
  | _ => exact ⟨ha, fun _ => rfl⟩

variable {device : DeviceId} {guard : GuardId}

theorem follows_of_remote {seen : Option (Option Record)} {c : Command α}
    (hc : c.All Action.IsRemote) :
    c.Follows (.holding device guard seen) (fun _ phase => phase = .holding device guard seen)
      (Phase.IsIn device guard) := by
  refine follows_of_stays (hc.mono fun a ha => ?_) ⟨seen, rfl⟩
  cases a with
  | send _ | now => exact ⟨trivial, fun _ => rfl⟩
  | _ => cases ha

theorem follows_fetch {seen : Option (Option Record)} :
    (store (.fetch device)).Follows (.holding device guard seen)
      (fun found phase => phase = .holding device guard (some found))
      (Phase.IsIn device guard) := by
  refine ⟨trivial, fun answer => ?_⟩
  cases answer with
  | ok found =>
    show Phase.holding device guard (if device = device then some found else seen) = _
    rw [if_pos rfl]
  | error e => exact ⟨seen, rfl⟩

theorem follows_save {found : Option Record} {r : Record} (hdevice : r.device = device)
    (howner : ∀ r₀, found = some r₀ → r₀.owner = r.owner) :
    (store (.save r)).Follows (.holding device guard (some found))
      (fun _ => Phase.IsIn device guard) (Phase.IsIn device guard) := by
  refine ⟨⟨hdevice, found, rfl, howner⟩, fun answer => ?_⟩
  cases answer with
  | ok _ => exact ⟨none, rfl⟩
  | error e => exact ⟨none, rfl⟩

theorem follows_guarded {body : Command α}
    (h : ∀ guard, body.Follows (.holding device guard none) (fun _ => Phase.IsIn device guard)
      (Phase.IsIn device guard)) :
    (guarded device body).Follows .outside (fun _ phase => phase = .outside) (· = .outside) := by
  refine ⟨trivial, fun guard => ⟨rfl, fun _ => ?_⟩⟩
  refine Program.Follows.bind (p := ExceptT.run body) (h guard) fun result phase hend => ?_
  obtain ⟨seen, rfl⟩ : Phase.IsIn device guard phase := by
    cases result with
    | ok a => exact hend
    | error e => exact hend
  refine ⟨rfl, fun _ => ?_⟩
  cases result with
  | ok a => rfl
  | error e => rfl

end Command

end DeviceAuth
