import DeviceAuth.Proofs.Exclusion
import DeviceAuth.Proofs.Record
import DeviceAuth.Proofs.Service.Sections

/-! Owners of devices while commands run at once. Unless a guard is forgotten under somebody's feet,
a registration takes the place of no record but its owner's. -/
namespace DeviceAuth

def Action.Puts (device : DeviceId) (record : Record) : Action → Prop
  | .store op => op.Puts device record
  | _ => False

namespace World

variable {a : Action} {w : World} {device : DeviceId}

theorem record?_answer_cases (a : Action) (w : World) (device : DeviceId) :
    (answer a w).2.record? device = w.record? device ∨
      (∃ r, a.Puts device r ∧ (answer a w).2.record? device = some r) ∨
      (∃ r now, w.record? device = some r ∧
        (answer a w).2.record? device = some (r.signOut now)) ∨
      (a = .store (.remove device) ∧ (∃ r, w.record? device = some r) ∧
        (answer a w).2.record? device = none) := by
  cases a with
  | store op =>
    show (w.store.apply op).2.table.get? device = w.store.table.get? device ∨ _
    simp only [record?, table, answer]
    rw [Store.table_apply]
    split
    · exact .inl rfl
    · rcases w.store.table.get?_next_cases op device with h | h | h | ⟨hop, h⟩
      · exact .inl h
      · exact .inr (.inl h)
      · exact .inr (.inr (.inl h))
      · exact .inr (.inr (.inr ⟨congrArg Action.store hop, h⟩))
  | _ => exact .inl rfl

end World

namespace Phase

variable {phase : Phase} {a : Action} {w : World} {device : DeviceId} {guard : GuardId}

theorem isIn_of_puts {r : Record} (hallows : phase.Allows a) (hputs : a.Puts device r) :
    ∃ guard found, phase = .holding device guard (some found) ∧
      (∀ r₀, found = some r₀ → r₀.owner = r.owner) ∧
      ((∀ r', a ≠ .store (.save r')) → found.isSome) := by
  cases a with
  | store op =>
    cases op with
    | save _ =>
      obtain ⟨rfl, rfl⟩ := hputs
      cases phase with
      | holding device' guard seen =>
        obtain ⟨rfl, found, rfl, howner⟩ := hallows
        exact ⟨guard, found, rfl, howner, fun hsave => absurd rfl (hsave _)⟩
      | _ => cases hallows
    | swap _ _ _ =>
      obtain ⟨rfl, rfl⟩ := hputs
      cases phase with
      | holding device' guard seen =>
        obtain ⟨rfl, r₀, rfl, howner⟩ := hallows
        refine ⟨guard, some r₀, rfl, fun r₁ hr₁ => ?_, fun _ => rfl⟩
        exact Option.some.inj hr₁ ▸ howner
      | _ => cases hallows
    | _ => cases hputs
  | _ => cases hputs

/-- What has been seen was seen just now, or before and nothing was saved since. -/
theorem seen_next {found : Option Record} (hallows : phase.Allows a)
    (h : phase.next a (World.answer a w).1 = .holding device guard (some found)) :
    (a = .store (.fetch device) ∧ found = w.record? device) ∨
      phase = .holding device guard (some found) ∧ ∀ r, a ≠ .store (.save r) := by
  cases phase with
  | outside => cases a <;> cases h
  | waiting _ _ =>
    cases a with
    | acquire _ => cases h
    | _ => cases hallows
  | holding device' guard' seen =>
    cases a with
    | store op =>
      cases op with
      | fetch fetched =>
        change (holding device' guard' seen).next (.store (.fetch fetched))
          (w.store.apply (.fetch fetched)).1 = _ at h
        cases hanswer : (w.store.apply (.fetch fetched)).1 with
        | error e =>
          rw [hanswer] at h
          exact .inr ⟨h, fun _ hsave => by cases hsave⟩
        | ok found' =>
          rw [hanswer] at h
          have hfound : found' = w.record? fetched := (Store.answer_apply hanswer).1
          by_cases hfetched : fetched = device'
          · simp only [next, hfetched, if_true] at h
            cases h
            exact .inl ⟨by rw [hfetched], hfetched ▸ hfound⟩
          · simp only [next, hfetched, if_false] at h
            exact .inr ⟨h, fun _ hsave => by cases hsave⟩
      | save _ => cases h
      | _ => exact .inr ⟨h, fun _ hsave => by cases hsave⟩
    | release _ => cases h
    | _ => exact .inr ⟨h, fun _ hsave => by cases hsave⟩

end Phase

namespace Crowd

/-- Whoever has seen the record of a device in its section has seen the owner that it has. -/
structure Owned (device : DeviceId) (history : List Event) (c : Crowd)
    (phases : Nat → Phase) : Prop extends Orderly device history c phases where
  seen : ∀ i guard found, phases i = .holding device guard (some found) →
    ∀ r, c.world.record? device = some r → ∃ r₀, found = some r₀ ∧ r₀.owner = r.owner

variable {device : DeviceId} {history : List Event} {c c' : Crowd} {phases : Nat → Phase}
  {e : Event}

namespace Owned

theorem owner_of_puts (h : Owned device history c phases)
    (ha : c.advance e.caller = some (e, c')) {r old : Record} (hputs : e.action.Puts device r)
    (hold : c.world.record? device = some old) : old.owner = r.owner := by
  obtain ⟨guard, found, hphase, howner, -⟩ := Phase.isIn_of_puts (h.allows ha) hputs
  obtain ⟨r₀, hr₀, hsame⟩ := h.seen _ guard found hphase old hold
  exact hsame.symm.trans (howner r₀ hr₀)

theorem seen_step (h : Owned device history c phases)
    (ha : c.advance e.caller = some (e, c')) (i : Nat) (guard : GuardId) (found : Option Record)
    (hi : nextPhases phases e i = .holding device guard (some found)) (r : Record)
    (hr : c'.world.record? device = some r) : ∃ r₀, found = some r₀ ∧ r₀.owner = r.owner := by
  have hallows := h.allows ha
  obtain ⟨-, hbefore, -, next, -, rfl⟩ := advance_eq_some ha
  change (World.answer e.action e.before).2.record? device = some r at hr
  -- what was seen before the event stays true, if what the event puts in place agrees with it
  have hkept (hphase : phases i = .holding device guard (some found))
      (hputs : ∀ r', e.action.Puts device r' → ∃ r₀, found = some r₀ ∧ r₀.owner = r'.owner) :
      ∃ r₀, found = some r₀ ∧ r₀.owner = r.owner := by
    rcases World.record?_answer_cases e.action e.before device with
      hsame | ⟨r', hput, hafter⟩ | ⟨old, now, hold, hafter⟩ | ⟨-, -, hafter⟩
    · refine h.seen i guard found hphase r ?_
      rw [← hbefore, ← hsame]
      exact hr
    · obtain rfl : r' = r := Option.some.inj (hafter.symm.trans hr)
      exact hputs r' hput
    · obtain rfl : old.signOut now = r := Option.some.inj (hafter.symm.trans hr)
      exact h.seen i guard found hphase old (hbefore ▸ hold)
    · cases hafter.symm.trans hr
  by_cases hcaller : i = e.caller
  · subst hcaller
    rw [nextPhases_self] at hi
    rcases Phase.seen_next hallows hi with ⟨hfetch, rfl⟩ | ⟨hphase, hsave⟩
    · rw [hfetch, World.answer_of_isRead (a := .store (.fetch device)) rfl] at hr
      exact ⟨r, hr, rfl⟩
    · refine hkept hphase fun r' hput => ?_
      obtain ⟨guard', found', hphase', howner, hsome⟩ := Phase.isIn_of_puts hallows hput
      obtain rfl : found = found' := by
        rw [hphase] at hphase'
        cases hphase'
        rfl
      obtain ⟨r₀, hr₀⟩ := Option.isSome_iff_exists.mp (hsome hsave)
      exact ⟨r₀, hr₀, howner r₀ hr₀⟩
  · rw [nextPhases_of_ne hcaller] at hi
    refine hkept hi fun r' hput => ?_
    obtain ⟨guard', found', hphase', -⟩ := Phase.isIn_of_puts hallows hput
    exact absurd (h.eq_of_holding ⟨_, hi⟩ ⟨_, hphase'⟩) hcaller

theorem owner_step (h : Owned device history c phases)
    (ha : c.advance e.caller = some (e, c')) {old : Record}
    (hold : c.world.record? device = some old) :
    (∃ r, c'.world.record? device = some r ∧ r.owner = old.owner) ∨
      (e.action = .store (.remove device) ∧ c'.world.record? device = none) := by
  have hputs := fun r hput => h.owner_of_puts ha (r := r) hput hold
  obtain ⟨-, hbefore, -, next, -, rfl⟩ := advance_eq_some ha
  show (∃ r, (World.answer e.action e.before).2.record? device = some r ∧ _) ∨ (_ ∧
    (World.answer e.action e.before).2.record? device = none)
  rw [← hbefore] at hold
  rcases World.record?_answer_cases e.action e.before device with
    hsame | ⟨r, hput, hafter⟩ | ⟨r, now, hr, hafter⟩ | ⟨hremove, -, hafter⟩
  · exact .inl ⟨old, hsame.trans hold, rfl⟩
  · exact .inl ⟨r, hafter, (hputs r hput).symm⟩
  · obtain rfl : r = old := Option.some.inj (hr.symm.trans hold)
    exact .inl ⟨r.signOut now, hafter, rfl⟩
  · exact .inr ⟨hremove, hafter⟩

theorem step (h : Owned device history c phases) (ha : c.advance e.caller = some (e, c'))
    (hu : Undisturbed device (e :: history)) :
    Owned device (e :: history) c' (nextPhases phases e) where
  toOrderly := h.toOrderly.step ha hu
  seen := h.seen_step ha

end Owned

end Crowd

structure Call where
  bearer : String
  task : Service.Task
  request : task.Request

def Call.program (s : Service) (call : Call) : Program Unit :=
  (ExceptT.run (s.perform call.bearer call.task call.request)).bind fun _ => .done ()

def Action.forgets : Action → Bool
  | .forgetGuard _ => true
  | _ => false

/-- The event takes the record of a device away. -/
def Event.Removes (device : DeviceId) (e : Event) : Prop :=
  e.action = .store (.remove device) ∧ (∃ r, e.before.record? device = some r) ∧
    e.after.record? device = none

namespace Crowd

def ofCalls (s : Service) (calls : List Call) (w : World) : Crowd :=
  ⟨w, calls.map (Call.program s)⟩

variable {s : Service} {calls : List Call} {w : World} {device : DeviceId}
  {history : List Event} {c : Crowd}

theorem call_of_program {i : Nat} {p : Program Unit}
    (h : (ofCalls s calls w).programs[i]? = some p) :
    ∃ call, calls[i]? = some call ∧ p = call.program s := by
  obtain ⟨call, hcall, rfl⟩ := Option.map_eq_some_iff.mp (List.getElem?_map.symm.trans h)
  exact ⟨call, hcall, rfl⟩

theorem follows_of_program (hs : ∀ bearer, (s.verifier bearer).All Action.IsRead) {i : Nat}
    {p : Program Unit} (hp : (ofCalls s calls w).programs[i]? = some p) :
    p.Follows .outside fun _ phase => phase = .outside := by
  obtain ⟨call, -, rfl⟩ := call_of_program hp
  have hfollows := Service.perform_follows hs call.bearer call.task call.request
  refine Program.Follows.bind hfollows fun result phase h => ?_
  cases result with
  | ok a => exact h
  | error e => exact h

theorem owned_of_run (hs : ∀ bearer, (s.verifier bearer).All Action.IsRead)
    (hrun : Run (ofCalls s calls w) history c) (hu : Undisturbed device history) :
    ∃ phases, Owned device history c phases := by
  induction hrun with
  | start =>
    exact ⟨fun _ => .outside, .start fun i p hp => follows_of_program hs hp, nofun⟩
  | step hrun hadvance ih =>
    obtain ⟨phases, howned⟩ := ih hu.2
    exact ⟨_, howned.step hadvance hu⟩
  | elsewhere hrun htable hguards ih =>
    obtain ⟨phases, howned⟩ := ih hu
    refine ⟨phases, howned.toOrderly.elsewhere hguards, fun i guard found hi r hr => ?_⟩
    refine howned.seen i guard found hi r ?_
    rw [World.record?, ← htable]
    exact hr

/-- A record that has been there keeps its owner from then on, unless it is removed. -/
theorem removed_or_kept (hs : ∀ bearer, (s.verifier bearer).All Action.IsRead)
    {since before : List Event} {e₀ : Event} {r₀ : Record}
    (hrun : Run (ofCalls s calls w) (since ++ e₀ :: before) c)
    (hu : Undisturbed device (since ++ e₀ :: before))
    (h₀ : e₀.after.record? device = some r₀) :
    (∃ x ∈ since, x.Removes device) ∨
      ∃ r, c.world.record? device = some r ∧ r.owner = r₀.owner := by
  generalize hhistory : since ++ e₀ :: before = history at hrun hu
  induction hrun generalizing since with
  | start => simp at hhistory
  | elsewhere hrun htable hguards ih =>
    simp only [World.record?, htable]
    exact ih hhistory hu
  | step hrun hadvance ih =>
    cases since with
    | nil =>
      cases hhistory
      obtain ⟨-, -, -, next, -, rfl⟩ := advance_eq_some hadvance
      exact .inr ⟨r₀, h₀, rfl⟩
    | cons x since =>
      obtain ⟨rfl, hrest⟩ := List.cons.inj hhistory
      rcases ih hrest hu.2 with ⟨y, hy, hremoves⟩ | ⟨r, hr, howner⟩
      · exact .inl ⟨y, List.mem_cons_of_mem x hy, hremoves⟩
      · obtain ⟨phases, howned⟩ := owned_of_run hs hrun hu.2
        rcases howned.owner_step hadvance hr with ⟨r', hr', hkept⟩ | ⟨hremove, hnone⟩
        · exact .inr ⟨r', hr', hkept.trans howner⟩
        · obtain ⟨-, hbefore, -, next, -, rfl⟩ := advance_eq_some hadvance
          exact .inl ⟨x, List.mem_cons_self, hremove, ⟨r, hbefore ▸ hr⟩, hnone⟩

theorem maySave_of_run (hs : ∀ bearer, (s.verifier bearer).All Action.IsRead)
    (hrun : Run (ofCalls s calls w) history c) {i : Nat} {r : Record}
    {next : (Action.store (.save r)).Answer → Program Unit}
    (h : c.programs[i]? = some (.step (.store (.save r)) next)) :
    ∃ call, calls[i]? = some call ∧ s.MaySave call.task call.request r := by
  have hall := hrun.all (P := fun i => Action.Saves fun r =>
    ∃ call, calls[i]? = some call ∧ s.MaySave call.task call.request r) fun i p hp => ?_
  · exact (hall i _ h).1
  · obtain ⟨call, hcall, rfl⟩ := call_of_program hp
    have hsaves := Service.perform_saves hs call.bearer call.task call.request
    refine Program.All.bind (Program.All.mono (fun a ha => ?_) hsaves) fun _ => trivial
    cases a with
    | store op =>
      cases op with
      | save r => exact ⟨call, hcall, ha⟩
      | _ => trivial
    | _ => trivial

/-- A record is saved only by a sign-up and only for the owner that the provider names. If no guard
of the device was forgotten while somebody was in its section, the record takes the place of no
record but that owner's, and one that another owner had at any earlier moment has been removed. -/
theorem owner_of_save (hs : ∀ bearer, (s.verifier bearer).All Action.IsRead)
    {later earlier : List Event} {e : Event}
    (hrun : Run (ofCalls s calls w) (later ++ e :: earlier) c) {r : Record}
    (hsave : e.action = .store (.save r)) (hu : Undisturbed r.device earlier) :
    (∃ call, calls[e.caller]? = some call ∧ s.MaySave call.task call.request r) ∧
      (∀ old, e.before.record? r.device = some old → old.owner = r.owner) ∧
      ∀ since e₀ before r₀, earlier = since ++ e₀ :: before →
        e₀.after.record? r.device = some r₀ → r₀.owner ≠ r.owner →
          ∃ x ∈ since, x.Removes r.device := by
  obtain ⟨c₀, c₁, hmoment, hadvance⟩ := hrun.moment
  obtain ⟨-, hbefore, -, next, hprogram, -⟩ := advance_eq_some hadvance
  obtain ⟨phases, howned⟩ := owned_of_run hs hmoment hu
  have howner : ∀ old, e.before.record? r.device = some old → old.owner = r.owner := by
    intro old hold
    refine howned.owner_of_puts hadvance ?_ (hbefore ▸ hold)
    rw [hsave]
    exact ⟨rfl, rfl⟩
  refine ⟨?_, howner, ?_⟩
  · obtain ⟨caller, action, before⟩ := e
    obtain rfl : action = .store (.save r) := hsave
    exact maySave_of_run hs hmoment hprogram
  · rintro since e₀ before r₀ rfl h₀ hne
    rcases removed_or_kept hs hmoment hu h₀ with hremoved | ⟨r', hr', hkept⟩
    · exact hremoved
    · exact absurd (hkept.symm.trans (howner r' (hbefore ▸ hr'))) hne

/-- What the latest event saves, if it does, and the record that it finds. -/
def lastSave? : List Event → Option (Record × Record)
  | ⟨_, .store (.save r), before⟩ :: _ => (before.record? r.device).map fun old => (r, old)
  | _ => none

theorem lastSave?_eq_some {r old : Record} (h : lastSave? history = some (r, old)) :
    ∃ e earlier, history = e :: earlier ∧ e.action = .store (.save r) ∧
      e.before.record? r.device = some old := by
  unfold lastSave? at h
  split at h
  · obtain ⟨old', hold, hpair⟩ := Option.map_eq_some_iff.mp h
    cases hpair
    exact ⟨_, _, rfl, rfl, hold⟩
  · cases h

theorem undisturbed_of_all (h : history.all (fun e => !e.action.forgets) = true)
    (device : DeviceId) : Undisturbed device history := by
  induction history with
  | nil => trivial
  | cons e earlier ih =>
    rw [List.all_cons, Bool.and_eq_true] at h
    refine ⟨fun hforget => ?_, ih h.2⟩
    rw [hforget] at h
    cases h.1

/-- A provider that issues tokens of one user for the code "a" and of another for any other. -/
def samplePeer : Http.Peer := fun call =>
  let payload :=
    if call.body = Text.utf8 "grant_type=authorization_code&code=a&client_id=" then
      "eyJzdWIiOiJhIn0"
    else "eyJzdWIiOiJiIn0"
  .answered ⟨200, ⟨[]⟩,
    Text.utf8 ("\x7b\"access_token\":\"h." ++ payload ++ ".\",\"token_type\":\"b\"\x7d")⟩

def sampleService : Service :=
  ⟨⟨{ OAuth.Config.empty with ownerClaim := "sub" },
    ⟨"http", "", "", none, none, .segments [], none, none⟩, .default⟩, Record.sample.provider,
    Service.Verifier.ofStore⟩

def sampleRecord (owner : UserId) (token : String) : Record :=
  ⟨Record.sample.device, owner, Record.sample.provider, ⟨token⟩, none, ⟨0, 0⟩, none, none⟩

def sampleWorld : World :=
  ⟨.ofBackend (.memory (.ofRecords [sampleRecord ⟨"a", by decide⟩ "t"])) .empty, .empty, ⟨0, 0⟩,
    samplePeer, ""⟩

def sampleSignUp (code : String) : Call := ⟨"", .signUp, ⟨"d", ⟨code⟩, ""⟩⟩

/-- An owner signs up again; the record that is there is theirs. -/
theorem owner_of_save_again :
    ∃ (e : Event) (earlier : List Event) (c : Crowd) (r old : Record),
      Run (ofCalls sampleService [sampleSignUp "a"] sampleWorld) (e :: earlier) c ∧
        e.action = .store (.save r) ∧ Undisturbed r.device earlier ∧
        e.before.record? r.device = some old ∧ old.owner = r.owner := by
  let start := ofCalls sampleService [sampleSignUp "a"] sampleWorld
  have hlast : (follow [0, 0, 0, 0, 0, 0, 0, 0] [] start).bind
      (fun x => if x.1.all (fun e => !e.action.forgets) then lastSave? x.1 else none) =
        some (sampleRecord ⟨"a", by decide⟩ "h.eyJzdWIiOiJhIn0.",
          sampleRecord ⟨"a", by decide⟩ "t") := by
    decide +kernel
  obtain ⟨⟨history, c⟩, hfollow, hsave⟩ := Option.bind_eq_some_iff.mp hlast
  split at hsave
  · rename_i hall
    obtain ⟨e, earlier, rfl, hsave, hold⟩ := lastSave?_eq_some hsave
    have hrun : Run start ([] ++ e :: earlier) c := run_of_follow .start hfollow
    have hu : Undisturbed _ earlier := (undisturbed_of_all hall Record.sample.device).2
    have howner := owner_of_save Service.Verifier.ofStore_reads hrun hsave hu
    exact ⟨e, earlier, c, _, _, hrun, hsave, hu, hold, howner.2.1 _ hold⟩
  · cases hsave

/-- While an owner signs up again, their device is signed off and somebody else signs it up, who
finds no guard and makes another. -/
theorem save_over_another_owner :
    ∃ (e : Event) (earlier : List Event) (c : Crowd) (r old : Record),
      Run (ofCalls sampleService [sampleSignUp "a", ⟨"t", .signOff, ⟨"d", "a", ⟨"t"⟩⟩⟩,
        sampleSignUp "b"] sampleWorld) (e :: earlier) c ∧
        e.action = .store (.save r) ∧ e.before.record? r.device = some old ∧
        old.owner ≠ r.owner := by
  let start := ofCalls sampleService [sampleSignUp "a", ⟨"t", .signOff, ⟨"d", "a", ⟨"t"⟩⟩⟩,
    sampleSignUp "b"] sampleWorld
  let order := [0, 0, 0, 0, 0, 1, 1, 1, 2, 2, 2, 2, 2, 2, 2, 2, 2, 0, 0, 0]
  have hlast : (follow order [] start).bind (fun x => lastSave? x.1) =
      some (sampleRecord ⟨"a", by decide⟩ "h.eyJzdWIiOiJhIn0.",
        sampleRecord ⟨"b", by decide⟩ "h.eyJzdWIiOiJiIn0.") := by
    decide +kernel
  obtain ⟨⟨history, c⟩, hfollow, hsave⟩ := Option.bind_eq_some_iff.mp hlast
  obtain ⟨e, earlier, rfl, hsave, hold⟩ := lastSave?_eq_some hsave
  exact ⟨e, earlier, c, _, _, run_of_follow .start hfollow, hsave, hold, by decide⟩

end Crowd

end DeviceAuth
