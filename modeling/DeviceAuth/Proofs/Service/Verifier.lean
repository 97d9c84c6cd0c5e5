import DeviceAuth.Proofs.Record
import DeviceAuth.Proofs.Service.Basic
import DeviceAuth.Proofs.Store.SameRecords

/-! Who is let in with a bearer token. The search finds one of the records that hold the token, and
only that one is asked whether its session is active. -/
namespace DeviceAuth

/-- The record holds the token, and its session is active. -/
def Record.Vouches (bearer : String) (now : Instant) (r : Record) : Prop :=
  r.accessToken.text = bearer ∧ r.status now = .active

namespace Store.Table

variable {t : Table} {r : Record} {p : Record → Bool}

theorem exists_sameRecords_cons (h : r ∈ t.records) :
    ∃ u : Table, u.SameRecords t ∧ ∃ rest, u.records = r :: rest := by
  obtain ⟨e, he, rfl⟩ := List.mem_map.mp h
  exact ⟨⟨e :: t.entries.erase e⟩, (List.perm_cons_erase he).symm, _, rfl⟩

end Store.Table

namespace Service.Verifier

variable {w : World} {bearer : String}

theorem runCommand_ofStore (hne : bearer ≠ "") (hfind : .find ∉ w.store.refused) :
    w.runCommand (ofStore bearer) =
      match w.table.records.find? (·.accessToken.agrees bearer) with
      | none => (.error (.unauthenticated "bearer token is unknown"), w)
      | some r =>
        if r.status w.clock = .active then (.ok r.owner, w)
        else (.error (.unauthenticated "bearer token is no longer active"), w) := by
  have hsearch : w.runCommand (.store (.find bearer)) =
      (.ok (w.table.records.find? (·.accessToken.agrees bearer)), w) := by
    rw [World.runCommand_store, Store.apply_of_reads rfl hfind]
    rfl
  unfold ofStore
  dsimp only
  rw [if_neg hne, World.runCommand_bind_ok w hsearch]
  cases w.table.records.find? (·.accessToken.agrees bearer) with
  | none => rfl
  | some r =>
    dsimp only
    rw [World.runCommand_bind_ok w (World.runCommand_now w)]
    by_cases hactive : r.status w.clock = .active
    · simp [Record.isActive, hactive]
    · simp only [Record.isActive, hactive, decide_false, if_false]
      rfl

/-- The bearer is let in just if the session of some record that holds it is active. -/
def Decides (bearer : String) (w : World) : Prop :=
  (∃ user, (w.runCommand (ofStore bearer)).1 = .ok user) ↔
    ∃ r ∈ w.table.records, r.Vouches bearer w.clock

theorem unauthenticated_ofStore (hne : bearer ≠ "") (hfind : .find ∉ w.store.refused)
    (h : ∀ user, (w.runCommand (ofStore bearer)).1 ≠ .ok user) :
    ∃ reason, (w.runCommand (ofStore bearer)).1 = .error (.unauthenticated reason) := by
  rw [runCommand_ofStore hne hfind] at h ⊢
  cases hfound : w.table.records.find? (·.accessToken.agrees bearer) with
  | none => exact ⟨_, rfl⟩
  | some r =>
    simp only [hfound] at h ⊢
    split
    · rename_i hactive
      rw [if_pos hactive] at h
      exact absurd rfl (h r.owner)
    · exact ⟨_, rfl⟩

theorem vouches_of_ofStore {user : UserId} (h : (w.runCommand (ofStore bearer)).1 = .ok user) :
    ∃ r ∈ w.table.records, r.Vouches bearer w.clock ∧ r.owner = user := by
  obtain ⟨-, r, hmem, htoken, hactive, howner⟩ := ofStore_ok h
  exact ⟨r, hmem, ⟨htoken, hactive⟩, howner⟩

theorem decides_of_forall (hne : bearer ≠ "") (hfind : .find ∉ w.store.refused)
    (hall : ∀ r ∈ w.table.records, r.accessToken.text = bearer → r.status w.clock = .active) :
    ∀ r ∈ w.table.records, r.Vouches bearer w.clock →
      ∃ user, (w.runCommand (ofStore bearer)).1 = .ok user := by
  intro r hr hvouches
  have hsome : (w.table.records.find? (·.accessToken.agrees bearer)).isSome = true := by
    rw [List.find?_isSome]
    exact ⟨r, hr, Secret.agrees_iff.mpr hvouches.1⟩
  obtain ⟨found, hfound⟩ := Option.isSome_iff_exists.mp hsome
  have htoken := List.find?_some (p := fun r : Record => r.accessToken.agrees bearer) hfound
  have hactive := hall found (List.mem_of_find?_eq_some hfound) (Secret.agrees_iff.mp htoken)
  rw [runCommand_ofStore hne hfind]
  simp only [hfound, hactive, if_true]
  exact ⟨_, rfl⟩

/-- Only the owner of an active session that holds the bearer is let in. Whether the search comes
on such a session, whatever order the records are walked in, depends on there being no record with
the same token whose session is not active. -/
theorem decides_in_every_order_iff (hne : bearer ≠ "") (hfind : .find ∉ w.store.refused) :
    (∀ user, (w.runCommand (ofStore bearer)).1 = .ok user →
      ∃ r ∈ w.table.records, r.Vouches bearer w.clock ∧ r.owner = user) ∧
    ((∀ user, (w.runCommand (ofStore bearer)).1 ≠ .ok user) →
      ∃ reason, (w.runCommand (ofStore bearer)).1 = .error (.unauthenticated reason)) ∧
    ((∀ w' : World, w'.table.SameRecords w.table → w'.clock = w.clock →
        .find ∉ w'.store.refused → Decides bearer w') ↔
      ((∃ r ∈ w.table.records, r.Vouches bearer w.clock) →
        ∀ r ∈ w.table.records, r.accessToken.text = bearer → r.status w.clock = .active)) := by
  refine ⟨fun user h => vouches_of_ofStore h, unauthenticated_ofStore hne hfind, ?_, ?_⟩
  · rintro hdecides ⟨r, hr, hvouches⟩ other hother htoken
    -- the order in which the other record comes first
    obtain ⟨u, hsame, rest, hrecords⟩ := Store.Table.exists_sameRecords_cons hother
    let w' : World := { w with store := .ofBackend (.memory u) w.store.disk }
    have hrecords' : w'.table.records = other :: rest := hrecords
    have hr' : r ∈ w'.table.records := hsame.records.mem_iff.mpr hr
    obtain ⟨user, huser⟩ := (hdecides w' hsame rfl List.not_mem_nil).mpr ⟨r, hr', hvouches⟩
    have hfirst : (other :: rest).find? (·.accessToken.agrees bearer) = some other :=
      List.find?_cons_of_pos (p := fun x : Record => x.accessToken.agrees bearer)
        (Secret.agrees_iff.mpr htoken)
    rw [runCommand_ofStore hne List.not_mem_nil, hrecords', hfirst] at huser
    dsimp only at huser
    split at huser
    · rename_i hactive
      exact hactive
    · cases huser
  · intro hall w' hsame hclock hfind'
    constructor
    · rintro ⟨user, huser⟩
      obtain ⟨r, hr, hvouches, -⟩ := vouches_of_ofStore huser
      exact ⟨r, hr, hvouches⟩
    · rintro ⟨r, hr, hvouches⟩
      have hmem (x : Record) : x ∈ w'.table.records ↔ x ∈ w.table.records := hsame.records.mem_iff
      rw [hclock] at hvouches
      have hall' := hall ⟨r, (hmem r).mp hr, hvouches⟩
      refine decides_of_forall hne hfind' (fun x hx htoken => ?_) r hr (hclock ▸ hvouches)
      rw [hclock]
      exact hall' x ((hmem x).mp hx) htoken

def sampleActive : Record := { Record.sample with signedOutAt := none }

def sampleTwin : Record :=
  ⟨⟨"e", by decide⟩, ⟨"v", by decide⟩, Record.sample.provider, Record.sample.accessToken, none,
    ⟨0, 0⟩, none, none⟩

def sampleStore (records : List Record) : World :=
  ⟨.ofBackend (.memory (.ofRecords records)) .empty, .empty, ⟨0, 0⟩, fun _ => .unreachable, ""⟩

/-- Two users whose active sessions share an access token are let in, whichever is found. -/
theorem decides_in_every_order_shared :
    sampleActive.owner ≠ sampleTwin.owner ∧ sampleActive.accessToken = sampleTwin.accessToken ∧
      ∀ w : World, w.table.SameRecords (sampleStore [sampleActive, sampleTwin]).table →
        w.clock = ⟨0, 0⟩ → .find ∉ w.store.refused → Decides "t" w := by
  refine ⟨by decide, rfl, ?_⟩
  refine (decides_in_every_order_iff (by decide) List.not_mem_nil).2.2.mpr fun _ => ?_
  decide +kernel

/-- A session that has ended and is found first hides an active one with the same token. -/
theorem not_decides_hidden :
    ∃ (w : World) (r : Record), w.table.WellFormed ∧ .find ∉ w.store.refused ∧
      r ∈ w.table.records ∧ r.Vouches "t" w.clock ∧
      (w.runCommand (ofStore "t")).1 =
        .error (.unauthenticated "bearer token is no longer active") := by
  refine ⟨sampleStore [Record.sample, sampleTwin], sampleTwin, Store.Table.wellFormed_ofRecords _,
    List.not_mem_nil, ?_, ⟨rfl, rfl⟩, ?_⟩
  · decide +kernel
  · rw [runCommand_ofStore (by decide) List.not_mem_nil]
    rfl

end Service.Verifier

end DeviceAuth
