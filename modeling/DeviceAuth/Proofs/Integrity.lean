import DeviceAuth.Proofs.Service.Registration
import DeviceAuth.Proofs.Service.Renewal
import DeviceAuth.Proofs.Service.Session
import DeviceAuth.Proofs.Service.UserDevices
import DeviceAuth.Proofs.Store.Snapshot
import DeviceAuth.Service.Perform

/-! Integrity of the records over runs of commands. A task changes the record of a device only for
somebody who has shown what that task asks for, and a record never passes to another owner. -/
namespace DeviceAuth

theorem Store.wellFormed_of_ofUri [Url.Idna] {uri database : String} {disk : Disk} {s : Store}
    (h : ofUri uri database disk = .ok s) : s.table.WellFormed := by
  unfold ofUri at h
  split at h
  · cases h
  split at h
  · cases h
    exact Table.wellFormed_empty
  split at h
  · split at h
    · cases h
    split at h
    · cases h
    split at h
    · cases h
    · rename_i f disk' hopen
      cases h
      exact FileStore.wellFormed_of_load (FileStore.atPath_ok hopen).2.2
  · cases h

namespace Service

variable {s : Service}

theorem verifier_reads (hs : s.verifier = Verifier.ofStore) (bearer : String) :
    (s.verifier bearer).All Action.IsRead := by
  rw [hs]
  exact Verifier.ofStore_reads bearer

theorem perform_keyed (hs : ∀ bearer, (s.verifier bearer).All Action.IsRead) (bearer : String)
    (task : Task) (q : task.Request) : (s.perform bearer task q).All Action.IsKeyed := by
  have hread : ∀ a : Action, a.IsRead → a.IsKeyed := fun _ => Action.IsRead.isKeyed
  have hfree : ∀ a : Action, a.IsFree → a.IsKeyed := fun _ => Action.IsFree.isKeyed
  cases task with
  | signUp => exact signUp_keyed s q
  | signIn => exact (signIn_reads bearer q).mono hread
  | signOut => exact (signOut_free bearer q).mono hfree
  | signOff => exact (signOff_free bearer q).mono hfree
  | refresh => exact refresh_keyed s q
  | listDevices => exact (listDevices_reads q (hs bearer)).mono hread
  | deleteDevices =>
    have hverifier := (hs bearer).mono fun _ => Action.IsRead.isFree
    exact (deleteDevices_free q hverifier).mono hfree

/-- Worlds that tasks lead to, done one at a time. Anything but the records may change by itself. -/
inductive Reachable (s : Service) : World → Prop where
  | start {w : World} (h : w.table.WellFormed) : Reachable s w
  | perform {w : World} (h : Reachable s w) (bearer : String) (task : Task) (q : task.Request) :
    Reachable s (w.runCommand (s.perform bearer task q)).2
  | elsewhere {w w' : World} (h : Reachable s w) (ht : w'.table = w.table) : Reachable s w'

theorem Reachable.wellFormed (hs : s.verifier = Verifier.ofStore) {w : World}
    (h : s.Reachable w) : w.table.WellFormed := by
  induction h with
  | start h => exact h
  | perform h bearer task q ih =>
    exact World.wellFormed_run (perform_keyed (verifier_reads hs) bearer task q) ih
  | elsewhere h ht ih => exact ht ▸ ih

/-- What a task has to be given before it may change the record of a device from what it is in `w`
to what it is in `w'`. -/
def Entitles (s : Service) (bearer : String) (w w' : World) (d : DeviceId) :
    (task : Task) → task.Request → Prop
  | .signUp, q => q.device = d.text ∧ ∃ tokens owner,
      (w.runCommand (s.client.request (.authorizationCode q.code.text))).1 = .ok tokens ∧
      s.client.owner tokens = .ok owner ∧ (∀ r, w.record? d = some r → r.owner = owner) ∧
      ∃ r, w'.record? d = some r ∧ r.owner = owner
  | .signOut, q => q.device = d.text ∧ ∃ r, w.record? d = some r ∧ q.Authorizes bearer r
  | .signOff, q => q.device = d.text ∧ ∃ r, w.record? d = some r ∧ q.Authorizes bearer r
  | .refresh, q => q.device = d.text ∧ ∃ r, w.record? d = some r ∧ q.Authorizes r
  | .deleteDevices, _ => bearer ≠ "" ∧ ∃ r, w.record? d = some r ∧ ∃ holder ∈ w.table.records,
      holder.accessToken.text = bearer ∧ holder.status w.clock = .active ∧
      holder.owner = r.owner
  | .signIn, _ => False
  | .listDevices, _ => False

/-- A service may start on any store that opens. -/
theorem reachable_of_ofUri [Url.Idna] {uri database : String} {disk : Store.Disk} {store : Store}
    (h : Store.ofUri uri database disk = .ok store) (w : World) :
    s.Reachable { w with store := store } :=
  .start (Store.wellFormed_of_ofUri h)

theorem entitles_deleteDevices (hs : s.verifier = Verifier.ofStore) {bearer : String}
    {q : DeleteRequest} {w : World} {d : DeviceId}
    (h : (w.runCommand (s.deleteDevices bearer q)).2.record? d ≠ w.record? d) :
    s.Entitles bearer w (w.runCommand (s.deleteDevices bearer q)).2 d .deleteDevices q ∧
      (w.runCommand (s.deleteDevices bearer q)).2.record? d = none := by
  obtain ⟨user, hu, hgone, r, hr, howner⟩ :=
    keptOrRemoved_deleteDevices (verifier_reads hs bearer) h
  rw [hs] at hu
  obtain ⟨hne, holder, hmem, htoken, hactive, huser⟩ := Verifier.ofStore_ok hu
  exact ⟨⟨hne, r, hr, holder, hmem, htoken, hactive, huser.trans howner.symm⟩, hgone⟩

theorem owner_kept {before after : Option Record} {r : Record} (hr : before = some r)
    (hafter : ∀ r', after = some r' → r'.owner = r.owner) (task : Task) :
    (before = none → task = .signUp) ∧
      ∀ r₀ r', before = some r₀ → after = some r' → r'.owner = r₀.owner := by
  refine ⟨fun hnone => ?_, fun r₀ r' hr₀ hr' => ?_⟩
  · rw [hnone] at hr
    cases hr
  · have hsame : r₀ = r := Option.some.inj (hr₀.symm.trans hr)
    rw [hafter r' hr', hsame]

/-- The record of a device changes only for whoever is entitled to it, comes into being only by a
sign-up, and keeps its owner for as long as it is there. -/
theorem entitles_of_record?_perform (hs : s.verifier = Verifier.ofStore) {w : World}
    (hw : s.Reachable w) (bearer : String) (task : Task) (q : task.Request) {d : DeviceId}
    (h : (w.runCommand (s.perform bearer task q)).2.record? d ≠ w.record? d) :
    s.Entitles bearer w (w.runCommand (s.perform bearer task q)).2 d task q ∧
      (w.record? d = none → task = .signUp) ∧
      ∀ r r', w.record? d = some r →
        (w.runCommand (s.perform bearer task q)).2.record? d = some r' → r'.owner = r.owner := by
  have hwf : w.table.WellFormed := hw.wellFormed hs
  cases task with
  | signUp =>
    obtain ⟨hd, tokens, owner, ht, ho, hfree, hafter⟩ := record?_signUp h
    refine ⟨⟨hd, tokens, owner, ht, ho, hfree, hafter⟩, fun _ => rfl, ?_⟩
    intro r r' hr hr'
    obtain ⟨saved, hsaved, hsavedOwner⟩ := hafter
    have hsame : r' = saved := Option.some.inj (hr'.symm.trans hsaved)
    rw [hsame, hsavedOwner, hfree r hr]
  | signOut =>
    obtain ⟨hd, r, hr, hauthorizes, hafter⟩ := record?_signOut hwf h
    exact ⟨⟨hd, r, hr, hauthorizes⟩, owner_kept hr hafter .signOut⟩
  | signOff =>
    obtain ⟨hd, r, hr, hauthorizes, hafter⟩ := record?_signOff hwf h
    exact ⟨⟨hd, r, hr, hauthorizes⟩, owner_kept hr hafter .signOff⟩
  | refresh =>
    obtain ⟨hd, r, hr, hauthorizes, hafter⟩ := record?_refresh h
    exact ⟨⟨hd, r, hr, hauthorizes⟩, owner_kept hr hafter .refresh⟩
  | deleteDevices =>
    obtain ⟨hentitled, hgone⟩ := entitles_deleteDevices hs h
    obtain ⟨-, r, hr, -⟩ := id hentitled
    have hafter : ∀ r', (w.runCommand (s.deleteDevices bearer q)).2.record? d = some r' →
        r'.owner = r.owner := by
      intro r' hr'
      cases hgone.symm.trans hr'
    exact ⟨hentitled, owner_kept hr hafter .deleteDevices⟩
  | signIn =>
    have hsame := World.run_of_isRead (signIn_reads bearer q) w
    exact absurd (congrArg (World.record? · d) hsame) h
  | listDevices =>
    have hsame := World.run_of_isRead (listDevices_reads q (verifier_reads hs bearer)) w
    exact absurd (congrArg (World.record? · d) hsame) h

/-- A sign-off by the owner of a registered device, with its access token. -/
theorem entitles_signOff_of_owner :
    ∃ (s : Service) (w : World) (q : SessionRequest) (d : DeviceId),
      s.verifier = Verifier.ofStore ∧ s.Reachable w ∧
      (w.runCommand (s.perform "" .signOff q)).2.record? d ≠ w.record? d ∧
      s.Entitles "" w (w.runCommand (s.perform "" .signOff q)).2 d .signOff q := by
  let d : DeviceId := ⟨"d", by decide⟩
  let u : UserId := ⟨"u", by decide⟩
  let r : Record := ⟨d, u, ⟨"p", by decide⟩, ⟨"t"⟩, none, ⟨0, 0⟩, none, none⟩
  let s : Service := ⟨⟨.empty, ⟨"", "", "", none, none, .segments [], none, none⟩, .default⟩,
    ⟨"p", by decide⟩, Verifier.ofStore⟩
  let w : World := ⟨.ofBackend (.memory (.ofRecords [r])) .empty, .empty, ⟨0, 0⟩,
    fun _ => .unreachable, ""⟩
  let q : SessionRequest := ⟨"d", "u", ⟨"t"⟩⟩
  have hw : s.Reachable w := .start (Store.Table.wellFormed_ofRecords [r])
  have hbefore : w.record? d = some r := rfl
  have hafter : (w.runCommand (s.perform "" .signOff q)).2.record? d = none := by
    decide +kernel
  have hchanged : (w.runCommand (s.perform "" .signOff q)).2.record? d ≠ w.record? d := by
    rw [hafter, hbefore]
    simp
  exact ⟨s, w, q, d, rfl, hw, hchanged,
    (entitles_of_record?_perform rfl hw "" .signOff q hchanged).1⟩

end Service

end DeviceAuth
