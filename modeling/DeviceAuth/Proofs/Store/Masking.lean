import DeviceAuth.Proofs.Contention
import DeviceAuth.Proofs.Store.Commuting

/-! Stores that differ in tokens. What such stores answer differs in tokens too, unless it is asked
whether a token is the one that is stored; and whatever goes wrong goes wrong in both. -/
namespace DeviceAuth

namespace Record

def masked (r : Record) : Record := { r with accessToken := .empty, refreshToken := none }

theorem eq_of_masked {α : Type} (f : Record → α) (hf : ∀ r, f r.masked = f r) {r r' : Record}
    (h : r.masked = r'.masked) : f r = f r' := by
  rw [← hf r, h, hf r']

end Record

namespace Store

/-- The stores hold records of the same devices, which differ in their tokens at most, and have the
same operations out of order. Snapshots are in one place, and all disks have in common with the tree
that it is in. -/
structure SameButTokens (s s' : Store) : Prop where
  records : ∀ device,
    (s.table.get? device).map Record.masked = (s'.table.get? device).map Record.masked
  place : s.backend.path? = s'.backend.path?
  disk : s.disk.SameTree s'.disk
  refused : s.refused = s'.refused

namespace SameButTokens

variable {s s' : Store} {device : DeviceId}

theorem write (h : s.SameButTokens s') (t t' : Table) : (s.write t).1 = (s'.write t').1 := by
  obtain ⟨-, hplace, hdisk, -⟩ := h
  obtain ⟨backend, disk, refused⟩ := s
  obtain ⟨backend', disk', refused'⟩ := s'
  cases backend with
  | memory u =>
    cases backend' with
    | memory u' => rfl
    | file f' => cases hplace
  | file f =>
    cases backend' with
    | memory u' => cases hplace
    | file f' =>
      have hpath : f.path = f'.path := Option.some.inj hplace
      simp only [Store.write, hpath]
      exact FileStore.persist_alike hdisk f'.path t t'

theorem apply (h : s.SameButTokens s') (op op' : Operation) {R : op.Result → op'.Result → Prop}
    (hkind : op.kind = op'.kind)
    (hwrites : (s.table.apply op).2.isSome = (s'.table.apply op').2.isSome)
    (hresult : R (s.table.apply op).1 (s'.table.apply op').1) :
    Except.Agree R (s.apply op).1 (s'.apply op').1 := by
  by_cases hrefused : op.kind ∈ s.refused
  · rw [apply_of_refused hrefused, apply_of_refused (hkind ▸ h.refused ▸ hrefused), hkind]
    exact .error _
  rw [apply_of_not_refused hrefused, apply_of_not_refused (hkind ▸ h.refused ▸ hrefused)]
  cases ht : (s.table.apply op).2 with
  | none =>
    cases ht' : (s'.table.apply op').2 with
    | none => exact .ok hresult
    | some t' =>
      rw [ht, ht'] at hwrites
      cases hwrites
  | some t =>
    cases ht' : (s'.table.apply op').2 with
    | none =>
      rw [ht, ht'] at hwrites
      cases hwrites
    | some t' =>
      simp only [h.write t t']
      cases (s'.write t').1 with
      | error e => exact .error e
      | ok _ => exact .ok hresult

theorem get?_cases (h : s.SameButTokens s') (device : DeviceId) :
    (s.table.get? device = none ∧ s'.table.get? device = none) ∨
      ∃ r r', s.table.get? device = some r ∧ s'.table.get? device = some r' ∧
        r.masked = r'.masked := by
  have hmasked := h.records device
  cases hr : s.table.get? device with
  | none =>
    rw [hr] at hmasked
    exact .inl ⟨rfl, Option.map_eq_none_iff.mp hmasked.symm⟩
  | some r =>
    rw [hr] at hmasked
    obtain ⟨r', hr', hsame⟩ := Option.map_eq_some_iff.mp hmasked.symm
    exact .inr ⟨r, r', rfl, hr', hsame.symm⟩

theorem signOut (h : s.SameButTokens s') (device : DeviceId) (now : Instant) :
    Except.Agree (fun _ _ => True) (s.apply (.signOut device now)).1
      (s'.apply (.signOut device now)).1 := by
  refine h.apply _ _ rfl ?_ trivial
  obtain ⟨hnone, hnone'⟩ | ⟨r, r', hr, hr', -⟩ := h.get?_cases device
  · simp only [Table.apply, hnone, hnone']
  · simp only [Table.apply, hr, hr', Option.isSome_some]

theorem remove (h : s.SameButTokens s') (device : DeviceId) :
    Except.Agree (fun _ _ => True) (s.apply (.remove device)).1 (s'.apply (.remove device)).1 := by
  refine h.apply _ _ rfl ?_ trivial
  obtain ⟨hnone, hnone'⟩ | ⟨r, r', hr, hr', -⟩ := h.get?_cases device
  · simp only [Table.apply, hnone, hnone']
  · simp only [Table.apply, hr, hr', Option.isSome_some]

end SameButTokens

/-- A token is presented to either of two stores, for the record of a device: if both hold a record,
both records have the token or neither has. -/
def BothHold (credential : Record → Option Secret) (device : DeviceId) (token token' : Secret)
    (s s' : Store) : Prop :=
  ∀ r r', s.table.get? device = some r → s'.table.get? device = some r' →
    (credential r = some token ↔ credential r' = some token')

namespace SameButTokens

variable {s s' : Store} {device : DeviceId} {token token' : Secret}

theorem fetch (h : s.SameButTokens s') {credential : Record → Option Secret}
    (hholds : BothHold credential device token token' s s') :
    Except.Agree (Option.Rel fun r r' => r.masked = r'.masked ∧
        (credential r = some token ↔ credential r' = some token'))
      (s.apply (.fetch device)).1 (s'.apply (.fetch device)).1 := by
  refine h.apply (.fetch device) (.fetch device) rfl rfl ?_
  obtain ⟨hnone, hnone'⟩ | ⟨r, r', hr, hr', hmasked⟩ := h.get?_cases device
  · simp only [Table.apply, hnone, hnone']
    exact .none
  · simp only [Table.apply, hr, hr']
    exact .some ⟨hmasked, hholds r r' hr hr'⟩

theorem swap (h : s.SameButTokens s')
    (hholds : BothHold Record.refreshToken device token token' s s')
    (replacement replacement' : Record) :
    Except.Agree Eq (s.apply (.swap device (some token.text) replacement)).1
      (s'.apply (.swap device (some token'.text) replacement')).1 := by
  have houtcome : s.table.swapOutcome device (some token.text) =
      s'.table.swapOutcome device (some token'.text) := by
    unfold Table.swapOutcome
    obtain ⟨hnone, hnone'⟩ | ⟨r, r', hr, hr', -⟩ := h.get?_cases device
    · rw [hnone, hnone']
    · have hagrees : Table.refreshAgrees r.refreshToken (some token.text) =
          Table.refreshAgrees r'.refreshToken (some token'.text) := by
        rw [Bool.eq_iff_iff, Table.refreshAgrees_iff, Table.refreshAgrees_iff]
        exact hholds r r' hr hr'
      simp only [hr, hr', hagrees]
  refine h.apply (.swap device _ replacement) (.swap device _ replacement') rfl ?_ houtcome
  simp only [Table.apply, houtcome]
  split <;> rfl

end SameButTokens

end Store

end DeviceAuth
