import DeviceAuth.Proofs.Identifier
import DeviceAuth.Proofs.Store.Table

/-! Tables that hold the same records, in whatever order. They answer alike, except that a search
for an access token that several records carry may find any of them. -/
namespace DeviceAuth.Store

/-- Answers that stores with the same records may give to one operation. -/
def Operation.Agree : (op : Operation) → op.Result → op.Result → Prop
  | .find token, a, b => a.isSome = b.isSome ∧
      (∀ r, a = some r → r.accessToken.text = token) ∧ ∀ r, b = some r → r.accessToken.text = token
  | .save _, a, b => a = b
  | .fetch _, a, b => a = b
  | .list _, a, b => a = b
  | .swap _ _ _, a, b => a = b
  | .signOut _ _, a, b => a = b
  | .remove _, a, b => a = b

namespace Table

variable {t u : Table}

/-- The entries are the same, each as often. -/
def SameRecords (t u : Table) : Prop := t.entries.Perm u.entries

theorem SameRecords.records (h : t.SameRecords u) : t.records.Perm u.records := h.map _

theorem SameRecords.wellFormed (h : t.SameRecords u) (ht : t.WellFormed) : u.WellFormed where
  nodup := (h.map _).nodup ht.nodup
  keyed := fun e he => ht.keyed e (h.mem_iff.mpr he)

theorem WellFormed.nodup_entries (h : t.WellFormed) : t.entries.Nodup :=
  List.Nodup.of_map _ h.nodup

theorem sameRecords_iff (ht : t.WellFormed) (hu : u.WellFormed) :
    t.SameRecords u ↔ ∀ d, t.get? d = u.get? d := by
  rw [SameRecords, List.perm_ext_iff_of_nodup ht.nodup_entries hu.nodup_entries]
  constructor
  · intro h d
    refine Option.ext fun r => ?_
    rw [ht.get?_eq_some_iff, hu.get?_eq_some_iff, h (d, r)]
  · rintro h ⟨d, r⟩
    rw [← ht.get?_eq_some_iff, ← hu.get?_eq_some_iff, h d]

theorem get?_next_congr (h : ∀ d, t.get? d = u.get? d) (op : Operation) (d : DeviceId) :
    (t.next op).get? d = (u.next op).get? d := by
  cases op with
  | fetch _ | find _ | list _ => exact h d
  | save record => simp only [next, apply, Option.getD_some, get?_insert, h]
  | swap device expected replacement =>
    have houtcome : t.swapOutcome device expected = u.swapOutcome device expected := by
      rw [swapOutcome, swapOutcome, h device]
    simp only [next, apply, houtcome]
    split <;> simp only [Option.getD_some, Option.getD_none, get?_insert, h]
  | signOut device now =>
    simp only [next, apply, h device]
    split <;> simp only [Option.getD_some, Option.getD_none, get?_insert, h]
  | remove device =>
    simp only [next, apply, h device]
    split <;> simp only [Option.getD_some, Option.getD_none, get?_erase, h]

theorem SameRecords.next (h : t.SameRecords u) (ht : t.WellFormed) {op : Operation}
    (ho : op.IsKeyed) : (t.next op).SameRecords (u.next op) := by
  have hu := h.wellFormed ht
  rw [sameRecords_iff (ht.next ho) (hu.next ho)]
  exact get?_next_congr ((sameRecords_iff ht hu).mp h) op

theorem pairwise_sortByDevice (records : List Record) :
    (sortByDevice records).Pairwise fun a b => a.device.le b.device = true := by
  have htrans (a b c : Record) (hab : a.device.le b.device = true)
      (hbc : b.device.le c.device = true) : a.device.le c.device = true :=
    Identifier.le_trans _ _ _ hab hbc
  have htotal (a b : Record) : (a.device.le b.device || b.device.le a.device) = true :=
    Identifier.le_total _ _
  exact List.pairwise_mergeSort htrans htotal records

theorem sortByDevice_congr {as bs : List Record} (h : as.Perm bs)
    (hunique : ∀ a ∈ as, ∀ b ∈ as, a.device = b.device → a = b) :
    sortByDevice as = sortByDevice bs := by
  have hperm : (sortByDevice as).Perm (sortByDevice bs) :=
    ((List.mergeSort_perm as _).trans h).trans (List.mergeSort_perm bs _).symm
  refine hperm.eq_of_pairwise ?_ (pairwise_sortByDevice as) (pairwise_sortByDevice bs)
  intro a b ha hb hab hba
  have ha' : a ∈ as := List.mem_mergeSort.mp ha
  have hb' : b ∈ as := h.mem_iff.mpr (List.mem_mergeSort.mp hb)
  exact hunique a ha' b hb' (Identifier.eq_of_le_of_le hab hba)

theorem WellFormed.eq_of_device_eq (h : t.WellFormed) {a b : Record} (ha : a ∈ t.records)
    (hb : b ∈ t.records) (hd : a.device = b.device) : a = b := by
  have hfound := h.get?_of_mem_records ha
  rw [hd, h.get?_of_mem_records hb] at hfound
  exact (Option.some.inj hfound).symm

theorem SameRecords.agree (h : t.SameRecords u) (ht : t.WellFormed) (op : Operation) :
    op.Agree (t.apply op).1 (u.apply op).1 := by
  have hget := (sameRecords_iff ht (h.wellFormed ht)).mp h
  cases op with
  | save record => rfl
  | fetch device => exact hget device
  | find token =>
    have hcarries : ∀ v : Table, ∀ r, v.records.find? (·.accessToken.agrees token) = some r →
        r.accessToken.text = token := by
      intro v r hr
      have hagrees := List.find?_some (p := fun r : Record => r.accessToken.agrees token) hr
      exact Secret.agrees_iff.mp hagrees
    refine ⟨?_, hcarries t, hcarries u⟩
    simp only [apply]
    rw [Bool.eq_iff_iff, List.find?_isSome, List.find?_isSome]
    simp only [h.records.mem_iff]
  | list owner =>
    refine sortByDevice_congr (h.records.filter _) ?_
    intro a ha b hb
    exact ht.eq_of_device_eq (List.mem_filter.mp ha).1 (List.mem_filter.mp hb).1
  | swap device expected replacement =>
    show t.swapOutcome device expected = u.swapOutcome device expected
    rw [swapOutcome, swapOutcome, hget device]
  | signOut device now =>
    simp only [Operation.Agree, apply, hget device]
    cases u.get? device <;> rfl
  | remove device =>
    simp only [Operation.Agree, apply, hget device]
    cases u.get? device <;> rfl

end Table

end DeviceAuth.Store
