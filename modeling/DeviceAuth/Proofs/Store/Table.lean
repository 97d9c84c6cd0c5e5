import DeviceAuth.Proofs.Secret
import DeviceAuth.Store.Table
import Mathlib.Data.List.Nodup

/-! Tables as maps. A well-formed table holds each record once, under the device that the record
names; every operation keeps it so and changes at most the record of the device it names. -/
namespace DeviceAuth.Store

/-- The device whose record an operation may change. -/
def Operation.target? : Operation → Option DeviceId
  | .save record => some record.device
  | .swap device _ _ => some device
  | .signOut device _ => some device
  | .remove device => some device
  | .fetch _ | .find _ | .list _ => none

/-- A record that takes the place of another has to name its device. -/
def Operation.IsKeyed : Operation → Prop
  | .swap device _ replacement => replacement.device = device
  | _ => True

/-- The operation is to put a record under a device. -/
def Operation.Puts (device : DeviceId) (record : Record) : Operation → Prop
  | .save r => r.device = device ∧ r = record
  | .swap d _ r => d = device ∧ r = record
  | _ => False

namespace Table

structure WellFormed (t : Table) : Prop where
  nodup : (t.entries.map (·.1)).Nodup
  keyed : ∀ e ∈ t.entries, e.2.device = e.1

def next (t : Table) (op : Operation) : Table := (t.apply op).2.getD t

theorem refreshAgrees_iff_map {current : Option Secret} {expected : Option String} :
    refreshAgrees current expected = true ↔ current.map (·.text) = expected := by
  cases current <;> cases expected <;> simp [refreshAgrees]

theorem wellFormed_empty : empty.WellFormed := ⟨List.nodup_nil, by simp [empty]⟩

theorem mem_insertEntry {device : DeviceId} {record : Record} {e : DeviceId × Record}
    {entries : List (DeviceId × Record)} (h : e ∈ insertEntry device record entries) :
    e = (device, record) ∨ e ∈ entries := by
  induction entries with
  | nil => simpa [insertEntry] using h
  | cons x rest ih =>
    obtain ⟨d, r⟩ := x
    simp only [insertEntry] at h
    split at h
    · rcases List.mem_cons.mp h with h | h
      · exact .inl h
      · exact .inr (List.mem_cons_of_mem _ h)
    · rcases List.mem_cons.mp h with h | h
      · exact .inr (h ▸ List.mem_cons_self)
      · exact (ih h).imp_right (List.mem_cons_of_mem _)

theorem keys_insertEntry (device : DeviceId) (record : Record)
    (entries : List (DeviceId × Record)) :
    (insertEntry device record entries).map (·.1) =
      if device ∈ entries.map (·.1) then entries.map (·.1)
      else entries.map (·.1) ++ [device] := by
  induction entries with
  | nil => simp [insertEntry]
  | cons x rest ih =>
    obtain ⟨d, r⟩ := x
    simp only [insertEntry]
    by_cases hd : d = device
    · simp [hd]
    · simp only [hd, if_false, List.map_cons, ih, List.mem_cons, Ne.symm hd, false_or]
      split <;> simp

theorem nodup_keys_insert {t : Table} (h : (t.entries.map (·.1)).Nodup) (device : DeviceId)
    (record : Record) : ((t.insert device record).entries.map (·.1)).Nodup := by
  simp only [Table.insert, keys_insertEntry]
  split
  · exact h
  · rename_i hnew
    exact List.nodup_append.mpr ⟨h, List.nodup_singleton _, by
      intro a ha b hb hab
      rw [List.mem_singleton] at hb
      exact hnew (hb ▸ hab ▸ ha)⟩

theorem nodup_keys_erase {t : Table} (h : (t.entries.map (·.1)).Nodup) (device : DeviceId) :
    ((t.erase device).entries.map (·.1)).Nodup :=
  h.sublist (List.filter_sublist.map _)

theorem WellFormed.insert {t : Table} (h : t.WellFormed) {device : DeviceId} {record : Record}
    (hr : record.device = device) : (t.insert device record).WellFormed where
  nodup := nodup_keys_insert h.nodup device record
  keyed := by
    intro e he
    rcases mem_insertEntry he with rfl | he
    · exact hr
    · exact h.keyed e he

theorem WellFormed.erase {t : Table} (h : t.WellFormed) (device : DeviceId) :
    (t.erase device).WellFormed where
  nodup := nodup_keys_erase h.nodup device
  keyed := fun e he => h.keyed e (List.mem_filter.mp he).1

theorem mem_of_get? {t : Table} {device : DeviceId} {record : Record}
    (h : t.get? device = some record) : (device, record) ∈ t.entries := by
  obtain ⟨⟨d, r⟩, hf, rfl⟩ := Option.map_eq_some_iff.mp h
  have hd : d = device := by simpa using List.find?_some hf
  exact hd ▸ List.mem_of_find?_eq_some hf

theorem get?_of_mem {t : Table} (h : (t.entries.map (·.1)).Nodup) {device : DeviceId}
    {record : Record} (hm : (device, record) ∈ t.entries) : t.get? device = some record := by
  have hunique : ∀ e ∈ t.entries, e.1 = device → e = (device, record) := by
    intro e he hd
    exact List.inj_on_of_nodup_map h he hm hd
  cases hf : t.entries.find? (·.1 = device) with
  | none =>
    have hne := List.find?_eq_none.mp hf (device, record) hm
    simp at hne
  | some e =>
    have he := hunique e (List.mem_of_find?_eq_some hf) (by simpa using List.find?_some hf)
    simp [get?, hf, he]

theorem WellFormed.get?_eq_some_iff {t : Table} (h : t.WellFormed) {device : DeviceId}
    {record : Record} : t.get? device = some record ↔ (device, record) ∈ t.entries :=
  ⟨mem_of_get?, get?_of_mem h.nodup⟩

theorem WellFormed.device_of_get? {t : Table} (h : t.WellFormed) {device : DeviceId}
    {record : Record} (hg : t.get? device = some record) : record.device = device :=
  h.keyed _ (mem_of_get? hg)

theorem WellFormed.get?_of_mem_records {t : Table} (h : t.WellFormed) {record : Record}
    (hm : record ∈ t.records) : t.get? record.device = some record := by
  obtain ⟨⟨d, r⟩, he, rfl⟩ := List.mem_map.mp hm
  have hd : r.device = d := h.keyed _ he
  exact h.get?_eq_some_iff.mpr (hd ▸ he)

theorem mem_records_of_get? {t : Table} {device : DeviceId} {record : Record}
    (h : t.get? device = some record) : record ∈ t.records :=
  List.mem_map.mpr ⟨_, mem_of_get? h, rfl⟩

theorem WellFormed.next {t : Table} (h : t.WellFormed) {op : Operation} (ho : op.IsKeyed) :
    (t.next op).WellFormed := by
  cases op with
  | save record => exact h.insert rfl
  | fetch _ | find _ | list _ => exact h
  | swap device expected replacement =>
    simp only [Table.next, apply]
    split
    · exact h.insert ho
    · exact h
  | signOut device now =>
    simp only [Table.next, apply]
    split
    · exact h
    · rename_i r hg
      have hd : r.device = device := h.device_of_get? hg
      exact h.insert (show (r.signOut now).device = device from hd)
  | remove device =>
    simp only [Table.next, apply]
    split
    · exact h
    · exact h.erase device

theorem wellFormed_ofRecords (records : List Record) : (ofRecords records).WellFormed := by
  have hfold : ∀ t : Table, t.WellFormed →
      (records.foldl (fun t r => t.insert r.device r) t).WellFormed := by
    induction records with
    | nil => exact fun _ h => h
    | cons r rest ih => exact fun t h => ih (t.insert r.device r) (h.insert rfl)
  exact hfold empty wellFormed_empty

theorem get?_next_of_ne {t : Table} {op : Operation} {device : DeviceId}
    (h : op.target? ≠ some device) : (t.next op).get? device = t.get? device := by
  cases op with
  | fetch _ | find _ | list _ => rfl
  | save record =>
    have hd : record.device ≠ device := by simpa [Operation.target?] using h
    simp [next, apply, get?_insert, hd]
  | swap d expected replacement =>
    have hd : d ≠ device := by simpa [Operation.target?] using h
    simp only [next, apply]
    split <;> simp [get?_insert, hd]
  | signOut d now =>
    have hd : d ≠ device := by simpa [Operation.target?] using h
    simp only [next, apply]
    split <;> simp [get?_insert, hd]
  | remove d =>
    have hd : d ≠ device := by simpa [Operation.target?] using h
    simp only [next, apply]
    split <;> simp [get?_erase, hd]

theorem get?_next_save (t : Table) (r : Record) :
    (t.next (.save r)).get? r.device = some r := by
  simp [next, apply, get?_insert]

theorem get?_next_swap {t : Table} {device : DeviceId} {expected : Option String} (r : Record)
    (h : t.swapOutcome device expected = .updated) :
    (t.next (.swap device expected r)).get? device = some r := by
  simp [next, apply, h, get?_insert]

theorem get?_next_signOut (t : Table) (device d : DeviceId) (now : Instant) :
    (t.next (.signOut device now)).get? d =
      if d = device then (t.get? device).map (·.signOut now) else t.get? d := by
  split
  · rename_i hd
    subst hd
    cases hr : t.get? d <;> simp [next, apply, hr, get?_insert]
  · rename_i hd
    exact get?_next_of_ne fun h => hd (Option.some.inj h).symm

/-- All that an operation can do to the record of a device. -/
theorem get?_next_cases (t : Table) (op : Operation) (device : DeviceId) :
    (t.next op).get? device = t.get? device ∨
      (∃ r, op.Puts device r ∧ (t.next op).get? device = some r) ∨
      (∃ r now, t.get? device = some r ∧ (t.next op).get? device = some (r.signOut now)) ∨
      (op = .remove device ∧ (∃ r, t.get? device = some r) ∧ (t.next op).get? device = none) := by
  by_cases htarget : op.target? = some device
  · cases op with
    | fetch _ | find _ | list _ => cases htarget
    | save r =>
      obtain rfl : r.device = device := Option.some.inj htarget
      exact .inr (.inl ⟨r, ⟨rfl, rfl⟩, by simp [next, apply, get?_insert]⟩)
    | swap d expected r =>
      obtain rfl : d = device := Option.some.inj htarget
      by_cases hupdated : t.swapOutcome d expected = .updated
      · exact .inr (.inl ⟨r, ⟨rfl, rfl⟩, by simp [next, apply, hupdated, get?_insert]⟩)
      · exact .inl (by simp [next, apply, hupdated])
    | signOut d now =>
      obtain rfl : d = device := Option.some.inj htarget
      cases hr : t.get? d with
      | none => exact .inl (by simp [next, apply, hr])
      | some r =>
        exact .inr (.inr (.inl ⟨r, now, rfl, by simp [next, apply, hr, get?_insert]⟩))
    | remove d =>
      obtain rfl : d = device := Option.some.inj htarget
      cases hr : t.get? d with
      | none => exact .inl (by simp [next, apply, hr])
      | some r => exact .inr (.inr (.inr ⟨rfl, ⟨r, rfl⟩, by simp [next, apply, hr, get?_erase]⟩))
  · exact .inl (get?_next_of_ne htarget)

end Table

end DeviceAuth.Store
