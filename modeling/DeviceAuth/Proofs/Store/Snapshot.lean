import DeviceAuth.Proofs.Record
import DeviceAuth.Proofs.Store.Disk
import DeviceAuth.Proofs.Store.SameRecords
import DeviceAuth.Store.Snapshot

/-! A snapshot that was written is the file at its path, and holds the records that were written,
neither more nor fewer and none of them changed. -/
namespace DeviceAuth.Store

namespace Table

def IsRepresentable (t : Table) : Prop := ∀ r ∈ t.records, r.IsRepresentable

theorem insertEntry_of_not_mem {device : DeviceId} {entries : List (DeviceId × Record)}
    (h : device ∉ entries.map (·.1)) (record : Record) :
    insertEntry device record entries = entries ++ [(device, record)] := by
  induction entries with
  | nil => rfl
  | cons e rest ih =>
    obtain ⟨d, r⟩ := e
    rw [List.map_cons, List.mem_cons, not_or] at h
    rw [insertEntry, if_neg (Ne.symm h.1), ih h.2, List.cons_append]

theorem mem_records_insert {t : Table} {device : DeviceId} {record r : Record}
    (h : r ∈ (t.insert device record).records) : r = record ∨ r ∈ t.records := by
  obtain ⟨e, he, rfl⟩ := List.mem_map.mp h
  rcases mem_insertEntry he with rfl | he
  · exact .inl rfl
  · exact .inr (List.mem_map.mpr ⟨e, he, rfl⟩)

theorem mem_records_ofRecords {records : List Record} {r : Record}
    (h : r ∈ (ofRecords records).records) : r ∈ records := by
  have hfold : ∀ t : Table, r ∈ (records.foldl (fun t r => t.insert r.device r) t).records →
      r ∈ t.records ∨ r ∈ records := by
    clear h
    induction records with
    | nil => exact fun t h => .inl h
    | cons x rest ih =>
      intro t h
      rcases ih _ h with h | h
      · rcases mem_records_insert h with rfl | h
        · exact .inr List.mem_cons_self
        · exact .inl h
      · exact .inr (List.mem_cons_of_mem x h)
  rcases hfold empty h with h | h
  · cases h
  · exact h

theorem entries_ofRecords {records : List Record} (h : (records.map (·.device)).Nodup) :
    (ofRecords records).entries = records.map fun r => (r.device, r) := by
  have hfold : ∀ t : Table, (∀ r ∈ records, r.device ∉ t.entries.map (·.1)) →
      (records.foldl (fun t r => t.insert r.device r) t).entries =
        t.entries ++ records.map fun r => (r.device, r) := by
    induction records with
    | nil => simp
    | cons r rest ih =>
      intro t ht
      obtain ⟨hr, hrest⟩ := List.forall_mem_cons.mp ht
      rw [List.map_cons, List.nodup_cons] at h
      have hinsert : (t.insert r.device r).entries = t.entries ++ [(r.device, r)] :=
        insertEntry_of_not_mem hr r
      rw [List.foldl_cons, ih h.2, hinsert, List.map_cons, List.append_assoc,
        List.singleton_append]
      intro r' hr'
      rw [hinsert, List.map_append, List.mem_append, not_or]
      refine ⟨hrest r' hr', ?_⟩
      rw [List.map_singleton, List.mem_singleton]
      intro hd
      exact h.1 (List.mem_map.mpr ⟨r', hr', hd⟩)
  exact (hfold empty (by simp [empty])).trans (List.nil_append _)

theorem WellFormed.entries_eq {t : Table} (h : t.WellFormed) :
    t.records.map (fun r => (r.device, r)) = t.entries := by
  rw [records, List.map_map]
  conv_rhs => rw [← List.map_id t.entries]
  refine List.map_congr_left fun e he => ?_
  exact Prod.ext (h.keyed e he) rfl

theorem WellFormed.nodup_devices {t : Table} (h : t.WellFormed) :
    (t.records.map (·.device)).Nodup := by
  have hkeys : t.records.map (·.device) = t.entries.map (·.1) := by
    rw [records, List.map_map]
    exact List.map_congr_left h.keyed
  exact hkeys ▸ h.nodup

theorem WellFormed.sameRecords_ofRecords {t : Table} (h : t.WellFormed) :
    (ofRecords (sortByDevice t.records)).SameRecords t := by
  have hperm : (sortByDevice t.records).Perm t.records := List.mergeSort_perm _ _
  have hnodup := (hperm.map (·.device)).symm.nodup h.nodup_devices
  rw [SameRecords, entries_ofRecords hnodup]
  exact (hperm.map _).trans (h.entries_eq ▸ .refl _)

end Table

namespace FileStore

theorem isExact_snapshot {t : Table} (h : t.IsRepresentable) :
    (Json.array ((Table.sortByDevice t.records).map Record.toJson)).IsExact := by
  refine .array fun v hv => ?_
  obtain ⟨r, hr, rfl⟩ := List.mem_map.mp hv
  exact Record.isExact_toJson (h r (List.mem_mergeSort.mp hr))

theorem decode_snapshotText {t : Table} (h : t.IsRepresentable) :
    Json.decode (Json.Decoder.list Record.decoder) (Text.utf8 (snapshotText t)) =
      .ok (Table.sortByDevice t.records) := by
  rw [snapshotText, Json.decode_spread _ (isExact_snapshot h)]
  refine Json.Decoder.list_reading fun r hr => ?_
  exact Record.decoder_reading (h r (List.mem_mergeSort.mp hr)) _

theorem two_le_length_snapshot (t : Table) : 2 ≤ (Text.utf8 (snapshotText t)).length := by
  have hbracket :
      (String.utf8EncodeChar '[').length = 1 ∧ (String.utf8EncodeChar ']').length = 1 := by
    decide
  rw [snapshotText, Json.spread, Text.utf8_ofList]
  cases (Table.sortByDevice t.records).map Record.toJson with
  | nil => decide
  | cons v rest =>
    rw [Json.writeSpread]
    · simp only [Text.encoded_cons, Text.encoded_append, List.length_append, hbracket]
      omega
    · exact List.cons_ne_nil v rest

theorem utf8_snapshotText_ne_nil (t : Table) : Text.utf8 (snapshotText t) ≠ [] := by
  intro hnil
  have hlong := two_le_length_snapshot t
  rw [hnil] at hlong
  cases hlong

variable {path : String} {t : Table} {d d' : Disk}

theorem perform_cons_ok {action : Disk.Action} {complaint : String}
    {rest : List (Disk.Action × String)}
    (h : perform ((action, complaint) :: rest) d = (.ok (), d')) :
    ∃ d₁, d.act action = .ok d₁ ∧ perform rest d₁ = (.ok (), d') := by
  unfold perform at h
  split at h
  · rename_i d₁ hact
    exact ⟨d₁, hact, h⟩
  · cases h

theorem perform_append {first : List (Disk.Action × String)}
    (h : perform first d = (.ok (), d')) (rest : List (Disk.Action × String)) :
    perform (first ++ rest) d = perform rest d' := by
  induction first generalizing d with
  | nil =>
    cases h
    rfl
  | cons stage first ih =>
    obtain ⟨action, complaint⟩ := stage
    obtain ⟨d₁, hact, h⟩ := perform_cons_ok h
    rw [List.cons_append, perform, hact]
    exact ih h

theorem perform_append_ok {first rest : List (Disk.Action × String)}
    (h : perform (first ++ rest) d = (.ok (), d')) :
    ∃ d₁, perform first d = (.ok (), d₁) ∧ perform rest d₁ = (.ok (), d') := by
  induction first generalizing d with
  | nil => exact ⟨d, rfl, h⟩
  | cons stage first ih =>
    obtain ⟨action, complaint⟩ := stage
    obtain ⟨d₁, hact, h⟩ := perform_cons_ok h
    obtain ⟨d₂, hfirst, hrest⟩ := ih h
    refine ⟨d₂, ?_, hrest⟩
    rw [perform, hact]
    exact hfirst

theorem perform_keeps (stages : List (Disk.Action × String)) (d : Disk) :
    d.KeepsDirectories (perform stages d).2 := by
  induction stages generalizing d with
  | nil => exact .refl d
  | cons stage rest ih =>
    obtain ⟨action, complaint⟩ := stage
    unfold perform
    split
    · rename_i d₁ hact
      exact (Disk.act_keeps hact).trans (ih d₁)
    · exact .refl d

theorem perform_ok_keeps {stages : List (Disk.Action × String)}
    (h : perform stages d = (.ok (), d')) : d.KeepsDirectories d' := by
  have hkeeps := perform_keeps stages d
  rwa [h] at hkeeps

theorem directoryStage_again (h : perform (directoryStage path) d = (.ok (), d'))
    {d'' : Disk} (hkeeps : d'.KeepsDirectories d'') :
    perform (directoryStage path) d'' = (.ok (), d'') := by
  unfold directoryStage at h ⊢
  split
  · rfl
  · rename_i parent hparent
    rw [hparent] at h
    obtain ⟨d₁, hact, h⟩ := perform_cons_ok h
    cases h
    rw [perform, (Disk.act_makeDirectories_ok hact).2 d'' hkeeps]
    rfl

theorem directoryStage_of_parent (h : FilePath.parent? path = some "") (d : Disk) :
    perform (directoryStage path) d = (.ok (), d) := by
  rw [directoryStage, h]
  rfl

theorem persist_ok (h : persist path t d = (.ok (), d')) :
    d'.Holds path (Text.utf8 (snapshotText t)) ∧
      perform (directoryStage path) d' = (.ok (), d') := by
  obtain ⟨d₁, hdirectory, h⟩ := perform_append_ok h
  have hkeeps := perform_ok_keeps h
  obtain ⟨d₂, hcreate, h⟩ := perform_cons_ok h
  obtain ⟨d₃, happend, h⟩ := perform_cons_ok h
  obtain ⟨d₄, hsync, h⟩ := perform_cons_ok h
  obtain ⟨d₅, hrename, h⟩ := perform_cons_ok h
  cases h
  rw [Disk.sync_ok hsync] at hrename
  have hwritten := Disk.holds_of_write hcreate happend
  exact ⟨Disk.holds_of_rename hwritten hrename, directoryStage_again hdirectory hkeeps⟩

theorem load_of_holds (hd : d.Holds path (Text.utf8 (snapshotText t)))
    (ht : t.IsRepresentable) :
    load path d = .ok (.ofRecords (Table.sortByDevice t.records)) := by
  unfold load
  rw [hd.find?]
  split
  · rename_i hnone
    cases hnone
  · rename_i hempty
    exact absurd (DiskEntry.file.inj (Option.some.inj hempty)) (utf8_snapshotText_ne_nil t)
  · rw [hd.read]
    dsimp only
    rw [decode_snapshotText ht]

theorem wellFormed_of_load (h : load path d = .ok t) : t.WellFormed := by
  unfold load at h
  split at h
  · cases h
    exact Table.wellFormed_empty
  · cases h
    exact Table.wellFormed_empty
  · split at h
    · cases h
    · split at h
      · cases h
      · cases h
        exact Table.wellFormed_ofRecords _

theorem isRepresentable_of_load (h : load path d = .ok t) : t.IsRepresentable := by
  unfold load at h
  split at h
  · cases h
    exact nofun
  · cases h
    exact nofun
  · split at h
    · cases h
    · split at h
      · cases h
      · rename_i bytes _ records hdecode
        cases h
        obtain ⟨levels, r, hlist⟩ := Json.decode_ok hdecode
        have hall := Json.Decoder.list_ok
          (fun levels r a => Record.isRepresentable_of_decoder) hlist
        exact fun r hr => hall r (Table.mem_records_ofRecords hr)

theorem atPath_ok {f : FileStore} (h : atPath path d = .ok (f, d')) :
    perform (directoryStage path) d = (.ok (), d') ∧ f.path = path ∧
      load path d' = .ok f.table := by
  unfold atPath at h
  obtain ⟨_, hmade, h⟩ := Except.bind_ok h
  obtain ⟨t, hload, h⟩ := Except.bind_ok h
  cases h
  exact ⟨Prod.ext hmade rfl, rfl, hload⟩

/-- An operation only reads, or writes the records that it leaves; if they cannot be written it
fails. -/
theorem apply_cases (f : FileStore) (d : Disk) (op : Operation) :
    (f.table.apply op).2 = none ∧ f.apply d op = (.ok (f.table.apply op).1, f, d) ∨
      ∃ t, (f.table.apply op).2 = some t ∧
        f.apply d op = ((persist f.path t d).1.map fun _ => (f.table.apply op).1, ⟨f.path, t⟩,
          (persist f.path t d).2) := by
  unfold apply
  rcases f.table.apply op with ⟨result, _ | t⟩
  · exact .inl ⟨rfl, rfl⟩
  · exact .inr ⟨t, rfl, rfl⟩

end FileStore

end DeviceAuth.Store
