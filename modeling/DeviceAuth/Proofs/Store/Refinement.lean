import DeviceAuth.Proofs.Store.Snapshot
import DeviceAuth.Store.Basic

/-! A store with a snapshot answers as one in memory alone does, however often it is reopened in
between, for as long as its snapshots can be written. -/
namespace DeviceAuth.Store

/-- All instants that the operation would store can be written. -/
def Operation.IsRepresentable : Operation → Prop
  | .save record => record.IsRepresentable
  | .swap _ _ replacement => replacement.IsRepresentable
  | .signOut _ now => now.IsRepresentable
  | .fetch _ | .find _ | .list _ | .remove _ => True

namespace Table

variable {t : Table}

theorem IsRepresentable.insert (h : t.IsRepresentable) {record : Record}
    (hr : record.IsRepresentable) (device : DeviceId) :
    (t.insert device record).IsRepresentable := by
  intro r hmem
  rcases mem_records_insert hmem with rfl | hmem
  · exact hr
  · exact h r hmem

theorem IsRepresentable.next (h : t.IsRepresentable) {op : Operation} (ho : op.IsRepresentable) :
    (t.next op).IsRepresentable := by
  cases op with
  | fetch _ | find _ | list _ => exact h
  | save record => exact h.insert ho record.device
  | swap device expected replacement =>
    simp only [Table.next, apply]
    split
    · exact h.insert ho device
    · exact h
  | signOut device now =>
    simp only [Table.next, apply]
    split
    · exact h
    · rename_i r hr
      exact h.insert ((h r (mem_records_of_get? hr)).signOut ho) device
  | remove device =>
    simp only [Table.next, apply]
    split
    · exact h
    · intro r hmem
      obtain ⟨e, he, rfl⟩ := List.mem_map.mp hmem
      exact h e.2 (List.mem_map.mpr ⟨e, (List.mem_filter.mp he).1, rfl⟩)

end Table

namespace FileStore

variable {f : FileStore} {d : Disk}

/-- The snapshot on the disk holds the records in memory. -/
structure Settled (f : FileStore) (d : Disk) : Prop where
  wellFormed : f.table.WellFormed
  isRepresentable : f.table.IsRepresentable
  directory : perform (directoryStage f.path) d = (.ok (), d)
  loads : ∃ t, load f.path d = .ok t ∧ t.SameRecords f.table

theorem settled_of_atPath {path : String} {d₀ : Disk} (h : atPath path d₀ = .ok (f, d)) :
    f.Settled d := by
  obtain ⟨hmade, rfl, hload⟩ := atPath_ok h
  exact ⟨wellFormed_of_load hload, isRepresentable_of_load hload,
    directoryStage_again hmade (.refl d), f.table, hload, .refl _⟩

theorem Settled.atPath (h : f.Settled d) :
    ∃ t, FileStore.atPath f.path d = .ok (⟨f.path, t⟩, d) ∧ t.SameRecords f.table := by
  obtain ⟨t, hload, hsame⟩ := h.loads
  refine ⟨t, ?_, hsame⟩
  unfold FileStore.atPath
  rw [h.directory]
  simp only [bind, Except.bind, hload]
  rfl

theorem settled_of_persist {t : Table} (hw : t.WellFormed) (hr : t.IsRepresentable) {d' : Disk}
    (h : persist f.path t d = (.ok (), d')) : Settled ⟨f.path, t⟩ d' := by
  obtain ⟨hholds, hdirectory⟩ := persist_ok h
  exact ⟨hw, hr, hdirectory, _, load_of_holds hholds hr, hw.sameRecords_ofRecords⟩

/-- An operation leaves the snapshot settled, or fails because the snapshot cannot be written. -/
theorem Settled.apply (h : f.Settled d) {op : Operation} (hk : op.IsKeyed)
    (hr : op.IsRepresentable) :
    (∃ d', f.apply d op = (.ok (f.table.apply op).1, ⟨f.path, f.table.next op⟩, d') ∧
      Settled ⟨f.path, f.table.next op⟩ d') ∨
      ∃ t e d', (f.table.apply op).2 = some t ∧ persist f.path t d = (.error e, d') ∧
        f.apply d op = (.error e, ⟨f.path, t⟩, d') := by
  rcases f.apply_cases d op with ⟨hread, heq⟩ | ⟨t, hwrite, heq⟩
  · have hnext : f.table.next op = f.table := by rw [Table.next, hread]; rfl
    exact .inl ⟨d, by rw [hnext]; exact heq, by rw [hnext]; exact h⟩
  · have hnext : f.table.next op = t := by rw [Table.next, hwrite]; rfl
    rcases hpersist : persist f.path t d with ⟨e | u, d'⟩
    · refine .inr ⟨t, e, d', hwrite, hpersist, ?_⟩
      rw [heq, hpersist]
      rfl
    · refine .inl ⟨d', ?_, ?_⟩
      · rw [heq, hpersist, hnext]
        rfl
      · rw [hnext]
        exact settled_of_persist (hnext ▸ h.wellFormed.next hk) (hnext ▸ h.isRepresentable.next hr)
          hpersist

end FileStore

/-- What is done to a store: an operation, or closing it and opening it again. -/
inductive Move where
  | operate (op : Operation)
  | reopen

/-- A replacement names the device it is stored under, and all instants can be written. -/
def Move.IsValid : Move → Prop
  | .operate op => op.IsKeyed ∧ op.IsRepresentable
  | .reopen => True

/-- A file store does as a store in memory does, move by move and at the end: it opens whenever it
is reopened, and gives the same answers until the disk fails to take a snapshot. -/
def Mirrors : List Move → FileStore → Disk → Table → Prop
  | [], f, _, t => f.table.SameRecords t
  | .operate op :: moves, f, d, t =>
    match f.apply d op, (Backend.memory t).apply d op with
    | (.ok a, f', d'), (.ok b, memory, _) => op.Agree a b ∧ Mirrors moves f' d' memory.table
    | (.error e, _, _), _ =>
      ∃ changed, (f.table.apply op).2 = some changed ∧
        (FileStore.persist f.path changed d).1 = .error e
    | _, (.error _, _, _) => False
  | .reopen :: moves, f, d, t =>
    match FileStore.atPath f.path d with
    | .ok (f', d') => Mirrors moves f' d' t
    | .error _ => False

theorem FileStore.Settled.mirrors {f : FileStore} {d : Disk} (h : f.Settled d) {t : Table}
    (ht : f.table.SameRecords t) {moves : List Move} (hm : ∀ m ∈ moves, m.IsValid) :
    Mirrors moves f d t := by
  induction moves generalizing f d t with
  | nil => exact ht
  | cons m moves ih =>
    obtain ⟨hvalid, hmoves⟩ := List.forall_mem_cons.mp hm
    cases m with
    | operate op =>
      have hagree := ht.agree h.wellFormed op
      have hnext := ht.next h.wellFormed hvalid.1
      rcases h.apply hvalid.1 hvalid.2 with ⟨d', heq, hsettled⟩ | ⟨changed, e, d', hc, hp, heq⟩
      · unfold Mirrors
        rw [heq]
        exact ⟨hagree, ih hsettled hnext hmoves⟩
      · unfold Mirrors
        rw [heq]
        exact ⟨changed, hc, congrArg Prod.fst hp⟩
    | reopen =>
      obtain ⟨u, hopen, hsame⟩ := h.atPath
      have hsettled := FileStore.settled_of_atPath hopen
      unfold Mirrors
      rw [hopen]
      exact ih hsettled (hsame.trans ht) hmoves

/-- Memory may start with the records of any snapshot that opens; and writing records down and
loading them again loses, doubles and changes none, whatever they are. -/
theorem mirrors_of_atPath {path : String} {d₀ d : Disk} {f : FileStore}
    (h : FileStore.atPath path d₀ = .ok (f, d)) {t : Table} (ht : f.table.SameRecords t)
    {moves : List Move} (hm : ∀ m ∈ moves, m.IsValid) :
    Mirrors moves f d t ∧
      ∀ u : Table, u.WellFormed → u.IsRepresentable → ∃ records,
        Json.decode (Json.Decoder.list Record.decoder) (Text.utf8 (FileStore.snapshotText u)) =
          .ok records ∧ records.Perm u.records ∧ (Table.ofRecords records).SameRecords u := by
  refine ⟨(FileStore.settled_of_atPath h).mirrors ht hm, fun u hu hr => ?_⟩
  exact ⟨Table.sortByDevice u.records, FileStore.decode_snapshotText hr,
    List.mergeSort_perm u.records _, hu.sameRecords_ofRecords⟩

/-- A record is saved, and fetched behind a restart: the disk takes the snapshot. -/
theorem mirrors_save_reopen :
    FileStore.atPath "x" .empty = .ok (⟨"x", .empty⟩, .empty) ∧
      (FileStore.persist "x" (Table.empty.next (.save .sample)) .empty).1 = .ok () ∧
      Mirrors [.operate (.save .sample), .reopen, .operate (.fetch Record.sample.device)]
        ⟨"x", .empty⟩ .empty .empty := by
  have hparent : FilePath.parent? "x" = some "" := by decide +kernel
  have hopen : FileStore.atPath "x" .empty = .ok (⟨"x", .empty⟩, .empty) := by
    rw [FileStore.atPath, FileStore.directoryStage_of_parent hparent]
    rfl
  refine ⟨hopen, by decide +kernel, (mirrors_of_atPath hopen (.refl _) fun m hm => ?_).1⟩
  simp only [List.mem_cons, List.not_mem_nil, or_false] at hm
  rcases hm with rfl | rfl | rfl
  · exact ⟨trivial, Record.isRepresentable_sample⟩
  · trivial
  · exact ⟨trivial, trivial⟩

end DeviceAuth.Store
