import DeviceAuth.Proofs.Store.Interruption
import DeviceAuth.Proofs.Store.Keys
import DeviceAuth.Proofs.Text.Order

/-! What a snapshot says of the past of its store. It lists the records that are held, in the order
of their devices, and two stores that hold the same records have the same snapshot, unless records
of one device were written that the store has since been reopened without. -/
namespace DeviceAuth.Store

namespace Table

variable {t u : Table}

/-- The bytes are read as the records of the table, each device once, in the order of its bytes. -/
def IsListedBy (t : Table) (bytes : List UInt8) : Prop :=
  ∃ records, Json.decode (Json.Decoder.list Record.decoder) bytes = .ok records ∧
    (records.Pairwise fun a b => Text.utf8 a.device.text < Text.utf8 b.device.text) ∧
    ∀ r, r ∈ records ↔ t.get? r.device = some r

theorem WellFormed.mem_records_iff (h : t.WellFormed) {r : Record} :
    r ∈ t.records ↔ t.get? r.device = some r :=
  ⟨h.get?_of_mem_records, mem_records_of_get?⟩

theorem ascending_sortByDevice {records : List Record} (h : (records.map (·.device)).Nodup) :
    (sortByDevice records).Pairwise
      fun a b => Text.utf8 a.device.text < Text.utf8 b.device.text := by
  have hperm : (sortByDevice records).Perm records := List.mergeSort_perm _ _
  have hapart : ((sortByDevice records).map (·.device)).Nodup := (hperm.map _).symm.nodup h
  refine (pairwise_sortByDevice records).imp₂ (fun a b hle hne => ?_) (List.pairwise_map.mp hapart)
  refine Text.utf8_lt_utf8 (String.not_le.mp fun hback => hne ?_)
  exact Identifier.eq_of_le_of_le hle (Identifier.le_iff.mpr hback)

theorem nodup_of_ascending {records : List Record}
    (h : (sortByDevice records).Pairwise
      fun a b => Text.utf8 a.device.text < Text.utf8 b.device.text) :
    (records.map (·.device)).Nodup := by
  have hperm : (sortByDevice records).Perm records := List.mergeSort_perm _ _
  refine (hperm.map (·.device)).nodup (List.pairwise_map.mpr (h.imp fun hlt heq => ?_))
  rw [heq] at hlt
  exact List.lt_irrefl _ hlt

theorem WellFormed.sortByDevice_eq (h : t.WellFormed) {records : List Record}
    (hperm : t.records.Perm records) : sortByDevice t.records = sortByDevice records :=
  sortByDevice_congr hperm fun _ ha _ hb => h.eq_of_device_eq ha hb

theorem records_ofRecords {records : List Record} (h : (records.map (·.device)).Nodup) :
    (ofRecords records).records = records := by
  rw [Table.records, entries_ofRecords h, List.map_map]
  exact List.map_id records

end Table

namespace FileStore

variable {Allowed : Operation → Prop} {path : String} {f : FileStore} {d : Disk}
  {written : Option Table} {u : Table}

/-- How a store came to hold what it holds: it was opened, carried out operations, was reopened.
`written` is what it wrote last. A walk through the records takes them in any order. -/
inductive History (Allowed : Operation → Prop) (path : String) :
    FileStore → Disk → Option Table → Prop
  | opened {d₀ d : Disk} {f : FileStore} (h : atPath path d₀ = .ok (f, d)) :
    History Allowed path f d none
  | wrote {f : FileStore} {d d' : Disk} {written : Option Table} {op : Operation} {t u : Table}
    (h : History Allowed path f d written) (hop : Allowed op)
    (hchange : (f.table.apply op).2 = some t) (horder : t.SameRecords u)
    (hwritten : persist path u d = (.ok (), d')) : History Allowed path ⟨path, u⟩ d' (some u)
  | reopened {f f' : FileStore} {d d' : Disk} {written : Option Table}
    (h : History Allowed path f d written) (hopen : atPath path d = .ok (f', d')) :
    History Allowed path f' d' written

theorem History.path_eq (h : History Allowed path f d written) : f.path = path := by
  cases h with
  | opened h => exact (atPath_ok h).2.1
  | wrote _ _ _ _ _ => rfl
  | reopened _ hopen => exact (atPath_ok hopen).2.1

theorem History.mono (h : History Allowed path f d written) {Allowed' : Operation → Prop}
    (hallowed : ∀ op, Allowed op → Allowed' op) : History Allowed' path f d written := by
  induction h with
  | opened h => exact .opened h
  | wrote _ hop hchange horder hwritten ih =>
    exact .wrote ih (hallowed _ hop) hchange horder hwritten
  | reopened _ hopen ih => exact .reopened ih hopen

theorem History.wellFormed (h : History Allowed path f d written)
    (hkeyed : ∀ op, Allowed op → op.IsKeyed) :
    f.table.WellFormed ∧ ∀ u, written = some u → u.WellFormed := by
  induction h with
  | opened h => exact ⟨wellFormed_of_load (atPath_ok h).2.2, nofun⟩
  | @wrote f d d' written op t u h hop hchange horder hwritten ih =>
    have hnext : f.table.next op = t := by rw [Table.next, hchange]; rfl
    have hwell : u.WellFormed := horder.wellFormed (hnext ▸ ih.1.next (hkeyed op hop))
    refine ⟨hwell, fun v hv => ?_⟩
    cases hv
    exact hwell
  | reopened _ hopen ih => exact ⟨wellFormed_of_load (atPath_ok hopen).2.2, ih.2⟩

/-- Every operation that is answered carries a history on. -/
theorem History.apply (h : History Allowed path f d written) {op : Operation} (hop : Allowed op)
    {x : op.Result} (hx : (f.apply d op).1 = .ok x) :
    History Allowed path (f.apply d op).2.1 (f.apply d op).2.2
      ((f.table.apply op).2.or written) := by
  rcases f.apply_cases d op with ⟨hread, heq⟩ | ⟨t, hwrite, heq⟩
  · rw [heq, hread]
    exact h
  · have hpersist : persist f.path t d = (.ok (), (persist f.path t d).2) := by
      refine Prod.ext ?_ rfl
      rw [heq] at hx
      obtain ⟨_, hok, -⟩ := Except.map_ok hx
      exact hok
    rw [heq, hwrite, h.path_eq]
    exact .wrote h hop hwrite (.refl _) (h.path_eq ▸ hpersist)

theorem History.change (h : History Allowed path f d written) (op : Operation) (hop : Allowed op)
    {t : Table} (hchange : (f.table.apply op).2 = some t)
    (hdisk : (persist path .empty d).1 = .ok ()) :
    ∃ d', History Allowed path ⟨path, t⟩ d' (some t) ∧ (persist path .empty d').1 = .ok () := by
  obtain ⟨hsame, hagain, -⟩ := persist_again path t .empty d
  exact ⟨_, .wrote h hop hchange (.refl _) (Prod.ext (hsame.trans hdisk) rfl), hagain.trans hdisk⟩

/-- The table, and the file if there is one: it shows what was written last, and that is in memory,
or what reading it back leaves. -/
structure Shows (path : String) (f : FileStore) (d : Disk) (written : Option Table) : Prop where
  keys : (f.table.entries.map (·.1)).Nodup
  isRepresentable : f.table.IsRepresentable
  directory : perform (directoryStage path) d = (.ok (), d)
  snapshot : ∀ u, written = some u → u.IsRepresentable ∧
    d.Holds path (Text.utf8 (snapshotText u)) ∧
      (f.table = u ∨ f.table = .ofRecords (Table.sortByDevice u.records))

theorem History.shows (h : History Allowed path f d written)
    (hallowed : ∀ op, Allowed op → op.IsRepresentable) : Shows path f d written := by
  induction h with
  | opened h =>
    have hsettled := settled_of_atPath h
    exact ⟨hsettled.wellFormed.nodup, hsettled.isRepresentable,
      (atPath_ok h).2.1 ▸ hsettled.directory, nofun⟩
  | @wrote f d d' written op t u h hop hchange horder hwritten ih =>
    have hnext : f.table.next op = t := by rw [Table.next, hchange]; rfl
    have hkeys : (u.entries.map (·.1)).Nodup :=
      (horder.map _).nodup (hnext ▸ Table.nodup_keys_next ih.keys op)
    have hrepresentable : u.IsRepresentable := fun r hr =>
      (hnext ▸ ih.isRepresentable.next (hallowed op hop)) r (horder.records.mem_iff.mpr hr)
    obtain ⟨hholds, hdirectory⟩ := persist_ok hwritten
    refine ⟨hkeys, hrepresentable, hdirectory, fun v hv => ?_⟩
    cases hv
    exact ⟨hrepresentable, hholds, .inl rfl⟩
  | @reopened f f' d d' written h hopen ih =>
    obtain ⟨hmade, -, hload⟩ := atPath_ok hopen
    cases ih.directory.symm.trans hmade
    refine ⟨(wellFormed_of_load hload).nodup, isRepresentable_of_load hload, ih.directory,
      fun u hu => ?_⟩
    obtain ⟨hrepresentable, hholds, -⟩ := ih.snapshot u hu
    exact ⟨hrepresentable, hholds,
      .inr (Except.ok.inj (hload.symm.trans (load_of_holds hholds hrepresentable)))⟩

theorem Shows.wellFormed (h : Shows path f d written)
    (hown : ∀ device r, f.table.get? device = some r → r.device = device) : f.table.WellFormed :=
  ⟨h.keys, fun e he => hown e.1 e.2 (Table.get?_of_mem h.keys he)⟩

theorem Shows.snapshotText_eq (h : Shows path f d (some u)) (hwell : f.table.WellFormed)
    (hapart : (u.records.map (·.device)).Nodup) : snapshotText u = snapshotText f.table := by
  have hperm : f.table.records.Perm u.records := by
    obtain ⟨-, -, hsame | hback⟩ := h.snapshot u rfl
    · rw [hsame]
    · have hsorted : (Table.sortByDevice u.records).Perm u.records := List.mergeSort_perm _ _
      rw [hback, Table.records_ofRecords ((hsorted.map _).symm.nodup hapart)]
      exact hsorted
  rw [snapshotText, snapshotText, hwell.sortByDevice_eq hperm]

theorem Shows.atPath (h : Shows path f d (some u)) :
    atPath path d = .ok (⟨path, .ofRecords (Table.sortByDevice u.records)⟩, d) := by
  obtain ⟨hrepresentable, hholds, -⟩ := h.snapshot u rfl
  rw [FileStore.atPath, h.directory]
  simp only [bind, Except.bind, load_of_holds hholds hrepresentable]
  rfl

theorem Shows.file? (h : Shows path f d (some u)) :
    d.file? path = some (Text.utf8 (snapshotText u)) :=
  (h.snapshot u rfl).2.1.file?

theorem isListedBy_snapshotText {t : Table} (hwell : t.WellFormed) (h : t.IsRepresentable) :
    t.IsListedBy (Text.utf8 (snapshotText t)) :=
  ⟨_, decode_snapshotText h, Table.ascending_sortByDevice hwell.nodup_devices,
    fun _ => List.mem_mergeSort.trans hwell.mem_records_iff⟩

theorem nodup_of_isListedBy {t : Table} (h : u.IsRepresentable)
    (hlisted : t.IsListedBy (Text.utf8 (snapshotText u))) : (u.records.map (·.device)).Nodup := by
  obtain ⟨records, hdecode, hascending, -⟩ := hlisted
  cases (decode_snapshotText h).symm.trans hdecode
  exact Table.nodup_of_ascending hascending

/-- Two stores that hold the same records, each under its own device, have the same file, which
lists every record once and in order, exactly if neither wrote two records of one device last. -/
theorem same_snapshot_iff {path₁ path₂ : String} {f₁ f₂ : FileStore} {d₁ d₂ : Disk}
    {u₁ u₂ : Table} (h₁ : History Operation.IsRepresentable path₁ f₁ d₁ (some u₁))
    (h₂ : History Operation.IsRepresentable path₂ f₂ d₂ (some u₂))
    (hown : ∀ device r, f₁.table.get? device = some r → r.device = device)
    (hsame : ∀ device, f₁.table.get? device = f₂.table.get? device) :
    (∃ bytes, d₁.file? path₁ = some bytes ∧ d₂.file? path₂ = some bytes ∧
        f₁.table.IsListedBy bytes) ↔
      (u₁.records.map (·.device)).Nodup ∧ (u₂.records.map (·.device)).Nodup := by
  have hshows₁ := h₁.shows fun _ h => h
  have hshows₂ := h₂.shows fun _ h => h
  constructor
  · rintro ⟨bytes, hfile₁, hfile₂, hlisted⟩
    cases hshows₁.file?.symm.trans hfile₁
    have hbytes := Option.some.inj (hshows₂.file?.symm.trans hfile₂)
    refine ⟨nodup_of_isListedBy (hshows₁.snapshot u₁ rfl).1 hlisted, ?_⟩
    rw [← hbytes] at hlisted
    exact nodup_of_isListedBy (hshows₂.snapshot u₂ rfl).1 hlisted
  · rintro ⟨hapart₁, hapart₂⟩
    have hwell₁ := hshows₁.wellFormed hown
    have hwell₂ := hshows₂.wellFormed fun device r h => hown device r ((hsame device).trans h)
    have hrecords := ((Table.sameRecords_iff hwell₁ hwell₂).mpr hsame).records
    have htext : snapshotText u₁ = snapshotText u₂ := calc
      snapshotText u₁ = snapshotText f₁.table := hshows₁.snapshotText_eq hwell₁ hapart₁
      _ = snapshotText f₂.table := by
        rw [snapshotText, snapshotText, hwell₁.sortByDevice_eq hrecords]
      _ = snapshotText u₂ := (hshows₂.snapshotText_eq hwell₂ hapart₂).symm
    refine ⟨_, hshows₁.file?, htext ▸ hshows₂.file?, ?_⟩
    rw [hshows₁.snapshotText_eq hwell₁ hapart₁]
    exact isListedBy_snapshotText hwell₁ hshows₁.isRepresentable

/-- If no replacement names another device than the one it is stored under, the records alone
decide the snapshot. -/
theorem same_snapshot_of_keyed {path₁ path₂ : String} {f₁ f₂ : FileStore} {d₁ d₂ : Disk}
    {u₁ u₂ : Table}
    (h₁ : History (fun op => op.IsKeyed ∧ op.IsRepresentable) path₁ f₁ d₁ (some u₁))
    (h₂ : History (fun op => op.IsKeyed ∧ op.IsRepresentable) path₂ f₂ d₂ (some u₂))
    (hsame : ∀ device, f₁.table.get? device = f₂.table.get? device) :
    ∃ bytes, d₁.file? path₁ = some bytes ∧ d₂.file? path₂ = some bytes ∧
      f₁.table.IsListedBy bytes := by
  obtain ⟨hwell₁, hapart₁⟩ := h₁.wellFormed fun _ h => h.1
  obtain ⟨-, hapart₂⟩ := h₂.wellFormed fun _ h => h.1
  exact (same_snapshot_iff (h₁.mono fun _ h => h.2) (h₂.mono fun _ h => h.2)
    (fun _ _ => hwell₁.device_of_get?) hsame).mpr
      ⟨(hapart₁ u₁ rfl).nodup_devices, (hapart₂ u₂ rfl).nodup_devices⟩

theorem history_empty (Allowed : Operation → Prop) :
    History Allowed "x" ⟨"x", .empty⟩ .empty none ∧ (persist "x" .empty .empty).1 = .ok () := by
  have hparent : FilePath.parent? "x" = some "" := by decide +kernel
  have hopen : atPath "x" .empty = .ok (⟨"x", .empty⟩, .empty) := by
    rw [atPath, directoryStage_of_parent hparent]
    rfl
  exact ⟨.opened hopen, by decide +kernel⟩

/-- Two records that are saved in either order. -/
theorem same_snapshot_either_order :
    let one := (Table.empty.insert Record.sample.device .sample).insert stranger.device stranger
    let other := (Table.empty.insert stranger.device stranger).insert Record.sample.device .sample
    ∃ d₁ d₂, History Operation.IsRepresentable "x" ⟨"x", one⟩ d₁ (some one) ∧
      History Operation.IsRepresentable "x" ⟨"x", other⟩ d₂ (some other) ∧
      one.records ≠ other.records ∧
      (∀ device r, one.get? device = some r → r.device = device) ∧
      (∀ device, one.get? device = other.get? device) ∧
      ∃ bytes, d₁.file? "x" = some bytes ∧ d₂.file? "x" = some bytes ∧ one.IsListedBy bytes := by
  intro one other
  obtain ⟨hstart, hdisk⟩ := history_empty Operation.IsRepresentable
  obtain ⟨_, h₁, hdisk₁⟩ :=
    hstart.change (.save .sample) Record.isRepresentable_sample rfl hdisk
  obtain ⟨_, h₂, hdisk₂⟩ := hstart.change (.save stranger) isRepresentable_stranger rfl hdisk
  obtain ⟨_, hone, -⟩ := h₁.change (.save stranger) isRepresentable_stranger rfl hdisk₁
  obtain ⟨_, hother, -⟩ := h₂.change (.save .sample) Record.isRepresentable_sample rfl hdisk₂
  have hwell₁ : one.WellFormed := (Table.wellFormed_empty.insert rfl).insert rfl
  have hwell₂ : other.WellFormed := (Table.wellFormed_empty.insert rfl).insert rfl
  have hsame : ∀ device, one.get? device = other.get? device :=
    (Table.sameRecords_iff hwell₁ hwell₂).mp (List.Perm.swap _ _ _)
  have hown : ∀ device r, one.get? device = some r → r.device = device :=
    fun _ _ => hwell₁.device_of_get?
  exact ⟨_, _, hone, hother, by decide, hown, hsame, (same_snapshot_iff hone hother hown hsame).mpr
    ⟨hwell₁.nodup_devices, hwell₂.nodup_devices⟩⟩

/-- A swap puts the stranger's record under the sample's device as well, and both are written. They
are one record once the store is reopened, but the file shows it twice. -/
theorem not_same_snapshot_of_swap :
    let one := Table.empty.insert stranger.device stranger
    ∃ d₁ d₂ u, History Operation.IsRepresentable "x" ⟨"x", one⟩ d₁ (some u) ∧
      History Operation.IsRepresentable "x" ⟨"x", one⟩ d₂ (some one) ∧
      (∀ device r, one.get? device = some r → r.device = device) ∧
      d₁.file? "x" ≠ d₂.file? "x" ∧
      ∀ bytes, d₁.file? "x" = some bytes → ¬one.IsListedBy bytes := by
  intro one
  obtain ⟨hstart, hdisk⟩ := history_empty Operation.IsRepresentable
  obtain ⟨_, h₁, hdisk₁⟩ :=
    hstart.change (.save .sample) Record.isRepresentable_sample rfl hdisk
  obtain ⟨_, h₂, hdisk₂⟩ := h₁.change (.save stranger) isRepresentable_stranger rfl hdisk₁
  obtain ⟨d, h₃, -⟩ := h₂.change (sampleSwap stranger) isRepresentable_stranger rfl hdisk₂
  obtain ⟨_, hone, -⟩ := hstart.change (.save stranger) isRepresentable_stranger rfl hdisk
  have hshows := h₃.shows fun _ h => h
  have hback : Table.ofRecords (Table.sortByDevice [stranger, stranger]) = one := by
    have hsorted : (Table.sortByDevice [stranger, stranger]).Perm (List.replicate 2 stranger) :=
      List.mergeSort_perm _ _
    rw [List.perm_replicate.mp hsorted]
    rfl
  have hunlisted (bytes : List UInt8) (hfile : d.file? "x" = some bytes) :
      ¬one.IsListedBy bytes := by
    intro hlisted
    cases hshows.file?.symm.trans hfile
    exact absurd (nodup_of_isListedBy (hshows.snapshot _ rfl).1 hlisted) (by decide)
  refine ⟨_, _, _, .reopened h₃ (hback ▸ hshows.atPath), hone,
    fun _ _ => (Table.wellFormed_empty.insert rfl).device_of_get?, fun hsame => ?_, hunlisted⟩
  have hshowsOne := hone.shows fun _ h => h
  exact hunlisted _ (hsame.trans hshowsOne.file?)
    (isListedBy_snapshotText (Table.wellFormed_empty.insert rfl) hshowsOne.isRepresentable)

end FileStore

end DeviceAuth.Store
