import DeviceAuth.Proofs.Records
import DeviceAuth.Proofs.Store.Failure
import DeviceAuth.Proofs.Store.Refinement

/-! Records under the devices that they name. Only a swap can put a record under another device than
its own; as long as none does, a store comes back whole when it is opened again. -/
namespace DeviceAuth.Store

/-- The operation puts a record in place under a device that the record does not name. -/
def Operation.Misplaces (t : Table) : Operation → Prop
  | .swap device expected replacement =>
    t.swapOutcome device expected = .updated ∧ replacement.device ≠ device
  | .save _ | .fetch _ | .find _ | .list _ | .signOut _ _ | .remove _ => False

namespace Table

variable {t : Table}

/-- A record is found under no device but its own, and no device has two. -/
structure HoldsOwn (t : Table) : Prop where
  own : ∀ device record, t.get? device = some record → record.device = device
  apart : (t.records.map (·.device)).Nodup

theorem WellFormed.holdsOwn (h : t.WellFormed) : t.HoldsOwn :=
  ⟨fun _ _ => h.device_of_get?, h.nodup_devices⟩

theorem HoldsOwn.wellFormed (h : t.HoldsOwn) (hkeys : (t.entries.map (·.1)).Nodup) :
    t.WellFormed :=
  ⟨hkeys, fun e he => h.own e.1 e.2 (get?_of_mem hkeys he)⟩

theorem nodup_keys_next (h : (t.entries.map (·.1)).Nodup) (op : Operation) :
    ((t.next op).entries.map (·.1)).Nodup := by
  cases op with
  | fetch _ | find _ | list _ => exact h
  | save record => exact nodup_keys_insert h record.device record
  | swap device expected replacement =>
    simp only [Table.next, apply]
    split
    · exact nodup_keys_insert h device replacement
    · exact h
  | signOut device now =>
    simp only [Table.next, apply]
    split
    · exact h
    · exact nodup_keys_insert h device _
  | remove device =>
    simp only [Table.next, apply]
    split
    · exact h
    · exact nodup_keys_erase h device

theorem WellFormed.next_of_not_misplaces (h : t.WellFormed) {op : Operation}
    (ho : ¬op.Misplaces t) : (t.next op).WellFormed := by
  by_cases hkeyed : op.IsKeyed
  · exact h.next hkeyed
  · cases op with
    | swap device expected replacement =>
      have hkept : t.swapOutcome device expected ≠ .updated :=
        fun hupdated => ho ⟨hupdated, hkeyed⟩
      have hsame : t.next (.swap device expected replacement) = t := by
        simp [Table.next, apply, hkept]
      rw [hsame]
      exact h
    | _ => exact absurd trivial hkeyed

theorem not_holdsOwn_of_misplaces {op : Operation} (ho : op.Misplaces t) :
    ¬(t.next op).HoldsOwn := by
  cases op with
  | swap device expected replacement =>
    obtain ⟨hupdated, hdevice⟩ := ho
    exact fun hown => hdevice (hown.own device replacement (get?_next_swap replacement hupdated))
  | _ => exact absurd ho id

end Table

namespace FileStore

variable {f : FileStore} {d : Disk}

/-- The snapshot on the disk holds the records in memory, each under the device it names. -/
structure Tracked (f : FileStore) (d : Disk) : Prop where
  keys : (f.table.entries.map (·.1)).Nodup
  isRepresentable : f.table.IsRepresentable
  directory : perform (directoryStage f.path) d = (.ok (), d)
  loads : ∃ t, load f.path d = .ok t ∧
    t.SameRecords (.ofRecords (Table.sortByDevice f.table.records))

theorem Settled.tracked (h : f.Settled d) : f.Tracked d := by
  obtain ⟨t, hload, hsame⟩ := h.loads
  exact ⟨h.wellFormed.nodup, h.isRepresentable, h.directory, t, hload,
    hsame.trans h.wellFormed.sameRecords_ofRecords.symm⟩

theorem Tracked.apply (h : f.Tracked d) {op : Operation} (hop : op.IsRepresentable)
    {x : op.Result} (hx : (f.apply d op).1 = .ok x) :
    Tracked (f.apply d op).2.1 (f.apply d op).2.2 := by
  rcases f.apply_cases d op with ⟨-, heq⟩ | ⟨t, hwrite, heq⟩
  · rw [heq]
    exact h
  · have hnext : f.table.next op = t := by rw [Table.next, hwrite]; rfl
    have hpersist : persist f.path t d = (.ok (), (persist f.path t d).2) := by
      refine Prod.ext ?_ rfl
      rw [heq] at hx
      cases hwritten : (persist f.path t d).1 with
      | ok u => rfl
      | error e =>
        rw [hwritten] at hx
        cases hx
    obtain ⟨hholds, hdirectory⟩ := persist_ok hpersist
    have hrepresentable : t.IsRepresentable := hnext ▸ h.isRepresentable.next hop
    rw [heq]
    exact ⟨hnext ▸ Table.nodup_keys_next h.keys op, hrepresentable, hdirectory, _,
      load_of_holds hholds hrepresentable, .refl _⟩

/-- A store comes back with the records that it had exactly if each was under its own device. -/
theorem Tracked.reopensAs_iff (h : f.Tracked d) :
    ReopensAs f.path d f.table ↔ f.table.HoldsOwn := by
  obtain ⟨t, hload, hsame⟩ := h.loads
  have hopen : atPath f.path d = .ok (⟨f.path, t⟩, d) := by
    unfold atPath
    rw [h.directory]
    simp only [bind, Except.bind, hload]
    rfl
  constructor
  · rintro ⟨u, d', hopen', hback⟩
    cases hopen.symm.trans hopen'
    exact (hback.wellFormed (wellFormed_of_load hload)).holdsOwn
  · intro hown
    have hwell := hown.wellFormed h.keys
    exact ⟨t, d, hopen, hsame.trans hwell.sameRecords_ofRecords⟩

end FileStore

/-- A store that has been opened, in memory or from a snapshot. -/
def IsSettled (s : Store) : Prop :=
  match s.backend with
  | .memory t => t.WellFormed
  | .file f => f.Settled s.disk

def after (s : Store) (ops : List Operation) : Store := ops.foldl (fun s op => (s.apply op).2) s

/-- The store carries the operation out, and a record comes to be under a device that it does not
name. -/
def Misplaces (s : Store) (op : Operation) : Prop := op.kind ∉ s.refused ∧ op.Misplaces s.table

/-- The operation is refused before anything is changed, or answered. -/
def Takes (s : Store) (op : Operation) : Prop :=
  op.kind ∈ s.refused ∨ ∃ x, (s.apply op).1 = .ok x

variable {s : Store}

theorem IsSettled.wellFormed (h : s.IsSettled) : s.table.WellFormed := by
  unfold IsSettled at h
  rw [table]
  split at h
  · rename_i t hbackend
    rw [hbackend]
    exact h
  · rename_i f hbackend
    rw [hbackend]
    exact h.wellFormed

/-- Every store that opens is settled. -/
theorem isSettled_of_ofUri [Url.Idna] {uri database : String} {disk : Disk}
    (h : ofUri uri database disk = .ok s) : s.IsSettled := by
  unfold ofUri at h
  split at h
  · cases h
  split at h
  · cases h
    exact Table.wellFormed_empty
  split at h
  · split at h
    · cases h
    split at h
    · cases h
    split at h
    · cases h
    · rename_i f disk' hopen
      cases h
      exact FileStore.settled_of_atPath hopen
  · cases h

theorem forall_prefix_cons {P : List Operation → Prop} {first : Operation}
    {rest : List Operation} :
    (∀ before, before <+: first :: rest → P before) ↔
      P [] ∧ ∀ before, before <+: rest → P (first :: before) := by
  constructor
  · intro h
    exact ⟨h [] List.nil_prefix,
      fun before hbefore => h _ (List.cons_prefix_cons.mpr ⟨rfl, hbefore⟩)⟩
  · rintro ⟨hstart, hrest⟩ before hprefix
    cases before with
    | nil => exact hstart
    | cons x before =>
      obtain ⟨rfl, hbefore⟩ := List.cons_prefix_cons.mp hprefix
      exact hrest before hbefore

theorem forall_step_cons {P : List Operation → Operation → Prop} {first : Operation}
    {rest : List Operation} :
    (∀ before op, before ++ [op] <+: first :: rest → P before op) ↔
      P [] first ∧ ∀ before op, before ++ [op] <+: rest → P (first :: before) op := by
  constructor
  · intro h
    exact ⟨h [] first (by simp),
      fun before op hbefore => h _ op (List.cons_prefix_cons.mpr ⟨rfl, hbefore⟩)⟩
  · rintro ⟨hstart, hrest⟩ before op hprefix
    cases before with
    | nil =>
      obtain ⟨rfl, -⟩ := List.cons_prefix_cons.mp hprefix
      exact hstart
    | cons x before =>
      obtain ⟨rfl, hbefore⟩ := List.cons_prefix_cons.mp hprefix
      exact hrest before op hbefore

theorem wellFormed_apply (h : s.table.WellFormed) {op : Operation} (hop : ¬s.Misplaces op) :
    (s.apply op).2.table.WellFormed := by
  rw [table_apply]
  split
  · exact h
  · rename_i hrefused
    exact h.next_of_not_misplaces fun hmisplaces => hop ⟨hrefused, hmisplaces⟩

theorem not_holdsOwn_apply {op : Operation} (hop : s.Misplaces op) :
    ¬(s.apply op).2.table.HoldsOwn := by
  rw [table_apply, if_neg hop.1]
  exact Table.not_holdsOwn_of_misplaces hop.2

theorem holdsOwn_after_iff (h : s.table.WellFormed) (ops : List Operation) :
    (∀ before, before <+: ops → (s.after before).table.HoldsOwn) ↔
      ∀ before op, before ++ [op] <+: ops → ¬(s.after before).Misplaces op := by
  induction ops generalizing s with
  | nil => simp [List.prefix_nil, after, h.holdsOwn]
  | cons first rest ih =>
    rw [forall_prefix_cons, forall_step_cons]
    by_cases hfirst : s.Misplaces first
    · refine iff_of_false (fun hown => ?_) fun hnone => hnone.1 hfirst
      exact not_holdsOwn_apply hfirst (hown.2 [] List.nil_prefix)
    · exact and_congr (iff_of_true h.holdsOwn hfirst) (ih (wellFormed_apply h hfirst))

/-- The store is in memory, or its snapshot is up to date. -/
def IsTracked (s : Store) : Prop := ∀ f, s.backend = .file f → f.Tracked s.disk

theorem IsSettled.isTracked (h : s.IsSettled) : s.IsTracked := by
  intro f hbackend
  rw [IsSettled, hbackend] at h
  exact h.tracked

theorem IsTracked.apply (h : s.IsTracked) {op : Operation} (hop : op.IsRepresentable)
    (htakes : s.Takes op) : (s.apply op).2.IsTracked := by
  obtain ⟨backend, disk, refused⟩ := s
  by_cases hrefused : op.kind ∈ refused
  · rw [Store.apply, if_pos hrefused]
    exact h
  obtain ⟨x, hx⟩ := htakes.resolve_left hrefused
  rw [Store.apply, if_neg hrefused] at hx ⊢
  intro f' hf'
  cases backend with
  | memory t => cases hf'
  | file f =>
    cases hf'
    exact (h f rfl).apply hop hx

theorem isTracked_after (h : s.IsTracked) {ops : List Operation}
    (hops : ∀ op ∈ ops, op.IsRepresentable)
    (htakes : ∀ before op, before ++ [op] <+: ops → (s.after before).Takes op) :
    (s.after ops).IsTracked := by
  induction ops generalizing s with
  | nil => exact h
  | cons first rest ih =>
    obtain ⟨hfirst, hrest⟩ := List.forall_mem_cons.mp hops
    rw [forall_step_cons] at htakes
    exact ih (h.apply hfirst htakes.1) hrest htakes.2

/-- In every run of operations all records are under their own devices all along exactly if no swap
puts one under another, whatever keeps the records and whatever fails. If every snapshot is written,
a file store comes back with all that it had, each record under the device where it was, exactly if
each was under its own. -/
theorem holdsOwn_iff_of_run (h : s.IsSettled) (ops : List Operation) :
    ((∀ before, before <+: ops → (s.after before).table.HoldsOwn) ↔
      ∀ before op, before ++ [op] <+: ops → ¬(s.after before).Misplaces op) ∧
    ((∀ op ∈ ops, op.IsRepresentable) →
      (∀ before op, before ++ [op] <+: ops → (s.after before).Takes op) →
        ∀ f, (s.after ops).backend = .file f →
          (FileStore.ReopensAs f.path (s.after ops).disk f.table ↔ f.table.HoldsOwn)) :=
  ⟨holdsOwn_after_iff h.wellFormed ops, fun hops htakes f hbackend =>
    (isTracked_after h.isTracked hops htakes f hbackend).reopensAs_iff⟩

def fresh : Store := ofBackend (.file ⟨"x", .empty⟩) .empty

theorem isSettled_fresh : fresh.IsSettled := by
  have hparent : FilePath.parent? "x" = some "" := by decide +kernel
  have hopen : FileStore.atPath "x" .empty = .ok (⟨"x", .empty⟩, .empty) := by
    rw [FileStore.atPath, FileStore.directoryStage_of_parent hparent]
    rfl
  exact FileStore.settled_of_atPath hopen

abbrev sampleSwap (replacement : Record) : Operation :=
  .swap Record.sample.device (some "é\n") replacement

/-- A record that is replaced by one of the same device comes back under that device. -/
theorem holdsOwn_iff_of_run_swap :
    fresh.IsSettled ∧ ∃ f : FileStore,
      (fresh.after [.save .sample, sampleSwap .sample]).backend = .file f ∧ f.table.size = 1 ∧
        FileStore.ReopensAs f.path (fresh.after [.save .sample, sampleSwap .sample]).disk
          f.table := by
  have hsave : (fresh.apply (.save .sample)).1 = .ok () := by decide +kernel
  have hswap : ((fresh.after [.save .sample]).apply (sampleSwap .sample)).1 = .ok .updated := by
    decide +kernel
  obtain ⟨hown, hreopens⟩ :=
    holdsOwn_iff_of_run isSettled_fresh [.save .sample, sampleSwap .sample]
  refine ⟨isSettled_fresh, _, rfl, by decide +kernel, (hreopens ?_ ?_ _ rfl).mpr ?_⟩
  · simp only [List.forall_mem_cons]
    exact ⟨Record.isRepresentable_sample, Record.isRepresentable_sample, List.forall_mem_nil _⟩
  · rw [forall_step_cons, forall_step_cons]
    exact ⟨.inr ⟨_, hsave⟩, .inr ⟨_, hswap⟩, by simp⟩
  · refine hown.mpr ?_ _ List.prefix_rfl
    rw [forall_step_cons, forall_step_cons]
    exact ⟨fun h => h.2, fun h => h.2.2 rfl, by simp⟩

theorem fault?_stranger : Identifier.fault? "e" = none := by decide

def stranger : Record := { Record.sample with device := ⟨"e", fault?_stranger⟩ }

theorem isRepresentable_stranger : stranger.IsRepresentable :=
  ⟨Record.isRepresentable_sample.issuedAt, Record.isRepresentable_sample.expiresAt,
    Record.isRepresentable_sample.signedOutAt⟩

/-- The record of one device is swapped for one that names another: each kind of store has it under
the device that it does not name from then on, and a file store comes back without it. -/
theorem swap_for_stranger :
    (∃ r, (((ofBackend (.memory .empty) .empty).after
        [.save .sample, sampleSwap stranger]).apply (.fetch Record.sample.device)).1 =
          .ok (some r) ∧ r.device ≠ Record.sample.device) ∧
      ∃ f : FileStore,
        (fresh.after [.save .sample, .save stranger, sampleSwap stranger]).backend = .file f ∧
        (∀ before op, before ++ [op] <+: [.save .sample, .save stranger, sampleSwap stranger] →
          (fresh.after before).Takes op) ∧
        ¬FileStore.ReopensAs f.path
          (fresh.after [.save .sample, .save stranger, sampleSwap stranger]).disk f.table := by
  have hsave : (fresh.apply (.save .sample)).1 = .ok () := by decide +kernel
  have hother : ((fresh.after [.save .sample]).apply (.save stranger)).1 = .ok () := by
    decide +kernel
  have hswap : ((fresh.after [.save .sample, .save stranger]).apply (sampleSwap stranger)).1 =
      .ok .updated := by
    decide +kernel
  have htakes : ∀ before op,
      before ++ [op] <+: [.save .sample, .save stranger, sampleSwap stranger] →
        (fresh.after before).Takes op := by
    rw [forall_step_cons, forall_step_cons, forall_step_cons]
    exact ⟨.inr ⟨_, hsave⟩, .inr ⟨_, hother⟩, .inr ⟨_, hswap⟩, by simp⟩
  refine ⟨⟨stranger, rfl, by decide⟩, _, rfl, htakes, fun hreopens => ?_⟩
  have htracked : IsTracked (fresh.after [.save .sample, .save stranger, sampleSwap stranger]) := by
    refine isTracked_after isSettled_fresh.isTracked ?_ htakes
    simp only [List.forall_mem_cons]
    exact ⟨Record.isRepresentable_sample, isRepresentable_stranger, isRepresentable_stranger,
      List.forall_mem_nil _⟩
  have hown := (htracked _ rfl).reopensAs_iff.mp hreopens
  exact absurd (hown.own Record.sample.device stranger rfl) (by decide)

end DeviceAuth.Store
