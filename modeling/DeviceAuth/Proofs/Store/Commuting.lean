import DeviceAuth.Proofs.Store.Keys
import DeviceAuth.Proofs.Store.Rewriting

/-! Operations on different devices. Each is answered as if the others had not been, and in whatever
order they are carried out the same records and the same files are left. -/
namespace DeviceAuth.Store

/-- The device whose record an operation looks at or changes, if it is about a single one. -/
def Operation.device? : Operation → Option DeviceId
  | .save record => some record.device
  | .fetch device => some device
  | .swap device _ _ => some device
  | .signOut device _ => some device
  | .remove device => some device
  | .find _ | .list _ => none

variable {D E : DeviceId → Prop}

/-- The operation is about one of some devices, and puts no record of another in its place. -/
structure Operation.Concerns (D : DeviceId → Prop) (op : Operation) : Prop where
  keyed : op.IsKeyed
  device : ∃ d, op.device? = some d ∧ D d

theorem Operation.device?_of_target? {op : Operation} {d : DeviceId} (h : op.target? = some d) :
    op.device? = some d := by
  cases op with
  | fetch _ | find _ | list _ => cases h
  | _ => exact h

theorem Operation.Concerns.target?_ne {op : Operation} (h : op.Concerns D) {d : DeviceId}
    (hd : ¬D d) : op.target? ≠ some d := by
  intro htarget
  obtain ⟨d', hdevice, hd'⟩ := h.device
  rw [Operation.device?_of_target? htarget] at hdevice
  exact hd (Option.some.inj hdevice ▸ hd')

theorem Table.apply_congr {t u : Table} {op : Operation} {d : DeviceId} (hop : op.device? = some d)
    (h : t.get? d = u.get? d) :
    (t.apply op).1 = (u.apply op).1 ∧
      (t.apply op).2.map (·.get? d) = (u.apply op).2.map (·.get? d) := by
  cases op with
  | find _ | list _ => cases hop
  | save record =>
    obtain rfl := Option.some.inj hop
    exact ⟨rfl, by simp [apply, get?_insert]⟩
  | fetch device =>
    obtain rfl := Option.some.inj hop
    exact ⟨h, rfl⟩
  | swap device expected replacement =>
    obtain rfl := Option.some.inj hop
    have houtcome : t.swapOutcome device expected = u.swapOutcome device expected := by
      rw [swapOutcome, swapOutcome, h]
    refine ⟨houtcome, ?_⟩
    simp only [apply, houtcome]
    split <;> simp [get?_insert]
  | signOut device now =>
    obtain rfl := Option.some.inj hop
    simp only [apply, h]
    cases u.get? device <;> simp [get?_insert]
  | remove device =>
    obtain rfl := Option.some.inj hop
    simp only [apply, h]
    cases u.get? device <;> simp [get?_erase]

theorem Table.get?_next (t : Table) (op : Operation) (d : DeviceId) :
    (t.next op).get? d = ((t.apply op).2.map (·.get? d)).getD (t.get? d) := by
  rw [next]
  cases (t.apply op).2 <;> rfl

def Backend.withTable : Backend → Table → Backend
  | .memory _, t => .memory t
  | .file f, t => .file ⟨f.path, t⟩

@[simp] theorem Backend.table_withTable (b : Backend) (t : Table) : (b.withTable t).table = t := by
  cases b <;> rfl

@[simp] theorem Backend.withTable_withTable (b : Backend) (t u : Table) :
    (b.withTable t).withTable u = b.withTable u := by
  cases b <;> rfl

/-- What comes of writing records down, if the store does that. -/
def write (s : Store) (t : Table) : Except StoreError Unit × Disk :=
  match s.backend with
  | .memory _ => (.ok (), s.disk)
  | .file f => FileStore.persist f.path t s.disk

def put (s : Store) (t : Table) : Store := ⟨s.backend.withTable t, (s.write t).2, s.refused⟩

@[simp] theorem table_put (s : Store) (t : Table) : (s.put t).table = t :=
  Backend.table_withTable _ _

theorem write_congr (s : Store) (t u : Table) : (s.write t).1 = (s.write u).1 := by
  unfold write
  split
  · rfl
  · exact (FileStore.persist_again _ t u s.disk).1

theorem write_put (s : Store) (t u : Table) :
    ((s.put t).write u).1 = (s.write u).1 ∧
      ∀ l, ((s.put t).write u).2.get? l = (s.write u).2.get? l := by
  obtain ⟨backend, disk, refused⟩ := s
  cases backend with
  | memory _ => exact ⟨rfl, fun _ => rfl⟩
  | file f => exact (FileStore.persist_again f.path t u disk).2

/-- The operation is carried out, and changes the records. -/
def Writes (s : Store) (op : Operation) : Prop :=
  op.kind ∉ s.refused ∧ (s.table.apply op).2 ≠ none

theorem apply_of_refused {s : Store} {op : Operation} (h : op.kind ∈ s.refused) :
    s.apply op = (.error (.backend (op.kind.name ++ " rejected")), s) := by
  rw [apply, if_pos h]

theorem apply_of_not_refused {s : Store} {op : Operation} (h : op.kind ∉ s.refused) :
    s.apply op =
      match (s.table.apply op).2 with
      | none => (.ok (s.table.apply op).1, s)
      | some t => ((s.write t).1.map fun _ => (s.table.apply op).1, s.put t) := by
  obtain ⟨backend, disk, refused⟩ := s
  rw [apply, if_neg h]
  cases backend with
  | memory t =>
    simp only [Backend.apply, table, Backend.table, put, write]
    rcases t.apply op with ⟨x, _ | u⟩ <;> rfl
  | file f =>
    simp only [Backend.apply, FileStore.apply, table, Backend.table, put, write]
    rcases f.table.apply op with ⟨x, _ | u⟩ <;> rfl

theorem store_apply_cases (s : Store) (op : Operation) :
    (¬s.Writes op ∧ (s.apply op).2 = s) ∨ (s.Writes op ∧ ∃ t, (s.apply op).2 = s.put t) := by
  by_cases hrefused : op.kind ∈ s.refused
  · exact .inl ⟨fun hwrites => hwrites.1 hrefused, by rw [apply_of_refused hrefused]⟩
  · rw [apply_of_not_refused hrefused]
    cases hchanged : (s.table.apply op).2 with
    | none => exact .inl ⟨fun hwrites => hwrites.2 hchanged, rfl⟩
    | some t => exact .inr ⟨⟨hrefused, by simp [hchanged]⟩, t, rfl⟩

/-- Stores that cannot be told apart by operations on some devices. -/
structure SameFor (D : DeviceId → Prop) (s u : Store) : Prop where
  refused : s.refused = u.refused
  write : ∀ t, (s.write t).1 = (u.write t).1
  record : ∀ d, D d → s.table.get? d = u.table.get? d

variable {s u v : Store}

theorem SameFor.refl (s : Store) : s.SameFor D s := ⟨rfl, fun _ => rfl, fun _ _ => rfl⟩

theorem SameFor.trans (h : s.SameFor D u) (h' : u.SameFor D v) : s.SameFor D v :=
  ⟨h.refused.trans h'.refused, fun t => (h.write t).trans (h'.write t),
    fun d hd => (h.record d hd).trans (h'.record d hd)⟩

theorem refused_apply (s : Store) (op : Operation) : (s.apply op).2.refused = s.refused := by
  obtain ⟨-, heq⟩ | ⟨-, t, heq⟩ := store_apply_cases s op <;> rw [heq]
  rfl

theorem write_apply (s : Store) (op : Operation) (t : Table) :
    ((s.apply op).2.write t).1 = (s.write t).1 := by
  obtain ⟨-, heq⟩ | ⟨-, changed, heq⟩ := store_apply_cases s op <;> rw [heq]
  exact (write_put s changed t).1

/-- The answer to an operation, and what it does to some devices, are the same on stores that are
the same for these devices. -/
theorem SameFor.apply (h : s.SameFor D u) {op : Operation} (hop : op.Concerns D) :
    (s.apply op).1 = (u.apply op).1 ∧ (s.apply op).2.SameFor D (u.apply op).2 ∧
      (s.Writes op ↔ u.Writes op) := by
  obtain ⟨d, hdevice, hd⟩ := hop.device
  obtain ⟨hanswer, hchange⟩ := Table.apply_congr hdevice (h.record d hd)
  have hnext : (s.table.next op).get? d = (u.table.next op).get? d := by
    rw [Table.get?_next, Table.get?_next, hchange, h.record d hd]
  refine ⟨?_, ⟨?_, fun t => ?_, fun d' hd' => ?_⟩, ?_⟩
  · by_cases hrefused : op.kind ∈ s.refused
    · rw [apply_of_refused hrefused, apply_of_refused (h.refused ▸ hrefused)]
    · rw [apply_of_not_refused hrefused, apply_of_not_refused (h.refused ▸ hrefused)]
      cases ht : (s.table.apply op).2 with
      | none =>
        cases hu : (u.table.apply op).2 with
        | none => exact congrArg Except.ok hanswer
        | some t' => simp [ht, hu] at hchange
      | some t =>
        cases hu : (u.table.apply op).2 with
        | none => simp [ht, hu] at hchange
        | some t' =>
          have hwrite := (h.write t).trans (write_congr u t t')
          simp only [hwrite, hanswer]
  · rw [refused_apply, refused_apply, h.refused]
  · rw [write_apply, write_apply, h.write]
  · by_cases heq : d' = d
    · subst heq
      rw [table_apply, table_apply, h.refused]
      split
      · exact h.record d' hd'
      · exact hnext
    · have htarget : op.target? ≠ some d' := by
        intro htarget
        rw [Operation.device?_of_target? htarget] at hdevice
        exact heq (Option.some.inj hdevice)
      rw [get?_table_apply_of_ne htarget, get?_table_apply_of_ne htarget, h.record d' hd']
  · have hnone : (s.table.apply op).2 = none ↔ (u.table.apply op).2 = none := by
      simpa using congrArg (· = none) hchange
    rw [Writes, Writes, h.refused, ne_eq, ne_eq, hnone]

def Wrote : Store → List Operation → Prop
  | _, [] => False
  | s, op :: ops => s.Writes op ∨ (s.apply op).2.Wrote ops

theorem after_cons (s : Store) (op : Operation) (ops : List Operation) :
    s.after (op :: ops) = (s.apply op).2.after ops := rfl

theorem after_append (s : Store) (ops ops' : List Operation) :
    s.after (ops ++ ops') = (s.after ops).after ops' := List.foldl_append

theorem wrote_append (s : Store) (ops ops' : List Operation) :
    s.Wrote (ops ++ ops') ↔ s.Wrote ops ∨ (s.after ops).Wrote ops' := by
  induction ops generalizing s with
  | nil => exact iff_of_eq (false_or _).symm
  | cons op ops ih =>
    rw [List.cons_append, Wrote, Wrote, ih, or_assoc, after_cons]

variable {ops : List Operation}

theorem SameFor.after (h : s.SameFor D u) (hops : ∀ op ∈ ops, op.Concerns D) :
    (s.after ops).SameFor D (u.after ops) ∧ (s.Wrote ops ↔ u.Wrote ops) := by
  induction ops generalizing s u with
  | nil => exact ⟨h, .rfl⟩
  | cons op ops ih =>
    obtain ⟨hop, hops⟩ := List.forall_mem_cons.mp hops
    obtain ⟨-, hafter, hwrites⟩ := h.apply hop
    obtain ⟨hafter, hwrote⟩ := ih hafter hops
    exact ⟨hafter, or_congr hwrites hwrote⟩

theorem sameFor_after (hops : ∀ op ∈ ops, op.Concerns E) (hapart : ∀ d, D d → ¬E d) :
    s.SameFor D (s.after ops) := by
  induction ops generalizing s with
  | nil => exact .refl s
  | cons op ops ih =>
    obtain ⟨hop, hops⟩ := List.forall_mem_cons.mp hops
    have hfirst : s.SameFor D (s.apply op).2 :=
      ⟨(refused_apply s op).symm, fun t => (write_apply s op t).symm,
        fun d hd => (get?_table_apply_of_ne (hop.target?_ne (hapart d hd))).symm⟩
    exact hfirst.trans (ih hops)

theorem get?_after (hops : ∀ op ∈ ops, op.Concerns D) {d : DeviceId} (hd : ¬D d) :
    (s.after ops).table.get? d = s.table.get? d :=
  ((sameFor_after (D := fun d => ¬D d) hops fun _ => id).record d hd).symm

theorem wellFormed_after (h : s.table.WellFormed) (hops : ∀ op ∈ ops, op.IsKeyed) :
    (s.after ops).table.WellFormed := by
  induction ops generalizing s with
  | nil => exact h
  | cons op ops ih =>
    obtain ⟨hop, hops⟩ := List.forall_mem_cons.mp hops
    refine ih ?_ hops
    rw [table_apply]
    split
    · exact h
    · exact h.next hop

theorem after_cases (s : Store) (ops : List Operation) :
    (¬s.Wrote ops ∧ s.after ops = s) ∨
      (s.Wrote ops ∧ (s.after ops).backend = s.backend.withTable (s.after ops).table ∧
        (s.after ops).refused = s.refused ∧
        ∀ l, (s.after ops).disk.get? l = (s.write (s.after ops).table).2.get? l) := by
  induction ops generalizing s with
  | nil => exact .inl ⟨id, rfl⟩
  | cons op ops ih =>
    have hrest := ih (s.apply op).2
    rw [after_cons, Wrote]
    obtain ⟨hwrites, heq⟩ | ⟨hwrites, t, heq⟩ := store_apply_cases s op
    · rw [heq] at hrest ⊢
      simpa only [hwrites, false_or] using hrest
    · rw [heq] at hrest ⊢
      refine .inr ⟨.inl hwrites, ?_⟩
      obtain ⟨-, hsame⟩ | ⟨-, hbackend, hrefused, hdisk⟩ := hrest
      · rw [hsame, table_put]
        exact ⟨rfl, rfl, fun _ => rfl⟩
      · refine ⟨?_, hrefused, fun l => (hdisk l).trans ((write_put s t _).2 l)⟩
        exact hbackend.trans (Backend.withTable_withTable _ _ _)

def Backend.path? : Backend → Option String
  | .memory _ => none
  | .file f => some f.path

@[simp] theorem Backend.path?_withTable (b : Backend) (t : Table) :
    (b.withTable t).path? = b.path? := by
  cases b <;> rfl

/-- Stores with the same records and the same files. -/
structure Same (s u : Store) : Prop where
  path : s.backend.path? = u.backend.path?
  refused : s.refused = u.refused
  records : s.table.SameRecords u.table
  files : ∀ l, s.disk.get? l = u.disk.get? l

theorem write_eq_of_sameRecords (s : Store) {t t' : Table} (ht : t.WellFormed)
    (h : t.SameRecords t') : s.write t = s.write t' := by
  have hsort : Table.sortByDevice t.records = Table.sortByDevice t'.records :=
    Table.sortByDevice_congr h.records fun a ha b hb => ht.eq_of_device_eq ha hb
  unfold write FileStore.persist FileStore.snapshotText
  rw [hsort]

theorem same_after {ops ops' : List Operation} (ht : (s.after ops).table.WellFormed)
    (hrecords : (s.after ops).table.SameRecords (s.after ops').table)
    (hwrote : s.Wrote ops ↔ s.Wrote ops') : Same (s.after ops) (s.after ops') := by
  obtain ⟨hnone, heq⟩ | ⟨hsome, hbackend, hrefused, hdisk⟩ := after_cases s ops
  · obtain ⟨-, heq'⟩ | ⟨hsome', -⟩ := after_cases s ops'
    · rw [heq, heq']
      exact ⟨rfl, rfl, .refl _, fun _ => rfl⟩
    · exact absurd (hwrote.mpr hsome') hnone
  · obtain ⟨hnone', -⟩ | ⟨-, hbackend', hrefused', hdisk'⟩ := after_cases s ops'
    · exact absurd (hwrote.mp hsome) hnone'
    · refine ⟨?_, hrefused.trans hrefused'.symm, hrecords, fun l => ?_⟩
      · rw [hbackend, hbackend', Backend.path?_withTable, Backend.path?_withTable]
      · rw [hdisk, hdisk', write_eq_of_sameRecords s ht hrecords]

theorem after_comm {ops ops' : List Operation} (hs : s.table.WellFormed)
    (hops : ∀ op ∈ ops, op.Concerns D) (hops' : ∀ op ∈ ops', op.Concerns E)
    (hapart : ∀ d, D d → ¬E d) : Same ((s.after ops).after ops') ((s.after ops').after ops) := by
  have hapart' : ∀ d, E d → ¬D d := fun d he hd => hapart d hd he
  have hunseen : s.SameFor D (s.after ops') := sameFor_after hops' hapart
  have hunseen' : s.SameFor E (s.after ops) := sameFor_after hops hapart'
  have hkeyed : ∀ op ∈ ops, op.IsKeyed := fun op hop => (hops op hop).keyed
  have hkeyed' : ∀ op ∈ ops', op.IsKeyed := fun op hop => (hops' op hop).keyed
  have hafter := wellFormed_after (wellFormed_after hs hkeyed) hkeyed'
  have hafter' := wellFormed_after (wellFormed_after hs hkeyed') hkeyed
  have hget (d : DeviceId) :
      ((s.after ops).after ops').table.get? d = ((s.after ops').after ops).table.get? d := by
    by_cases hd : D d
    · rw [get?_after hops' (hapart d hd)]
      exact (hunseen.after hops).1.record d hd
    · rw [get?_after hops hd]
      by_cases he : E d
      · exact ((hunseen'.after hops').1.record d he).symm
      · rw [get?_after hops' he, get?_after hops hd, get?_after hops' he]
  rw [← after_append] at hafter hget ⊢
  rw [← after_append] at hafter' hget ⊢
  refine same_after hafter ((Table.sameRecords_iff hafter hafter').mpr hget) ?_
  rw [wrote_append, wrote_append, or_comm, (hunseen.after hops).2, (hunseen'.after hops').2]

end DeviceAuth.Store
