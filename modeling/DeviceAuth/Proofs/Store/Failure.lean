import DeviceAuth.Proofs.Store.Rewriting

/-! What is left of an operation whose snapshot cannot be written. The disk goes on holding the
snapshot before it, but memory holds the records after it. -/
namespace DeviceAuth.Store

namespace Disk

variable {d d' : Disk}

theorem locate_of_find? {path : String} {e : DiskEntry} (h : d.find? path = some e) :
    ∃ l, d.locate path = .ok l ∧ d.get? l = some e := by
  unfold find? at h
  split at h
  · rename_i l hl
    exact ⟨l, hl, h⟩
  · cases h

theorem read_congr {path : String} {e : DiskEntry} (h : d.find? path = some e)
    (h' : d'.find? path = some e) : d'.read path = d.read path := by
  obtain ⟨l, hl, he⟩ := locate_of_find? h
  obtain ⟨l', hl', he'⟩ := locate_of_find? h'
  rw [Disk.read, Disk.read, hl, hl']
  simp only [bind, Except.bind, he, he']

theorem find?_eq (d : Disk) (path : String) :
    d.find? path =
      if path.toList.contains '\x00' = true then none
      else match d.walk [] (FilePath.components path) with
        | .error _ => none
        | .ok l =>
          if FilePath.namesDirectory path = true ∧ d.get? l ≠ some .directory then none
          else d.get? l := by
  unfold find? locate
  by_cases hnul : path.toList.contains '\x00' = true
  · rw [if_pos hnul, if_pos hnul]
    rfl
  · rw [if_neg hnul, if_neg hnul]
    cases hwalk : d.walk [] (FilePath.components path) with
    | error fault => rfl
    | ok l =>
      simp only [bind, Except.bind]
      cases hl : d.get? l with
      | none => simp [pure, Except.pure, hl]
      | some e =>
        cases e with
        | directory => simp [pure, Except.pure, hl]
        | file bytes =>
          cases hname : FilePath.namesDirectory path with
          | true => simp [throw, throwThe, MonadExceptOf.throw]
          | false => simp [pure, Except.pure, hl]

/-- A file elsewhere does not change what stands at a path. -/
theorem find?_put_file {path : String} {l : Location} {bytes : List UInt8}
    (hl : d.get? l ≠ some .directory)
    (h : FilePath.namesDirectory path = false → d.locate path ≠ .ok l) :
    (d.put l (.file bytes)).find? path = d.find? path := by
  have hkeeps : d.KeepsDirectories (d.put l (.file bytes)) :=
    keepsDirectories_put fun hdirectory => absurd hdirectory hl
  rw [find?_eq, find?_eq]
  by_cases hnul : path.toList.contains '\x00' = true
  · rw [if_pos hnul, if_pos hnul]
  · rw [if_neg hnul, if_neg hnul]
    cases hwalk : d.walk [] (FilePath.components path) with
    | error fault =>
      cases hwalk' : (d.put l (.file bytes)).walk [] (FilePath.components path) with
      | error fault' => rfl
      | ok p =>
        have hback := walk_keeps keepsDirectories_of_put_file hwalk'
        rw [hwalk] at hback
        cases hback
    | ok p =>
      rw [walk_keeps hkeeps hwalk]
      dsimp only
      by_cases hp : p = l
      · subst hp
        have hname : FilePath.namesDirectory path = true := by
          by_contra hname
          rw [Bool.not_eq_true] at hname hnul
          exact h hname (locate_of_walk hnul hwalk hname)
        have hput : (d.put p (.file bytes)).get? p ≠ some .directory := by
          rw [get?_put_file hl]
          exact nofun
        rw [if_pos ⟨hname, hput⟩, if_pos ⟨hname, hl⟩]
      · have hget : (d.put l (.file bytes)).get? p = d.get? p := by
          rw [get?_put, if_neg hp]
          split_ifs with hroot
          · exact hroot ▸ d.get?_root.symm
          · rfl
        rw [hget]

end Disk

namespace FileStore

variable {path : String} {t : Table} {d d' : Disk}

theorem load_congr (h : d'.find? path = d.find? path) : load path d' = load path d := by
  unfold load
  rw [h]
  cases hfound : d.find? path with
  | none => rfl
  | some e => rw [Disk.read_congr hfound (h.trans hfound)]

theorem find?_of_writing_error {bytes : List UInt8} {e : StoreError}
    (h : perform (writing path bytes) d = (.error e, d')) : d'.find? path = d.find? path := by
  obtain ⟨_, hnone⟩ | ⟨l, _, ht, hwritten⟩ | ⟨l, t, hs⟩ := writing_cases path d
  · rw [hnone] at h
    cases h
    rfl
  · rw [hwritten] at h
    cases h
    refine Disk.find?_put_file ht.free fun hname hpath => ?_
    -- A temporary file that is the snapshot itself takes its own place.
    have hs : TakesSnapshot path d l l := ⟨ht, hpath, hname, ht.free⟩
    have hdone := hs.perform_writing bytes
    rw [hwritten] at hdone
    cases hdone
  · rw [hs.perform_writing] at h
    cases h

def ReopensAs (path : String) (d : Disk) (t : Table) : Prop :=
  ∃ u d', atPath path d = .ok (⟨path, u⟩, d') ∧ u.SameRecords t

theorem ReopensAs.persist_error {u : Table} {e : StoreError} (h : ReopensAs path d t)
    (hpersist : persist path u d = (.error e, d')) : ReopensAs path d' t := by
  obtain ⟨v, d₁, hopen, hsame⟩ := h
  obtain ⟨hmade, -, hload⟩ := atPath_ok hopen
  have hwriting : perform (writing path (Text.utf8 (snapshotText u))) d₁ = (.error e, d') :=
    (perform_append hmade _).symm.trans hpersist
  have hkeeps : d₁.KeepsDirectories d' := by
    have hkeeps := perform_keeps (writing path (Text.utf8 (snapshotText u))) d₁
    rwa [hwriting] at hkeeps
  refine ⟨v, d', ?_, hsame⟩
  unfold atPath
  rw [directoryStage_again hmade hkeeps]
  simp only [bind, Except.bind, load_congr (find?_of_writing_error hwriting), hload]
  rfl

end FileStore

/-- What an operation writes is what is there already. -/
def Operation.IsIdle (t : Table) : Operation → Prop
  | .save record => t.get? record.device = some record
  | .swap device _ replacement => t.get? device = some replacement
  | .signOut device _ => ∃ r, t.get? device = some r ∧ r.isSignedOut
  | .remove _ => False
  | .fetch _ | .find _ | .list _ => True

namespace Table

variable {t u : Table}

theorem insert_of_get? {device : DeviceId} {record : Record}
    (h : t.get? device = some record) : t.insert device record = t := by
  obtain ⟨entries⟩ := t
  have hentries : insertEntry device record entries = entries := by
    induction entries with
    | nil => cases h
    | cons e rest ih =>
      obtain ⟨d, r⟩ := e
      by_cases hd : d = device
      · subst hd
        have hr : r = record := by simpa [get?] using h
        rw [insertEntry, if_pos rfl, hr]
      · have hrest : get? ⟨rest⟩ device = some record := by simpa [get?, hd] using h
        rw [insertEntry, if_neg hd, ih hrest]
  rw [insert, hentries]

theorem next_of_isIdle {op : Operation} (h : op.IsIdle t) : t.next op = t := by
  cases op with
  | fetch _ | find _ | list _ => rfl
  | save record => exact insert_of_get? h
  | swap device expected replacement =>
    simp only [next, apply]
    split
    · exact insert_of_get? h
    · rfl
  | signOut device now =>
    obtain ⟨r, hr, hended⟩ := h
    have hsame : r.signOut now = r := by
      obtain ⟨ended, hended⟩ := Option.isSome_iff_exists.mp hended
      rw [Record.signOut, hended, Option.getD_some, ← hended]
    simp only [next, apply, hr, hsame, Option.getD_some]
    exact insert_of_get? hr
  | remove device => cases h

theorem isIdle_of_get? {op : Operation} (hwrites : (t.apply op).2 = some u)
    (h : ∀ device, op.target? = some device → u.get? device = t.get? device) : op.IsIdle t := by
  cases op with
  | fetch _ | find _ | list _ => trivial
  | save record =>
    cases hwrites
    have hget := h record.device rfl
    rw [get?_insert, if_pos rfl] at hget
    exact hget.symm
  | swap device expected replacement =>
    have hget := h device rfl
    simp only [apply] at hwrites
    split at hwrites
    · cases hwrites
      rw [get?_insert, if_pos rfl] at hget
      exact hget.symm
    · cases hwrites
  | signOut device now =>
    have hget := h device rfl
    simp only [apply] at hwrites
    split at hwrites
    · cases hwrites
    · rename_i r hr
      cases hwrites
      rw [get?_insert, if_pos rfl, hr] at hget
      have hsame : r.signOut now = r := Option.some.inj hget
      exact ⟨r, hr, hsame ▸ rfl⟩
  | remove device =>
    have hget := h device rfl
    simp only [apply] at hwrites
    split at hwrites
    · cases hwrites
    · rename_i r hr
      cases hwrites
      rw [get?_erase, if_pos rfl, hr] at hget
      cases hget

end Table

/-- A store behind an operation that failed is as good as the store before it: it answers what it
answered, writes what it would have written, and opens with the records it has. -/
structure NoEffect (f : FileStore) (d : Disk) (f' : FileStore) (d' : Disk) : Prop where
  reads : ∀ op : Operation, op.target? = none → (f'.apply d' op).1 = (f.apply d op).1
  later : ∀ (op : Operation) (d₂ : Disk) (result : op.Result), (f'.apply d₂ op).1 = .ok result →
    FileStore.atPath f.path (f'.apply d₂ op).2.2 = FileStore.atPath f.path (f.apply d₂ op).2.2
  reopens : FileStore.ReopensAs f.path d' f'.table

/-- The disk keeps the records from before an operation that fails, and memory those behind it. So
the operation is without effect only if it would write what is there already. -/
theorem noEffect_iff_of_apply_error {f f' : FileStore} {d d' : Disk} {op : Operation}
    {e : StoreError} (h : FileStore.ReopensAs f.path d f.table)
    (happly : f.apply d op = (.error e, f', d')) :
    FileStore.ReopensAs f.path d' f.table ∧ f' = ⟨f.path, f.table.next op⟩ ∧
      (NoEffect f d f' d' ↔ op.IsIdle f.table) := by
  rcases f.apply_cases d op with ⟨-, heq⟩ | ⟨t, hwrites, heq⟩
  · rw [heq] at happly
    cases happly
  have hnext : f.table.next op = t := by rw [Table.next, hwrites]; rfl
  rw [heq] at happly
  obtain ⟨hresult, hrest⟩ := Prod.mk.inj happly
  obtain ⟨rfl, rfl⟩ := Prod.mk.inj hrest
  have hpersist : FileStore.persist f.path t d = (.error e, (FileStore.persist f.path t d).2) := by
    refine Prod.ext ?_ rfl
    cases hwritten : (FileStore.persist f.path t d).1 with
    | error e' =>
      rw [hwritten] at hresult
      cases hresult
      rfl
    | ok _ =>
      rw [hwritten] at hresult
      cases hresult
  have hreopens := h.persist_error hpersist
  refine ⟨hreopens, by rw [hnext], fun hnone => ?_, fun hidle => ?_⟩
  · refine Table.isIdle_of_get? hwrites fun device _ => ?_
    have hfetch := hnone.reads (.fetch device) rfl
    exact Except.ok.inj hfetch
  · rw [Table.next_of_isIdle hidle] at hnext
    subst hnext
    refine ⟨fun read hread => ?_, fun _ _ _ _ => rfl, hreopens⟩
    cases read with
    | fetch _ | find _ | list _ => rfl
    | save _ | swap _ _ _ | signOut _ _ | remove _ => cases hread

def obstructed (entries : List (Location × DiskEntry)) : Disk :=
  ⟨(["x.tmp"], .directory) :: entries⟩

theorem atPath_obstructed {entries : List (Location × DiskEntry)} {t : Table}
    (h : FileStore.load "x" (obstructed entries) = .ok t) :
    FileStore.atPath "x" (obstructed entries) = .ok (⟨"x", t⟩, obstructed entries) := by
  have hparent : FilePath.parent? "x" = some "" := by decide +kernel
  rw [FileStore.atPath, FileStore.directoryStage_of_parent hparent]
  simp only [bind, Except.bind, h]
  rfl

theorem apply_save_obstructed (entries : List (Location × DiskEntry)) (t : Table) (r : Record) :
    FileStore.apply ⟨"x", t⟩ (obstructed entries) (.save r) =
      (.error (.backend "Failed to create x.tmp: Is a directory (os error 21)"),
        ⟨"x", t.insert r.device r⟩, obstructed entries) := by
  have hparent : FilePath.parent? "x" = some "" := by decide +kernel
  have htemporary : FileStore.temporaryPath "x" = "x.tmp" := by decide +kernel
  have hcomponents : FilePath.components "x.tmp" = ["x.tmp"] := by decide +kernel
  have hlocate : (obstructed entries).locate "x.tmp" = .ok ["x.tmp"] := by
    refine Disk.locate_of_walk (by decide) ?_ (by decide)
    rw [hcomponents]
    rfl
  have hcreate : (obstructed entries).act (.create "x.tmp") = .error .isDirectory := by
    rw [Disk.act, hlocate]
    rfl
  simp only [FileStore.apply, Table.apply, FileStore.persist, FileStore.stages,
    FileStore.perform_append (FileStore.directoryStage_of_parent hparent _), FileStore.perform,
    htemporary, hcreate]
  rfl

theorem reopensAs_obstructed {t : Table} (hw : t.WellFormed) (hr : t.IsRepresentable) :
    FileStore.ReopensAs "x"
      (obstructed [(["x"], .file (Text.utf8 (FileStore.snapshotText t)))]) t := by
  have hcomponents : FilePath.components "x" = ["x"] := by decide +kernel
  have hholds : ∀ bytes, (obstructed [(["x"], .file bytes)]).Holds "x" bytes := by
    intro bytes
    refine ⟨by decide, ["x"], Disk.locate_of_walk (by decide) ?_ (by decide), rfl⟩
    rw [hcomponents]
    rfl
  have hload := FileStore.load_of_holds (hholds _) hr
  exact ⟨_, _, atPath_obstructed hload, hw.sameRecords_ofRecords⟩

def Table.sample : Table := Table.empty.insert Record.sample.device .sample

theorem Table.isRepresentable_sample : Table.sample.IsRepresentable := by
  intro r hr
  rcases Table.mem_records_insert hr with rfl | hr
  · exact Record.isRepresentable_sample
  · cases hr

/-- A record that is saved a second time is not written, but nothing is lost. -/
theorem noEffect_save_again :
    ∃ (d : Disk) (e : StoreError), FileStore.ReopensAs "x" d .sample ∧
      FileStore.apply ⟨"x", .sample⟩ d (.save .sample) = (.error e, ⟨"x", .sample⟩, d) ∧
        NoEffect ⟨"x", .sample⟩ d ⟨"x", .sample⟩ d := by
  have hfound : Table.sample.get? Record.sample.device = some .sample := by
    rw [Table.sample, Table.get?_insert, if_pos rfl]
  have hw : Table.sample.WellFormed := Table.wellFormed_empty.insert rfl
  have hreopens := reopensAs_obstructed hw Table.isRepresentable_sample
  have happly := apply_save_obstructed
    [(["x"], .file (Text.utf8 (FileStore.snapshotText .sample)))] .sample .sample
  rw [Table.insert_of_get? hfound] at happly
  have hnone := noEffect_iff_of_apply_error (f := ⟨"x", .sample⟩) hreopens happly
  exact ⟨_, _, hreopens, happly, hnone.2.2.mpr hfound⟩

/-- A record that is saved first and not written is there until the store is opened again. -/
theorem not_noEffect_save :
    FileStore.ReopensAs "x" (obstructed []) .empty ∧
      FileStore.apply ⟨"x", .empty⟩ (obstructed []) (.save .sample) =
        (.error (.backend "Failed to create x.tmp: Is a directory (os error 21)"),
          ⟨"x", .sample⟩, obstructed []) ∧
      ¬ NoEffect ⟨"x", .empty⟩ (obstructed []) ⟨"x", .sample⟩ (obstructed []) := by
  have hload : FileStore.load "x" (obstructed []) = .ok .empty := by decide +kernel
  refine ⟨⟨.empty, _, atPath_obstructed hload, .refl _⟩,
    apply_save_obstructed [] .empty .sample, ?_⟩
  intro hnone
  have hfetch := hnone.reads (.fetch Record.sample.device) rfl
  cases hfetch

end DeviceAuth.Store
