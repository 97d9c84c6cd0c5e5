import DeviceAuth.Proofs.Store.Directory
import DeviceAuth.Proofs.Store.Refinement

/-! Databases of one directory. Each has two files there and touches nothing else, and all that it
does depends on these two files; so none is disturbed by what is done to the others. -/
namespace DeviceAuth.Store

/-- What a name needs to be that of a file in a directory. -/
structure IsDatabase (name : String) : Prop where
  ne_empty : name ≠ ""
  slash : '/' ∉ name.toList

/-- The snapshot of a database of the directory at `dir`, and the file it is first written to. -/
def Owns (dir : Location) (database : String) (l : Location) : Prop :=
  l = dir ++ [database ++ ".json"] ∨ l = dir ++ [database ++ ".tmp"]

theorem Owns.unique {dir l : Location} {a b : String} (ha : Owns dir a l) (hb : Owns dir b l) :
    a = b := by
  have hname {x y : String} (hx : l = dir ++ [x]) (hy : l = dir ++ [y]) : x.toList = y.toList := by
    have hsame := hx.symm.trans hy
    simp only [List.append_cancel_left_eq, List.cons.injEq, and_true] at hsame
    rw [hsame]
  obtain ha | ha := ha <;> obtain hb | hb := hb <;> have h := hname ha hb
  · exact String.toList_injective (by simpa using h)
  · have hlast := congrArg List.getLast? h
    simp at hlast
  · have hlast := congrArg List.getLast? h
    simp at hlast
  · exact String.toList_injective (by simpa using h)

namespace Disk

variable {P : Location → Prop} {d d' : Disk} {l : Location}

def AgreeOn (P : Location → Prop) (d d' : Disk) : Prop := ∀ l, P l → d.get? l = d'.get? l

theorem AgreeOn.trans {d'' : Disk} (h : AgreeOn P d d') (h' : AgreeOn P d' d'') :
    AgreeOn P d d'' := fun l hl => (h l hl).trans (h' l hl)

theorem AgreeOn.put (h : AgreeOn P d d') (l : Location) (e : DiskEntry) :
    AgreeOn P (d.put l e) (d'.put l e) := by
  intro l' hl'
  rw [get?_put, get?_put, h l' hl']

theorem AgreeOn.delete (h : AgreeOn P d d') (l : Location) :
    AgreeOn P (d.delete l) (d'.delete l) := by
  intro l' hl'
  rw [get?_delete, get?_delete, h l' hl']

theorem agreeOn_put (hl : ¬P l) (e : DiskEntry) : AgreeOn P (d.put l e) d := by
  intro l' hl'
  rw [get?_put]
  split_ifs with hroot heq
  · exact hroot ▸ d.get?_root.symm
  · exact absurd (heq ▸ hl') hl
  · rfl

theorem agreeOn_delete (hl : ¬P l) : AgreeOn P (d.delete l) d := by
  intro l' hl'
  rw [get?_delete]
  split_ifs with hroot heq
  · exact hroot ▸ d.get?_root.symm
  · exact absurd (heq ▸ hl') hl
  · rfl

theorem Partly.keeps {action : Action} (h : d.Partly action d') : d.KeepsDirectories d' := by
  cases h with
  | untouched => exact .refl d
  | whole h => exact act_keeps h
  | directories _ h => exact (makeDirectories_ok h).1
  | torn _ _ _ hfile =>
    refine keepsDirectories_put fun hdirectory => ?_
    rw [hfile] at hdirectory
    cases hdirectory

end Disk

namespace FileStore

def pathIn (directory database : String) : String :=
  FilePath.join directory (database ++ ".json")

variable {directory database path : String} {dir : Location} {d d' : Disk}

def IsPath (directory database path : String) : Prop :=
  path = pathIn directory database ∨ path = temporaryPath (pathIn directory database)

theorem IsPath.exists_name (hpath : IsPath directory database path)
    (hdatabase : IsDatabase database) (dir : Location) :
    ∃ name, path = FilePath.join directory name ∧ '/' ∉ name.toList ∧ name ∉ ["", ".", ".."] ∧
      Owns dir database (dir ++ [name]) := by
  obtain rfl | rfl := hpath
  · exact ⟨database ++ ".json", rfl, by simp [hdatabase.slash],
      FilePath.append_not_mem_dots database (by decide), .inl rfl⟩
  · refine ⟨database ++ ".tmp", ?_, by simp [hdatabase.slash],
      FilePath.append_not_mem_dots database (by decide), .inr rfl⟩
    rw [temporaryPath, pathIn, FilePath.withExtension_join hdatabase.slash hdatabase.ne_empty]

theorem IsPath.owns_of_locate (hpath : IsPath directory database path)
    (hdatabase : IsDatabase database) (h : d.HasDirectory directory dir) {l : Location}
    (hl : d.locate path = .ok l) : Owns dir database l := by
  obtain ⟨name, rfl, hslash, hname, howns⟩ := hpath.exists_name hdatabase dir
  rw [h.locate hslash hname] at hl
  split at hl
  · cases hl
  · obtain ⟨_, -, rfl⟩ := Except.map_ok hl
    exact howns

theorem IsPath.locate_eq (hpath : IsPath directory database path)
    (hdatabase : IsDatabase database) (h : d.HasDirectory directory dir)
    (h' : d'.HasDirectory directory dir) : d.locate path = d'.locate path := by
  obtain ⟨name, rfl, hslash, hname, -⟩ := hpath.exists_name hdatabase dir
  rw [h.locate hslash hname, h'.locate hslash hname]

/-- What is done to the disk when a store is opened or its snapshot is written. -/
inductive IsStage (path : String) : Disk.Action → Prop
  | directory {parent : String} (h : FilePath.parent? path = some parent) :
    IsStage path (.makeDirectories parent)
  | create : IsStage path (.create (temporaryPath path))
  | append (bytes : List UInt8) : IsStage path (.append (temporaryPath path) bytes)
  | sync : IsStage path (.sync (temporaryPath path))
  | rename : IsStage path (.rename (temporaryPath path) path)

theorem isStage_of_mem_directoryStage {stage : Disk.Action × String}
    (h : stage ∈ directoryStage path) : IsStage path stage.1 := by
  unfold directoryStage at h
  split at h
  · cases h
  · rename_i parent hparent
    rw [List.mem_singleton.mp h]
    exact .directory hparent

theorem isStage_of_mem_stages {bytes : List UInt8} {stage : Disk.Action × String}
    (h : stage ∈ stages path bytes) : IsStage path stage.1 := by
  rw [stages_eq, List.mem_append] at h
  obtain h | h := h
  · exact isStage_of_mem_directoryStage h
  · simp only [writing, List.mem_cons, List.not_mem_nil, or_false] at h
    obtain rfl | rfl | rfl | rfl := h
    · exact .create
    · exact .append bytes
    · exact .sync
    · exact .rename

theorem act_parent (h : d.HasDirectory directory dir) (hdatabase : IsDatabase database)
    {parent : String} (hparent : FilePath.parent? (pathIn directory database) = some parent) :
    (d.act (.makeDirectories parent) =
      if parent.toList.contains '\x00' then .error .nulByte else .ok d) ∧
      ∀ names, names <+: FilePath.components parent → d.makeDirectories [] names = .ok d := by
  obtain ⟨parent', hparent', hcomponents⟩ :=
    FilePath.parent?_join directory hdatabase.slash
  cases hparent.symm.trans hparent'
  have hmade (names : List String) (hnames : names <+: FilePath.components parent) :
      d.makeDirectories [] names = .ok d :=
    Disk.makeDirectories_of_walk h.walk h.found (hcomponents ▸ hnames)
  refine ⟨?_, hmade⟩
  rw [Disk.act, hmade _ List.prefix_rfl]

theorem eq_of_partly_parent (h : d.HasDirectory directory dir) (hdatabase : IsDatabase database)
    {parent : String} (hparent : FilePath.parent? (pathIn directory database) = some parent)
    (hpartly : d.Partly (.makeDirectories parent) d') : d' = d := by
  obtain ⟨hact, hmade⟩ := act_parent h hdatabase hparent
  cases hpartly with
  | untouched => rfl
  | torn _ hunsynced _ _ => cases hunsynced
  | directories hnames hdone => exact Except.ok.inj (hdone.symm.trans (hmade _ hnames))
  | whole hdone =>
    rw [hact] at hdone
    split at hdone
    · cases hdone
    · exact (Except.ok.inj hdone).symm

/-- The disk is as before but for the files of one database. -/
structure Frame (directory : String) (dir : Location) (database : String) (d d' : Disk) : Prop where
  hasDirectory : d'.HasDirectory directory dir
  others : Disk.AgreeOn (fun l => ¬Owns dir database l) d' d

/-- However a stage stops, only files of the database are touched. -/
theorem frame_of_partly (h : d.HasDirectory directory dir) (hdatabase : IsDatabase database)
    {action : Disk.Action} (hstage : IsStage (pathIn directory database) action)
    (hpartly : d.Partly action d') : Frame directory dir database d d' := by
  refine ⟨h.keeps hpartly.keeps, ?_⟩
  have hsnapshot : IsPath directory database (pathIn directory database) := .inl rfl
  have htemporary : IsPath directory database (temporaryPath (pathIn directory database)) :=
    .inr rfl
  have hput {path : String} (hpath : IsPath directory database path) {l : Location}
      (hl : d.locate path = .ok l) : ¬¬Owns dir database l :=
    not_not_intro (hpath.owns_of_locate hdatabase h hl)
  have hunsynced (hwrites : action.unsynced? = some (temporaryPath (pathIn directory database))) :
      Disk.AgreeOn (fun l => ¬Owns dir database l) d' d := by
    obtain rfl | ⟨l, bytes, hl, rfl⟩ := hpartly.of_unsynced hwrites
    · exact fun _ _ => rfl
    · exact Disk.agreeOn_put (hput htemporary hl) _
  cases hstage with
  | directory hparent =>
    rw [eq_of_partly_parent h hdatabase hparent hpartly]
    exact fun _ _ => rfl
  | append bytes => exact hunsynced rfl
  | sync => exact hunsynced rfl
  | create =>
    cases hpartly with
    | untouched => exact fun _ _ => rfl
    | torn _ hwrites _ _ => cases hwrites
    | whole hact =>
      obtain ⟨l, hl, -, rfl⟩ := Disk.create_ok hact
      exact Disk.agreeOn_put (hput htemporary hl) _
  | rename =>
    cases hpartly with
    | untouched => exact fun _ _ => rfl
    | torn _ hwrites _ _ => cases hwrites
    | whole hact =>
      obtain ⟨source, target, bytes, hsource, htarget, -, -, rfl⟩ := Disk.rename_ok hact
      split_ifs
      · exact fun _ _ => rfl
      · exact (Disk.agreeOn_put (hput hsnapshot htarget) _).trans
          (Disk.agreeOn_delete (hput htemporary hsource))

theorem frame_of_stopsAt {stages : List (Disk.Action × String)}
    (h : d.HasDirectory directory dir) (hdatabase : IsDatabase database)
    (hstages : ∀ stage ∈ stages, IsStage (pathIn directory database) stage.1)
    (hstops : StopsAt stages d d') : Frame directory dir database d d' := by
  induction hstops with
  | done => exact ⟨h, fun _ _ => rfl⟩
  | stopped hpartly => exact frame_of_partly h hdatabase (hstages _ List.mem_cons_self) hpartly
  | passed hact _ ih =>
    have hfirst := frame_of_partly h hdatabase (hstages _ List.mem_cons_self) (.whole hact)
    have hrest := ih hfirst.hasDirectory fun stage hstage =>
      hstages stage (List.mem_cons_of_mem _ hstage)
    exact ⟨hrest.hasDirectory, hrest.others.trans hfirst.others⟩

/-- Two disks with the directory, and the same files of a database in it. -/
structure SameFiles (directory : String) (dir : Location) (database : String) (d d' : Disk) :
    Prop where
  left : d.HasDirectory directory dir
  right : d'.HasDirectory directory dir
  same : Disk.AgreeOn (Owns dir database) d d'

theorem SameFiles.locate (h : SameFiles directory dir database d d')
    (hdatabase : IsDatabase database) (hpath : IsPath directory database path) :
    (∃ fault, d.locate path = .error fault ∧ d'.locate path = .error fault) ∨
      ∃ l, d.locate path = .ok l ∧ d'.locate path = .ok l ∧ d.get? l = d'.get? l := by
  rw [hpath.locate_eq hdatabase h.left h.right]
  cases hl : d'.locate path with
  | error fault => exact .inl ⟨fault, rfl, rfl⟩
  | ok l => exact .inr ⟨l, rfl, rfl, h.same l (hpath.owns_of_locate hdatabase h.right hl)⟩

theorem SameFiles.agreeOn_rename (h : SameFiles directory dir database d d')
    (hdatabase : IsDatabase database) :
    Except.Agree (Disk.AgreeOn (Owns dir database))
      (d.act (.rename (temporaryPath (pathIn directory database)) (pathIn directory database)))
      (d'.act
        (.rename (temporaryPath (pathIn directory database)) (pathIn directory database))) := by
  have hmoved (s t : Location) (bytes : List UInt8) : Disk.AgreeOn (Owns dir database)
      (if s = t then d else (d.delete s).put t (.file bytes))
      (if s = t then d' else (d'.delete s).put t (.file bytes)) := by
    split_ifs
    · exact h.same
    · exact (h.same.delete s).put t _
  obtain ⟨fault, hs, hs'⟩ | ⟨s, hs, hs', hsource⟩ := h.locate hdatabase (.inr rfl)
  · rw [Disk.act, Disk.act, hs, hs']
    exact .error fault
  obtain ⟨fault, ht, ht'⟩ | ⟨t, ht, ht', htarget⟩ := h.locate hdatabase (.inl rfl)
  · rw [Disk.act, Disk.act, hs, hs', ht, ht']
    exact .error fault
  have hobstacle : d.obstacle? (pathIn directory database) t =
      d'.obstacle? (pathIn directory database) t := by
    rw [Disk.obstacle?, Disk.obstacle?, htarget]
  simp only [Disk.act, hs, hs', ht, ht', bind, Except.bind, hobstacle, hsource]
  split
  · exact .error _
  · exact .error _
  · cases d'.obstacle? (pathIn directory database) t with
    | some fault => exact .error fault
    | none => exact .ok (hmoved s t _)

theorem SameFiles.agreeOn_act (h : SameFiles directory dir database d d')
    (hdatabase : IsDatabase database) {action : Disk.Action}
    (hstage : IsStage (pathIn directory database) action) :
    Except.Agree (Disk.AgreeOn (Owns dir database)) (d.act action) (d'.act action) := by
  have hlocate := h.locate hdatabase
    (.inr rfl : IsPath directory database (temporaryPath (pathIn directory database)))
  cases hstage with
  | directory hparent =>
    rw [(act_parent h.left hdatabase hparent).1, (act_parent h.right hdatabase hparent).1]
    split
    · exact .error _
    · exact .ok h.same
  | create =>
    obtain ⟨fault, hl, hl'⟩ | ⟨l, hl, hl', hfound⟩ := hlocate
    · rw [Disk.act, Disk.act, hl, hl']
      exact .error fault
    · simp only [Disk.act, hl, hl', bind, Except.bind, hfound]
      split
      · exact .error _
      · exact .ok (h.same.put l _)
  | append bytes =>
    obtain ⟨fault, hl, hl'⟩ | ⟨l, hl, hl', hfound⟩ := hlocate
    · rw [Disk.act, Disk.act, hl, hl']
      exact .error fault
    · simp only [Disk.act, hl, hl', bind, Except.bind, hfound]
      split
      · exact .ok (h.same.put l _)
      · exact .error _
      · exact .error _
  | sync =>
    obtain ⟨fault, hl, hl'⟩ | ⟨l, hl, hl', -⟩ := hlocate
    · rw [Disk.act, Disk.act, hl, hl']
      exact .error fault
    · rw [Disk.act, Disk.act, hl, hl']
      exact .ok h.same
  | rename => exact h.agreeOn_rename hdatabase

theorem SameFiles.act (h : SameFiles directory dir database d d') (hdatabase : IsDatabase database)
    {action : Disk.Action} (hstage : IsStage (pathIn directory database) action) :
    Except.Agree (SameFiles directory dir database) (d.act action) (d'.act action) := by
  have hagree := h.agreeOn_act hdatabase hstage
  generalize hx : d.act action = x, hy : d'.act action = y at hagree
  cases hagree with
  | ok hsame =>
    exact .ok ⟨h.left.keeps (Disk.act_keeps hx), h.right.keeps (Disk.act_keeps hy), hsame⟩
  | error fault => exact .error fault

theorem SameFiles.perform {stages : List (Disk.Action × String)}
    (h : SameFiles directory dir database d d') (hdatabase : IsDatabase database)
    (hstages : ∀ stage ∈ stages, IsStage (pathIn directory database) stage.1) :
    (perform stages d).1 = (perform stages d').1 ∧
      SameFiles directory dir database (perform stages d).2 (perform stages d').2 := by
  induction stages generalizing d d' with
  | nil => exact ⟨rfl, h⟩
  | cons stage rest ih =>
    obtain ⟨action, complaint⟩ := stage
    have hagree := h.act hdatabase (hstages _ List.mem_cons_self)
    unfold FileStore.perform
    generalize d.act action = x, d'.act action = y at hagree ⊢
    cases hagree with
    | ok hnext => exact ih hnext fun stage hstage => hstages stage (List.mem_cons_of_mem _ hstage)
    | error fault => exact ⟨rfl, h⟩

theorem SameFiles.load (h : SameFiles directory dir database d d')
    (hdatabase : IsDatabase database) :
    load (pathIn directory database) d = load (pathIn directory database) d' := by
  refine load_congr ?_
  obtain ⟨fault, hl, hl'⟩ | ⟨l, hl, hl', hfound⟩ := h.locate hdatabase (.inl rfl)
  · rw [Disk.find?, Disk.find?, hl, hl']
  · rw [Disk.find?, Disk.find?, hl, hl']
    exact hfound

theorem SameFiles.atPath (h : SameFiles directory dir database d d')
    (hdatabase : IsDatabase database) :
    Except.Agree (fun opened opened' => opened.1 = opened'.1 ∧
        SameFiles directory dir database opened.2 opened'.2)
      (atPath (pathIn directory database) d) (atPath (pathIn directory database) d') := by
  obtain ⟨hmade, hnext⟩ := h.perform hdatabase fun _ => isStage_of_mem_directoryStage
  unfold FileStore.atPath
  generalize FileStore.perform (directoryStage (pathIn directory database)) d = x,
    FileStore.perform (directoryStage (pathIn directory database)) d' = y at hmade hnext
  obtain ⟨made, d₁⟩ := x
  obtain ⟨_, d₁'⟩ := y
  dsimp only at hmade
  subst hmade
  cases made with
  | error e => exact .error e
  | ok _ =>
    simp only [bind, Except.bind, hnext.load hdatabase]
    cases FileStore.load (pathIn directory database) d₁' with
    | error e => exact .error e
    | ok t => exact .ok ⟨rfl, hnext⟩

theorem SameFiles.persist (h : SameFiles directory dir database d d')
    (hdatabase : IsDatabase database) (t : Table) :
    (persist (pathIn directory database) t d).1 = (persist (pathIn directory database) t d').1 ∧
      SameFiles directory dir database (persist (pathIn directory database) t d).2
        (persist (pathIn directory database) t d').2 :=
  h.perform hdatabase fun _ => isStage_of_mem_stages

/-- The store that a URI opens is that of a database in the directory of the URI. -/
theorem ofUri_eq_ok_iff [Url.Idna] {uri : String} {f : FileStore} :
    Store.ofUri uri database d = .ok (ofBackend (.file f) d') ↔
      ∃ url directory, Url.parse uri = .ok url ∧ url.scheme = "file" ∧
        url.filePath? = some directory ∧
        ¬(database = "" ∨ database.toList.any (fun c => c = '/' ∨ c = '\\')) ∧
        atPath (pathIn directory database) d = .ok (f, d') := by
  constructor
  · intro h
    unfold Store.ofUri at h
    split at h
    · cases h
    rename_i url hurl
    split at h
    · cases h
    split at h
    · rename_i hscheme
      split at h
      · cases h
      rename_i directory hdirectory
      split at h
      · cases h
      rename_i hname
      split at h
      · cases h
      · rename_i hopen
        cases h
        exact ⟨url, directory, hurl, hscheme, hdirectory, hname, hopen⟩
    · cases h
  · rintro ⟨url, directory, hurl, hscheme, hdirectory, hname, hopen⟩
    rw [pathIn] at hopen
    rw [Store.ofUri, hurl]
    dsimp only
    rw [if_neg (by rw [hscheme]; decide), if_pos hscheme, hdirectory]
    dsimp only
    rw [if_neg hname, hopen]

theorem isDatabase_of_usable
    (h : ¬(database = "" ∨ database.toList.any (fun c => c = '/' ∨ c = '\\'))) :
    IsDatabase database := by
  rw [not_or] at h
  exact ⟨h.1, fun hslash => h.2 (List.any_eq_true.mpr ⟨'/', hslash, by simp⟩)⟩

theorem hasDirectory_of_atPath {f : FileStore} (hdatabase : IsDatabase database)
    (h : atPath (pathIn directory database) d = .ok (f, d')) :
    d.KeepsDirectories d' ∧ ∃ dir, d'.HasDirectory directory dir := by
  obtain ⟨hmade, -, -⟩ := atPath_ok h
  obtain ⟨parent, hparent, hcomponents⟩ :=
    FilePath.parent?_join directory hdatabase.slash
  refine ⟨perform_ok_keeps hmade, ?_⟩
  rw [directoryStage, pathIn, hparent] at hmade
  obtain ⟨d₁, hact, hdone⟩ := perform_cons_ok hmade
  cases hdone
  simp only [Disk.act] at hact
  split at hact
  · cases hact
  · obtain ⟨dir, hwalk, hfound⟩ := Disk.walk_of_makeDirectories hact d.get?_root
    exact ⟨dir, hcomponents ▸ hwalk, hfound⟩

end FileStore

inductive Reply where
  | operated (op : Operation) (result : Except StoreError op.Result)
  | reopened (result : Except StoreError Unit)

namespace Move

def run (m : Move) (f : FileStore) (d : Disk) : Reply × FileStore × Disk :=
  match m with
  | .operate op => (.operated op (f.apply d op).1, (f.apply d op).2)
  | .reopen =>
    match FileStore.atPath f.path d with
    | .ok (f, d) => (.reopened (.ok ()), f, d)
    | .error e => (.reopened (.error e), f, d)

def stages (m : Move) (f : FileStore) : List (Disk.Action × String) :=
  match m with
  | .operate op =>
    match (f.table.apply op).2 with
    | none => []
    | some t => FileStore.stages f.path (Text.utf8 (FileStore.snapshotText t))
  | .reopen => FileStore.directoryStage f.path

variable {directory database : String} {dir : Location} {d d' : Disk}

theorem path_run (m : Move) (f : FileStore) (d : Disk) : (m.run f d).2.1.path = f.path := by
  cases m with
  | operate op =>
    obtain ⟨-, h⟩ | ⟨t, -, h⟩ := f.apply_cases d op <;> rw [run, h]
  | reopen =>
    rw [run]
    split
    · rename_i h
      exact (FileStore.atPath_ok h).2.1
    · rfl

theorem stopsAt_run (m : Move) (f : FileStore) (d : Disk) :
    FileStore.StopsAt (m.stages f) d (m.run f d).2.2 := by
  cases m with
  | operate op =>
    obtain ⟨hread, h⟩ | ⟨t, hwrite, h⟩ := f.apply_cases d op
    · rw [run, stages, h, hread]
      exact .done
    · rw [run, stages, h, hwrite]
      exact FileStore.stopsAt_perform _ d
  | reopen =>
    rw [run, stages]
    split
    · rename_i f' d' h
      have hstops := FileStore.stopsAt_perform (FileStore.directoryStage f.path) d
      rw [(FileStore.atPath_ok h).1] at hstops
      exact hstops
    · cases FileStore.directoryStage f.path with
      | nil => exact .done
      | cons stage rest => exact .stopped .untouched

theorem isStage_of_mem {m : Move} {f : FileStore} {stage : Disk.Action × String}
    (h : stage ∈ m.stages f) : FileStore.IsStage f.path stage.1 := by
  cases m with
  | operate op =>
    rw [stages] at h
    split at h
    · cases h
    · exact FileStore.isStage_of_mem_stages h
  | reopen => exact FileStore.isStage_of_mem_directoryStage h

theorem run_congr (m : Move) {f : FileStore} (hpath : f.path = FileStore.pathIn directory database)
    (hdatabase : IsDatabase database) (h : FileStore.SameFiles directory dir database d d') :
    (m.run f d).1 = (m.run f d').1 ∧ (m.run f d).2.1 = (m.run f d').2.1 ∧
      FileStore.SameFiles directory dir database (m.run f d).2.2 (m.run f d').2.2 := by
  cases m with
  | operate op =>
    simp only [run, FileStore.apply, hpath]
    split
    · exact ⟨rfl, rfl, h⟩
    · rename_i t _
      obtain ⟨hwritten, hnext⟩ := h.persist hdatabase t
      exact ⟨by rw [hwritten], rfl, hnext⟩
  | reopen =>
    have hagree := h.atPath hdatabase
    simp only [run, hpath]
    generalize FileStore.atPath (FileStore.pathIn directory database) d = x,
      FileStore.atPath (FileStore.pathIn directory database) d' = y at hagree
    cases hagree with
    | ok hopened => exact ⟨rfl, hopened.1, hopened.2⟩
    | error e => exact ⟨rfl, rfl, h⟩

end Move

variable {ι : Type} {directory : String} {dir : Location} {databases : ι → String}
  {stores : ι → FileStore} {d : Disk}

/-- The stores are those of databases of the directory. -/
structure IsShared (directory : String) (dir : Location) (databases : ι → String)
    (stores : ι → FileStore) (d : Disk) : Prop where
  hasDirectory : d.HasDirectory directory dir
  database : ∀ i, IsDatabase (databases i)
  path : ∀ i, (stores i).path = FileStore.pathIn directory (databases i)

theorem IsShared.frame (h : IsShared directory dir databases stores d) {i : ι} {m : Move}
    {d' : Disk} (hstops : FileStore.StopsAt (m.stages (stores i)) d d') :
    FileStore.Frame directory dir (databases i) d d' :=
  FileStore.frame_of_stopsAt h.hasDirectory (h.database i)
    (fun _ hstage => h.path i ▸ Move.isStage_of_mem hstage) hstops

variable [DecidableEq ι]

/-- Stores that take turns on one disk. -/
def runTurns (stores : ι → FileStore) (d : Disk) :
    List (ι × Move) → List (ι × Reply) × (ι → FileStore) × Disk
  | [] => ([], stores, d)
  | (i, m) :: turns =>
    let (reply, f, d) := m.run (stores i) d
    let (replies, stores, d) := runTurns (Function.update stores i f) d turns
    ((i, reply) :: replies, stores, d)

theorem IsShared.turn (h : IsShared directory dir databases stores d) (i : ι) (m : Move) :
    IsShared directory dir databases (Function.update stores i (m.run (stores i) d).2.1)
      (m.run (stores i) d).2.2 := by
  refine ⟨(h.frame (m.stopsAt_run _ d)).hasDirectory, h.database, fun j => ?_⟩
  by_cases hj : j = i
  · subst hj
    rw [Function.update_self, Move.path_run, h.path]
  · rw [Function.update_of_ne hj, h.path]

theorem IsShared.turns (h : IsShared directory dir databases stores d)
    (turns : List (ι × Move)) :
    IsShared directory dir databases (runTurns stores d turns).2.1
      (runTurns stores d turns).2.2 := by
  induction turns generalizing stores d with
  | nil => exact h
  | cons turn turns ih => exact ih (h.turn turn.1 turn.2)

/-- What others do in between does not show in the files of a database. -/
theorem IsShared.alone (h : IsShared directory dir databases stores d)
    (hdatabases : Function.Injective databases) (i : ι) {stores' : ι → FileStore} {d' : Disk}
    (hstore : stores' i = stores i)
    (hsame : FileStore.SameFiles directory dir (databases i) d d') (turns : List (ι × Move)) :
    (runTurns stores d turns).1.filter (·.1 = i) =
        (runTurns stores' d' (turns.filter (·.1 = i))).1 ∧
      (runTurns stores d turns).2.1 i = (runTurns stores' d' (turns.filter (·.1 = i))).2.1 i ∧
      FileStore.SameFiles directory dir (databases i) (runTurns stores d turns).2.2
        (runTurns stores' d' (turns.filter (·.1 = i))).2.2 := by
  induction turns generalizing stores d stores' d' with
  | nil => exact ⟨rfl, hstore.symm, hsame⟩
  | cons turn turns ih =>
    obtain ⟨j, m⟩ := turn
    by_cases hj : j = i
    · subst hj
      obtain ⟨hreply, hmemory, hfiles⟩ := m.run_congr (h.path j) (h.database j) hsame
      rw [← hstore] at hreply hmemory hfiles
      have hnext : Function.update stores' j (m.run (stores' j) d').2.1 j =
          Function.update stores j (m.run (stores j) d).2.1 j := by
        rw [Function.update_self, Function.update_self, ← hmemory, hstore]
      obtain ⟨hreplies, hrest⟩ := ih (h.turn j m) hnext (by rw [← hstore]; exact hfiles)
      rw [List.filter_cons_of_pos (by simp)]
      refine ⟨?_, hrest⟩
      simp only [runTurns]
      rw [List.filter_cons_of_pos (by simp), hreplies, ← hreply, hstore]
    · have hframe := h.frame (m.stopsAt_run (stores j) d)
      have hfiles : FileStore.SameFiles directory dir (databases i) (m.run (stores j) d).2.2 d' :=
        ⟨hframe.hasDirectory, hsame.right, fun l hl => (hframe.others l fun hl' =>
          hj (hdatabases (hl'.unique hl))).trans (hsame.same l hl)⟩
      obtain ⟨hreplies, hrest⟩ := ih (h.turn j m)
        (hstore.trans (Function.update_of_ne (Ne.symm hj) _ _).symm) hfiles
      rw [List.filter_cons_of_neg (by simpa using hj)]
      refine ⟨?_, hrest⟩
      simp only [runTurns]
      rw [List.filter_cons_of_neg (by simpa using hj), hreplies]

/-- The turns of each store come to what they come to without the others, and touch no files but the
two of its own database. -/
structure Undisturbed (dir : Location) (databases : ι → String) (stores : ι → FileStore) (d : Disk)
    (turns : List (ι × Move)) : Prop where
  touches : ∀ i (m : Move) d',
    FileStore.StopsAt (m.stages ((runTurns stores d turns).2.1 i))
        (runTurns stores d turns).2.2 d' →
      ∀ l, d'.get? l ≠ (runTurns stores d turns).2.2.get? l → Owns dir (databases i) l
  replies : ∀ i, (runTurns stores d turns).1.filter (·.1 = i) =
    (runTurns stores d (turns.filter (·.1 = i))).1
  memory : ∀ i, (runTurns stores d turns).2.1 i =
    (runTurns stores d (turns.filter (·.1 = i))).2.1 i
  reopens : ∀ i, (FileStore.atPath (stores i).path (runTurns stores d turns).2.2).map (·.1) =
    (FileStore.atPath (stores i).path (runTurns stores d (turns.filter (·.1 = i))).2.2).map (·.1)

theorem IsShared.undisturbed (h : IsShared directory dir databases stores d)
    (hdatabases : Function.Injective databases) (turns : List (ι × Move)) :
    Undisturbed dir databases stores d turns := by
  have halone (i : ι) := h.alone hdatabases i rfl
    ⟨h.hasDirectory, h.hasDirectory, fun _ _ => rfl⟩ turns
  refine ⟨fun i m d' hstops l hchanged => ?_, fun i => (halone i).1, fun i => (halone i).2.1,
    fun i => ?_⟩
  · by_contra hother
    exact hchanged (((h.turns turns).frame hstops).others l hother)
  · have hagree := (halone i).2.2.atPath (h.database i)
    rw [h.path i]
    generalize FileStore.atPath _ (runTurns stores d turns).2.2 = x,
      FileStore.atPath _ (runTurns stores d (turns.filter (·.1 = i))).2.2 = y at hagree
    cases hagree with
    | ok hopened => exact congrArg Except.ok hopened.1
    | error e => rfl

/-- Databases that are opened at one URI under two names have no file in common, and each does as it
would alone, whatever is done to the other. -/
theorem undisturbed_of_ofUri [Url.Idna] {uri a b : String} {d₀ d₁ d₂ : Disk} {f g : FileStore}
    (hne : a ≠ b)
    (ha : ofUri uri a d₀ = .ok (ofBackend (.file f) d₁))
    (hb : ofUri uri b d₁ = .ok (ofBackend (.file g) d₂)) :
    ∃ url directory dir, Url.parse uri = .ok url ∧ url.filePath? = some directory ∧
      d₂.HasDirectory directory dir ∧ (∀ l, Owns dir a l → ¬Owns dir b l) ∧
      ∀ turns : List (Bool × Move),
        Undisturbed dir (bif · then b else a) (bif · then g else f) d₂ turns := by
  obtain ⟨url, directory, hurl, -, hdirectory, hnameA, hopenA⟩ := FileStore.ofUri_eq_ok_iff.mp ha
  obtain ⟨url', directory', hurl', -, hdirectory', hnameB, hopenB⟩ :=
    FileStore.ofUri_eq_ok_iff.mp hb
  cases hurl.symm.trans hurl'
  cases hdirectory.symm.trans hdirectory'
  replace hnameA := FileStore.isDatabase_of_usable hnameA
  replace hnameB := FileStore.isDatabase_of_usable hnameB
  obtain ⟨-, dir, hmade⟩ := FileStore.hasDirectory_of_atPath hnameA hopenA
  have hshared : IsShared directory dir (bif · then b else a) (bif · then g else f) d₂ := by
    refine ⟨hmade.keeps (FileStore.hasDirectory_of_atPath hnameB hopenB).1, ?_, ?_⟩
    · rintro (_ | _)
      · exact hnameA
      · exact hnameB
    · rintro (_ | _)
      · exact (FileStore.atPath_ok hopenA).2.1
      · exact (FileStore.atPath_ok hopenB).2.1
  have hinjective : Function.Injective (bif · then b else a) := by
    rintro (_ | _) (_ | _) h
    · rfl
    · exact absurd h hne
    · exact absurd h.symm hne
    · rfl
  exact ⟨url, directory, dir, hurl, hdirectory, hshared.hasDirectory,
    fun l hl hl' => hne (hl.unique hl'), hshared.undisturbed hinjective⟩

/-- Two databases on a disk that was empty, of which the second is named as the first one's file. -/
theorem undisturbed_sample :
    ∃ (f g : FileStore) (d : Disk), ofUri "file:///s" "a" .empty = .ok (ofBackend (.file f) d) ∧
      ofUri "file:///s" "a.json" d = .ok (ofBackend (.file g) d) ∧
      ∃ dir, (∀ l, Owns dir "a" l → ¬Owns dir "a.json" l) ∧ ∀ turns : List (Bool × Move),
        Undisturbed dir (bif · then "a.json" else "a") (bif · then g else f) d turns := by
  have hopens (database : String) (d : Disk)
      (hname : ¬(database = "" ∨ database.toList.any (fun c => c = '/' ∨ c = '\\')))
      (hparent : FilePath.parent? (FileStore.pathIn "/s" database) = some "/s")
      (hmade : d.act (.makeDirectories "/s") = .ok (Disk.empty.put ["s"] .directory))
      (hload : FileStore.load (FileStore.pathIn "/s" database)
        (Disk.empty.put ["s"] .directory) = .ok .empty) :
      ofUri "file:///s" database d = .ok (ofBackend
        (.file ⟨FileStore.pathIn "/s" database, .empty⟩) (Disk.empty.put ["s"] .directory)) := by
    refine FileStore.ofUri_eq_ok_iff.mpr ⟨_, "/s", rfl, rfl, by decide +kernel, hname, ?_⟩
    rw [FileStore.atPath, FileStore.directoryStage, hparent]
    simp only [FileStore.perform, hmade, bind, Except.bind, hload]
    rfl
  have ha := hopens "a" .empty (by decide) (by decide +kernel) rfl (by decide +kernel)
  have hb := hopens "a.json" (Disk.empty.put ["s"] .directory) (by decide) (by decide +kernel) rfl
    (by decide +kernel)
  obtain ⟨_, _, dir, -, -, -, happart, hturns⟩ := undisturbed_of_ofUri (by decide) ha hb
  exact ⟨_, _, _, ha, hb, dir, happart, hturns⟩

end DeviceAuth.Store
