import DeviceAuth.Proofs.Store.FilePath
import DeviceAuth.Proofs.Store.Snapshot

/-! Writing snapshots one after the other. Whether a snapshot can be written does not depend on what
it holds, and of several that are written the disk shows the last. -/
namespace DeviceAuth.Store

theorem FileStore.namesDirectory_temporaryPath (path : String) :
    FilePath.namesDirectory (temporaryPath path) = false ∨
      FilePath.components (temporaryPath path) = [] ∨
      ∃ init, FilePath.components (temporaryPath path) = init ++ [".."] := by
  have hcomponents : FilePath.components path =
      FilePath.componentsOf (FilePath.trimEnd path.toList.reverse).reverse := by
    rw [FilePath.componentsOf_trimEnd, List.reverse_reverse]
    rfl
  obtain ⟨hnone, hup⟩ :=
    FilePath.componentsOf_of_name (FilePath.trimEnd_ne_slash path.toList.reverse)
  unfold temporaryPath FilePath.withExtension
  dsimp only
  split
  · rename_i hname
    rw [hcomponents]
    exact .inr (hname.imp (fun h => hnone (by simpa using h)) hup)
  · exact .inl (FilePath.namesDirectory_extended _ _ (by decide) (by decide))

namespace Disk

variable {d d' : Disk} {path : String} {l : Location}

theorem walk_cons_ok {name : String} {rest : List String} {l' : Location}
    (h : d.walk l (name :: rest) = .ok l') :
    d.get? l = some .directory ∧
      d.walk (if name = ".." then l.dropLast else l ++ [name]) rest = .ok l' := by
  unfold walk at h
  cases hl : d.get? l with
  | none =>
    rw [hl] at h
    cases h
  | some e =>
    rw [hl] at h
    cases e with
    | file bytes => cases h
    | directory =>
      obtain ⟨-, -, h⟩ := Except.bind_ok h
      exact ⟨rfl, h⟩

/-- Going up at the end leads to a directory, since all on the way to a place are. -/
theorem directory_of_walk_up {names : List String} {l' : Location}
    (hl : ∀ p, p <+: l → p ≠ l → d.get? p = some .directory)
    (h : d.walk l (names ++ [".."]) = .ok l') : d.get? l' = some .directory := by
  have hbelow : ∀ p, d.get? l = some .directory → p <+: l → d.get? p = some .directory := by
    intro p hdirectory hp
    by_cases heq : p = l
    · rw [heq]
      exact hdirectory
    · exact hl p hp heq
  induction names generalizing l with
  | nil =>
    obtain ⟨hdirectory, hup⟩ := walk_cons_ok h
    cases hup
    exact hbelow _ hdirectory (List.dropLast_prefix l)
  | cons name rest ih =>
    obtain ⟨hdirectory, hrest⟩ := walk_cons_ok h
    have hnext : ∀ p, p <+: (if name = ".." then l.dropLast else l ++ [name]) →
        p ≠ (if name = ".." then l.dropLast else l ++ [name]) → d.get? p = some .directory := by
      intro p hp hne
      refine hbelow p hdirectory ?_
      split_ifs at hp hne
      · exact hp.trans (List.dropLast_prefix l)
      · exact (List.prefix_concat_iff.mp hp).resolve_left hne
    refine ih hnext hrest fun p hdirectory' hp => ?_
    by_cases heq : p = if name = ".." then l.dropLast else l ++ [name]
    · rw [heq]
      exact hdirectory'
    · exact hnext p hp heq

theorem create_ne_ok (h : FilePath.components path = [] ∨
    ∃ init, FilePath.components path = init ++ [".."]) : d.act (.create path) ≠ .ok d' := by
  intro hcreate
  obtain ⟨l, hl, hdirectory, -⟩ := create_ok hcreate
  obtain ⟨-, hwalk, -⟩ := locate_ok hl
  rcases h with hnone | ⟨init, hup⟩
  · rw [hnone] at hwalk
    cases hwalk
    exact hdirectory d.get?_root
  · rw [hup] at hwalk
    refine hdirectory (directory_of_walk_up (fun p hp hne => ?_) hwalk)
    exact absurd (List.prefix_nil.mp hp) hne

/-- The trees are the same, but for what is in their files. -/
def SameTree (d d' : Disk) : Prop :=
  ∀ l, d.get? l = d'.get? l ∨
    ∃ bytes bytes', d.get? l = some (.file bytes) ∧ d'.get? l = some (.file bytes')

theorem sameTree_put (d : Disk) (l : Location) (bytes bytes' : List UInt8) :
    SameTree (d.put l (.file bytes)) (d.put l (.file bytes')) := by
  intro l'
  rw [get?_put, get?_put]
  split_ifs
  · exact .inl rfl
  · exact .inr ⟨bytes, bytes', rfl, rfl⟩
  · exact .inl rfl

theorem SameTree.walk (h : d.SameTree d') (l : Location) (names : List String) :
    d.walk l names = d'.walk l names := by
  induction names generalizing l with
  | nil => rfl
  | cons name rest ih =>
    unfold Disk.walk
    rcases h l with heq | ⟨bytes, bytes', hfile, hfile'⟩
    · simp only [heq, ih]
    · rw [hfile, hfile']
      rfl

theorem SameTree.locate (h : d.SameTree d') (path : String) : d.locate path = d'.locate path := by
  unfold Disk.locate
  rw [h.walk]
  cases hwalk : d'.walk [] (FilePath.components path) with
  | error e => rfl
  | ok l =>
    simp only [bind, Except.bind]
    rcases h l with heq | ⟨bytes, bytes', hfile, hfile'⟩
    · rw [heq]
    · rw [hfile, hfile']

theorem SameTree.obstacle? (h : d.SameTree d') (path : String) (l : Location) :
    d.obstacle? path l = d'.obstacle? path l := by
  unfold Disk.obstacle?
  rcases h l with heq | ⟨bytes, bytes', hfile, hfile'⟩
  · rw [heq]
  · rw [hfile, hfile']
    split <;> simp_all

theorem SameTree.put (h : d.SameTree d') (l : Location) {e e' : DiskEntry}
    (he : e = e' ∨ ∃ bytes bytes', e = .file bytes ∧ e' = .file bytes') :
    (d.put l e).SameTree (d'.put l e') := by
  intro l'
  rw [get?_put, get?_put]
  split_ifs
  · exact .inl rfl
  · obtain rfl | ⟨bytes, bytes', rfl, rfl⟩ := he
    · exact .inl rfl
    · exact .inr ⟨bytes, bytes', rfl, rfl⟩
  · exact h l'

theorem SameTree.delete (h : d.SameTree d') (l : Location) :
    (d.delete l).SameTree (d'.delete l) := by
  intro l'
  rw [get?_delete, get?_delete]
  split_ifs
  · exact .inl rfl
  · exact .inl rfl
  · exact h l'

theorem SameTree.makeDirectories (h : d.SameTree d') (l : Location) (names : List String) :
    Except.Agree SameTree (d.makeDirectories l names) (d'.makeDirectories l names) := by
  induction names generalizing d d' l with
  | nil => exact .ok h
  | cons name rest ih =>
    unfold Disk.makeDirectories
    cases hname : checkName name with
    | error fault => exact .error fault
    | ok u =>
      simp only [bind, Except.bind]
      generalize (if name = ".." then l.dropLast else l ++ [name]) = next
      obtain heq | ⟨bytes, bytes', hfile, hfile'⟩ := h next
      · rw [heq]
        cases d'.get? next with
        | none => exact ih (h.put next (.inl rfl)) next
        | some e =>
          cases e with
          | file bytes => exact .error _
          | directory => exact ih h next
      · rw [hfile, hfile']
        exact .error _

/-- Actions that differ at most in what they write. -/
inductive Action.Alike : Action → Action → Prop
  | same (action : Action) : Alike action action
  | append (path : String) (bytes bytes' : List UInt8) :
    Alike (.append path bytes) (.append path bytes')

theorem SameTree.append (h : d.SameTree d') (path : String) (bytes bytes' : List UInt8) :
    Except.Agree SameTree (d.act (.append path bytes)) (d'.act (.append path bytes')) := by
  simp only [act, h.locate]
  cases d'.locate path with
  | error fault => exact .error fault
  | ok l =>
    simp only [bind, Except.bind]
    obtain heq | ⟨old, old', hfile, hfile'⟩ := h l
    · rw [heq]
      split
      · exact .ok (h.put l (.inr ⟨_, _, rfl, rfl⟩))
      · exact .error _
      · exact .error _
    · rw [hfile, hfile']
      exact .ok (h.put l (.inr ⟨_, _, rfl, rfl⟩))

theorem SameTree.rename (h : d.SameTree d') (source target : String) :
    Except.Agree SameTree (d.act (.rename source target)) (d'.act (.rename source target)) := by
  have hmoved (s t : Location) (bytes bytes' : List UInt8) :
      SameTree (if s = t then d else (d.delete s).put t (.file bytes))
        (if s = t then d' else (d'.delete s).put t (.file bytes')) := by
    split_ifs
    · exact h
    · exact (h.delete s).put t (.inr ⟨_, _, rfl, rfl⟩)
  simp only [act, h.locate, h.obstacle?]
  cases d'.locate source with
  | error fault => exact .error fault
  | ok s =>
    cases d'.locate target with
    | error fault => exact .error fault
    | ok t =>
      simp only [bind, Except.bind]
      obtain heq | ⟨bytes, bytes', hfile, hfile'⟩ := h s
      · rw [heq]
        split
        · exact .error _
        · exact .error _
        · cases d'.obstacle? target t with
          | some fault => exact .error fault
          | none => exact .ok (hmoved s t _ _)
      · rw [hfile, hfile']
        cases d'.obstacle? target t with
        | some fault => exact .error fault
        | none => exact .ok (hmoved s t _ _)

/-- Whether an action can be done, and why not, has nothing to do with what is in files. -/
theorem SameTree.act (h : d.SameTree d') {action action' : Action} (ha : action.Alike action') :
    Except.Agree SameTree (d.act action) (d'.act action') := by
  cases ha with
  | append path bytes bytes' => exact h.append path bytes bytes'
  | same =>
    cases action with
    | append path bytes => exact h.append path bytes bytes
    | rename source target => exact h.rename source target
    | makeDirectories path =>
      simp only [Disk.act]
      split
      · exact .error _
      · exact h.makeDirectories [] _
    | sync path =>
      simp only [Disk.act, h.locate]
      cases d'.locate path with
      | error fault => exact .error fault
      | ok l => exact .ok h
    | create path =>
      simp only [Disk.act, h.locate]
      cases d'.locate path with
      | error fault => exact .error fault
      | ok l =>
        simp only [bind, Except.bind]
        obtain heq | ⟨bytes, bytes', hfile, hfile'⟩ := h l
        · rw [heq]
          split
          · exact .error _
          · exact .ok (h.put l (.inl rfl))
        · rw [hfile, hfile']
          exact .ok (h.put l (.inl rfl))

theorem act_rename {source target : String} {s t : Location} {bytes : List UInt8}
    (hs : d.locate source = .ok s) (ht : d.locate target = .ok t)
    (hfile : d.get? s = some (.file bytes)) (hobstacle : d.obstacle? target t = none) :
    d.act (.rename source target) =
      .ok (if s = t then d else (d.delete s).put t (.file bytes)) := by
  rw [act, hs]
  simp only [bind, Except.bind, ht, hfile, hobstacle]
  rfl

end Disk

namespace FileStore

variable {path : String} {d d' : Disk} {l t : Location}

def writing (path : String) (bytes : List UInt8) : List (Disk.Action × String) :=
  let temporary := temporaryPath path
  [(.create temporary, "Failed to create " ++ temporary),
    (.append temporary bytes, "Failed to write " ++ temporary),
    (.sync temporary, "Failed to sync " ++ temporary),
    (.rename temporary path, "Failed to replace " ++ path)]

theorem stages_eq (path : String) (bytes : List UInt8) :
    stages path bytes = directoryStage path ++ writing path bytes := rfl

theorem perform_cons_of_ok {action : Disk.Action} (h : d.act action = .ok d') (complaint : String)
    (rest : List (Disk.Action × String)) :
    perform ((action, complaint) :: rest) d = perform rest d' := by
  rw [perform, h]

theorem perform_cons_of_error {action : Disk.Action} {fault : DiskFault}
    (h : d.act action = .error fault) (complaint : String)
    (rest : List (Disk.Action × String)) :
    perform ((action, complaint) :: rest) d =
      (.error (.backend (complaint ++ ": " ++ fault.message)), d) := by
  rw [perform, h]

/-- The place where a temporary file can be put. -/
structure TakesTemporary (path : String) (d : Disk) (l : Location) : Prop where
  locate : d.locate (temporaryPath path) = .ok l
  name : FilePath.namesDirectory (temporaryPath path) = false
  free : d.get? l ≠ some .directory

theorem TakesTemporary.keeps_put (h : TakesTemporary path d l) (bytes : List UInt8) :
    d.KeepsDirectories (d.put l (.file bytes)) :=
  Disk.keepsDirectories_put fun hdirectory => absurd hdirectory h.free

theorem TakesTemporary.keeps (h : TakesTemporary path d l) (hkeeps : d.KeepsDirectories d')
    (hfree : d'.get? l ≠ some .directory) : TakesTemporary path d' l :=
  ⟨Disk.locate_keeps hkeeps h.locate h.name, h.name, hfree⟩

theorem TakesTemporary.perform_writing (h : TakesTemporary path d l) (bytes : List UInt8) :
    perform (writing path bytes) d =
      perform [(.rename (temporaryPath path) path, "Failed to replace " ++ path)]
        (d.put l (.file bytes)) := by
  have hcreate : d.act (.create (temporaryPath path)) = .ok (d.put l (.file [])) := by
    rw [Disk.act, h.locate]
    simp only [bind, Except.bind]
    split
    · rename_i hdirectory
      exact absurd hdirectory h.free
    · rfl
  have hput (old : List UInt8) :
      (d.put l (.file old)).locate (temporaryPath path) = .ok l :=
    Disk.locate_keeps (h.keeps_put old) h.locate h.name
  have happend : (d.put l (.file [])).act (.append (temporaryPath path) bytes) =
      .ok (d.put l (.file bytes)) := by
    rw [Disk.act, hput]
    simp only [bind, Except.bind, Disk.get?_put_file h.free, List.nil_append, Disk.put_put]
    rfl
  have hsync : (d.put l (.file bytes)).act (.sync (temporaryPath path)) =
      .ok (d.put l (.file bytes)) := by
    rw [Disk.act, hput]
    rfl
  exact (perform_cons_of_ok hcreate _ _).trans
    ((perform_cons_of_ok happend _ _).trans (perform_cons_of_ok hsync _ _))

theorem takesTemporary_of_create (h : d.act (.create (temporaryPath path)) = .ok d') :
    ∃ l, TakesTemporary path d l := by
  obtain ⟨l, hl, hfree, -⟩ := Disk.create_ok h
  exact ⟨l, hl,
    (namesDirectory_temporaryPath path).resolve_right fun hup => Disk.create_ne_ok hup h,
    hfree⟩

/-- The places of a temporary file and of the snapshot whose place it takes. -/
structure TakesSnapshot (path : String) (d : Disk) (l t : Location) : Prop
    extends TakesTemporary path d l where
  target : d.locate path = .ok t
  targetName : FilePath.namesDirectory path = false
  targetFree : d.get? t ≠ some .directory

def replace (d : Disk) (l t : Location) (bytes : List UInt8) : Disk :=
  if l = t then d.put l (.file bytes) else ((d.put l (.file bytes)).delete l).put t (.file bytes)

theorem get?_replace (d : Disk) (l t l' : Location) (bytes : List UInt8) :
    (replace d l t bytes).get? l' =
      if l' = [] then some .directory else if l' = t then some (.file bytes)
      else if l' = l then none else d.get? l' := by
  unfold replace
  by_cases hlt : l = t
  · subst hlt
    rw [if_pos rfl, Disk.get?_put]
    split_ifs <;> rfl
  · rw [if_neg hlt, Disk.get?_put, Disk.get?_delete, Disk.get?_put]
    split_ifs <;> rfl

theorem TakesSnapshot.keeps_replace (h : TakesSnapshot path d l t) (bytes : List UInt8) :
    d.KeepsDirectories (replace d l t bytes) := by
  intro l' hl'
  rw [get?_replace]
  split_ifs with hroot ht hl
  · rfl
  · exact absurd (ht ▸ hl') h.targetFree
  · exact absurd (hl ▸ hl') h.free
  · exact hl'

theorem TakesSnapshot.again (h : TakesSnapshot path d l t) (bytes : List UInt8) :
    TakesSnapshot path (replace d l t bytes) l t := by
  have hroot : l ≠ [] := fun hl => h.free (hl ▸ d.get?_root)
  have hroot' : t ≠ [] := fun ht => h.targetFree (ht ▸ d.get?_root)
  refine ⟨h.toTakesTemporary.keeps (h.keeps_replace bytes) ?_,
    Disk.locate_keeps (h.keeps_replace bytes) h.target h.targetName, h.targetName, ?_⟩
  · rw [get?_replace, if_neg hroot, if_pos rfl]
    split_ifs <;> exact nofun
  · rw [get?_replace, if_neg hroot', if_pos rfl]
    exact nofun

theorem TakesSnapshot.perform_writing (h : TakesSnapshot path d l t) (bytes : List UInt8) :
    perform (writing path bytes) d = (.ok (), replace d l t bytes) := by
  have hkeeps := h.keeps_put bytes
  have hfree : (d.put l (.file bytes)).get? t ≠ some .directory := by
    rw [Disk.get?_put]
    split_ifs with hroot
    · exact absurd (hroot ▸ d.get?_root) h.targetFree
    · exact nofun
    · exact h.targetFree
  have hrename := Disk.act_rename (Disk.locate_keeps hkeeps h.locate h.name)
    (Disk.locate_keeps hkeeps h.target h.targetName) (Disk.get?_put_file h.free)
    (Disk.obstacle?_of_name h.targetName hfree)
  rw [h.toTakesTemporary.perform_writing, perform_cons_of_ok hrename]
  rfl

theorem writing_cases (path : String) (d : Disk) :
    (∃ e, ∀ bytes, perform (writing path bytes) d = (.error e, d)) ∨
    (∃ l e, TakesTemporary path d l ∧
      ∀ bytes, perform (writing path bytes) d = (.error e, d.put l (.file bytes))) ∨
    ∃ l t, TakesSnapshot path d l t := by
  cases hcreate : d.act (.create (temporaryPath path)) with
  | error fault => exact .inl ⟨_, fun bytes => perform_cons_of_error hcreate _ _⟩
  | ok d₁ =>
    obtain ⟨l, hl⟩ := takesTemporary_of_create hcreate
    cases hrename : (d.put l (.file [])).act (.rename (temporaryPath path) path) with
    | error fault =>
      have hrename' (bytes : List UInt8) :
          (d.put l (.file bytes)).act (.rename (temporaryPath path) path) = .error fault :=
        ((Disk.sameTree_put d l [] bytes).rename _ path).eq_error hrename
      exact .inr (.inl ⟨l, _, hl, fun bytes =>
        (hl.perform_writing bytes).trans (perform_cons_of_error (hrename' bytes) _ _)⟩)
    | ok d₂ =>
      obtain ⟨s, t, bytes, -, ht, -, hobstacle, -⟩ := Disk.rename_ok hrename
      obtain ⟨hname, hfree⟩ := Disk.obstacle?_eq_none hobstacle
      have hback : (d.put l (.file [])).KeepsDirectories d := Disk.keepsDirectories_of_put_file
      exact .inr (.inr ⟨l, t, hl, Disk.locate_keeps hback ht hname, hname,
        fun hdirectory => hfree (hl.keeps_put [] t hdirectory)⟩)

theorem perform_writing_again (path : String) (d : Disk) (bytes bytes' : List UInt8) :
    (perform (writing path bytes) d).1 = (perform (writing path bytes') d).1 ∧
      (perform (writing path bytes') (perform (writing path bytes) d).2).1 =
        (perform (writing path bytes') d).1 ∧
      ∀ l, (perform (writing path bytes') (perform (writing path bytes) d).2).2.get? l =
        (perform (writing path bytes') d).2.get? l := by
  obtain ⟨e, h⟩ | ⟨l, e, hl, h⟩ | ⟨l, t, h⟩ := writing_cases path d
  · simp only [h, true_and, implies_true]
  · have hagain : TakesTemporary path (d.put l (.file bytes)) l := by
      refine hl.keeps (hl.keeps_put bytes) ?_
      rw [Disk.get?_put_file hl.free]
      exact nofun
    have hsame : perform (writing path bytes') (d.put l (.file bytes)) =
        perform (writing path bytes') d := by
      rw [hagain.perform_writing, hl.perform_writing, Disk.put_put]
    simp only [h bytes, hsame, h bytes', true_and, implies_true]
  · rw [h.perform_writing, h.perform_writing, (h.again bytes).perform_writing]
    refine ⟨rfl, rfl, fun l' => ?_⟩
    simp only [get?_replace]
    split_ifs <;> rfl

theorem perform_append_of_error {first : List (Disk.Action × String)} {e : StoreError}
    (h : perform first d = (.error e, d')) (rest : List (Disk.Action × String)) :
    perform (first ++ rest) d = (.error e, d') := by
  induction first generalizing d with
  | nil => cases h
  | cons stage first ih =>
    obtain ⟨action, complaint⟩ := stage
    cases hact : d.act action with
    | error fault =>
      rw [perform_cons_of_error hact] at h
      rw [List.cons_append, perform_cons_of_error hact, h]
    | ok d₁ =>
      rw [perform_cons_of_ok hact] at h
      rw [List.cons_append, perform_cons_of_ok hact]
      exact ih h

theorem directoryStage_error {e : StoreError}
    (h : perform (directoryStage path) d = (.error e, d')) : d' = d := by
  unfold directoryStage at h
  split at h
  · cases h
  · rename_i parent hparent
    cases hact : d.act (.makeDirectories parent) with
    | error fault =>
      rw [perform_cons_of_error hact] at h
      exact (congrArg Prod.snd h).symm
    | ok d₁ =>
      rw [perform_cons_of_ok hact] at h
      cases h

/-- Stages that do the same but for what they write, and complain in the same words. -/
def AlikeStages : List (Disk.Action × String) → List (Disk.Action × String) → Prop :=
  List.Forall₂ fun stage stage' => stage.1.Alike stage'.1 ∧ stage.2 = stage'.2

theorem alikeStages (path : String) (bytes bytes' : List UInt8) :
    AlikeStages (stages path bytes) (stages path bytes') := by
  have hsame (stage : Disk.Action × String) : stage.1.Alike stage.1 ∧ stage.2 = stage.2 :=
    ⟨.same _, rfl⟩
  refine List.rel_append (List.forall₂_same.mpr fun stage _ => hsame stage) ?_
  exact .cons (hsame _) (.cons ⟨.append _ _ _, rfl⟩ (.cons (hsame _) (.cons (hsame _) .nil)))

theorem perform_alike {stages stages' : List (Disk.Action × String)}
    (hstages : AlikeStages stages stages') (h : d.SameTree d') :
    (perform stages d).1 = (perform stages' d').1 := by
  induction hstages generalizing d d' with
  | nil => rfl
  | @cons stage stage' rest rest' hstage hrest ih =>
    obtain ⟨action, complaint⟩ := stage
    obtain ⟨action', complaint'⟩ := stage'
    obtain ⟨halike, rfl⟩ := hstage
    have hagree := h.act halike
    unfold perform
    generalize d.act action = x, d'.act action' = y at hagree ⊢
    cases hagree with
    | ok h => exact ih h
    | error fault => rfl

/-- Whether a snapshot can be written depends neither on its records nor on other files. -/
theorem persist_alike (h : d.SameTree d') (path : String) (t u : Table) :
    (persist path t d).1 = (persist path u d').1 :=
  perform_alike (alikeStages path _ _) h

theorem persist_again (path : String) (t u : Table) (d : Disk) :
    (persist path t d).1 = (persist path u d).1 ∧
      (persist path u (persist path t d).2).1 = (persist path u d).1 ∧
      ∀ l, (persist path u (persist path t d).2).2.get? l = (persist path u d).2.get? l := by
  unfold persist
  simp only [stages_eq]
  rcases hdirectory : perform (directoryStage path) d with ⟨e | _, d₁⟩
  · obtain rfl := directoryStage_error hdirectory
    simp only [perform_append_of_error hdirectory, true_and, implies_true]
  · have hagain := directoryStage_again hdirectory
      (perform_keeps (writing path (Text.utf8 (snapshotText t))) d₁)
    simp only [perform_append hdirectory, perform_append hagain]
    exact perform_writing_again path d₁ _ _

end FileStore

end DeviceAuth.Store
