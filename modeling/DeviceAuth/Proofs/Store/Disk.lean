import DeviceAuth.Proofs.Except
import DeviceAuth.Store.Disk

/-! What the actions on a disk leave in place. Directories stay, so a path that leads somewhere goes
on leading there; and a file that is renamed is found whole at its new path. -/
namespace DeviceAuth.Store.Disk

variable {d d' : Disk}

theorem get?_put (d : Disk) (l l' : Location) (e : DiskEntry) :
    (d.put l e).get? l' =
      if l' = [] then some .directory else if l' = l then some e else d.get? l' := by
  unfold get?
  by_cases hroot : l' = []
  · rw [if_pos hroot, if_pos hroot]
  · rw [if_neg hroot, if_neg hroot]
    by_cases hl : l' = l
    · subst hl
      simp [put]
    · have hfind : (d.put l e).entries.find? (·.1 = l') = d.entries.find? (·.1 = l') := by
        simp only [put, List.find?_cons, Ne.symm hl, decide_false, List.find?_filter]
        congr 1
        funext x
        by_cases hx : x.1 = l' <;> simp [hx, hl]
      rw [if_neg hl, hfind, if_neg hroot]

theorem get?_delete (d : Disk) (l l' : Location) :
    (d.delete l).get? l' =
      if l' = [] then some .directory else if l' = l then none else d.get? l' := by
  unfold get?
  by_cases hroot : l' = []
  · rw [if_pos hroot, if_pos hroot]
  · rw [if_neg hroot, if_neg hroot]
    by_cases hl : l' = l
    · subst hl
      simp [delete]
    · have hfind : (d.delete l).entries.find? (·.1 = l') = d.entries.find? (·.1 = l') := by
        simp only [delete, List.find?_filter]
        congr 1
        funext x
        by_cases hx : x.1 = l' <;> simp [hx, hl]
      rw [if_neg hl, hfind, if_neg hroot]

theorem get?_root (d : Disk) : d.get? [] = some .directory := rfl

def KeepsDirectories (d d' : Disk) : Prop :=
  ∀ l, d.get? l = some .directory → d'.get? l = some .directory

theorem KeepsDirectories.refl (d : Disk) : d.KeepsDirectories d := fun _ h => h

theorem KeepsDirectories.trans {d₁ d₂ d₃ : Disk} (h₁ : d₁.KeepsDirectories d₂)
    (h₂ : d₂.KeepsDirectories d₃) : d₁.KeepsDirectories d₃ := fun l h => h₂ l (h₁ l h)

theorem keepsDirectories_put {l : Location} {e : DiskEntry}
    (h : d.get? l = some .directory → e = .directory) : d.KeepsDirectories (d.put l e) := by
  intro l' hl'
  rw [get?_put]
  split_ifs with hroot hl
  · rfl
  · subst hl
    rw [h hl']
  · exact hl'

theorem keepsDirectories_delete {l : Location} (h : d.get? l ≠ some .directory) :
    d.KeepsDirectories (d.delete l) := by
  intro l' hl'
  rw [get?_delete]
  split_ifs with hroot hl
  · rfl
  · subst hl
    exact absurd hl' h
  · exact hl'

theorem keepsDirectories_of_put_file {l : Location} {bytes : List UInt8} :
    (d.put l (.file bytes)).KeepsDirectories d := by
  intro l' hl'
  rw [get?_put] at hl'
  split_ifs at hl' with hroot hput
  · exact hroot ▸ d.get?_root
  · cases hl'
  · exact hl'

theorem walk_keeps (h : d.KeepsDirectories d') {l l' : Location} {names : List String}
    (hw : d.walk l names = .ok l') : d'.walk l names = .ok l' := by
  induction names generalizing l with
  | nil => exact hw
  | cons name rest ih =>
    unfold walk at hw ⊢
    cases hl : d.get? l with
    | none => simp [hl] at hw; cases hw
    | some e =>
      cases e with
      | file bytes => simp [hl] at hw; cases hw
      | directory =>
        rw [h l hl]
        rw [hl] at hw
        cases hname : checkName name with
        | error f => simp [hname, bind, Except.bind] at hw
        | ok u =>
          simp only [hname, bind, Except.bind] at hw ⊢
          exact ih hw

theorem makeDirectories_ok {l : Location} {names : List String}
    (h : d.makeDirectories l names = .ok d') :
    d.KeepsDirectories d' ∧
      ∀ d'', d'.KeepsDirectories d'' → d''.makeDirectories l names = .ok d'' := by
  induction names generalizing d l with
  | nil =>
    cases h
    exact ⟨.refl _, fun d'' _ => rfl⟩
  | cons name rest ih =>
    unfold makeDirectories at h
    cases hname : checkName name with
    | error f => simp [hname, bind, Except.bind] at h
    | ok u =>
      simp only [hname, bind, Except.bind] at h
      obtain ⟨next, hnext⟩ : ∃ next, next = if name = ".." then l.dropLast else l ++ [name] :=
        ⟨_, rfl⟩
      rw [← hnext] at h
      have hagain : ∀ d'' : Disk, d''.get? next = some .directory →
          d''.makeDirectories next rest = .ok d'' →
            d''.makeDirectories l (name :: rest) = .ok d'' := by
        intro d'' hdir hrest
        unfold makeDirectories
        simp only [hname, bind, Except.bind, ← hnext, hdir, hrest]
      split at h
      · rename_i hdir
        obtain ⟨hkeeps, hrest⟩ := ih h
        refine ⟨hkeeps, fun d'' h'' => hagain d'' ?_ (hrest d'' h'')⟩
        exact h'' next (hkeeps next hdir)
      · cases h
      · rename_i hnone
        obtain ⟨hkeeps, hrest⟩ := ih h
        have hput : d.KeepsDirectories (d.put next .directory) := keepsDirectories_put fun _ => rfl
        have hdir : (d.put next .directory).get? next = some .directory := by
          rw [get?_put, if_pos rfl, ite_self]
        refine ⟨hput.trans hkeeps, fun d'' h'' => hagain d'' ?_ (hrest d'' h'')⟩
        exact h'' next (hkeeps next hdir)

theorem locate_ok {path : String} {l : Location} (h : d.locate path = .ok l) :
    path.toList.contains '\x00' = false ∧ d.walk [] (FilePath.components path) = .ok l ∧
      ∀ bytes, d.get? l = some (.file bytes) → FilePath.namesDirectory path = false := by
  unfold locate at h
  by_cases hnul : path.toList.contains '\x00' = true
  · rw [if_pos hnul] at h
    cases h
  rw [if_neg hnul] at h
  obtain ⟨found, hwalk, h⟩ := Except.bind_ok h
  refine ⟨by simpa using hnul, ?_⟩
  split at h
  · rename_i hfile
    split at h
    · cases h
    · rename_i hname
      cases h
      exact ⟨hwalk, fun _ _ => by simpa using hname⟩
  · rename_i hother
    cases h
    exact ⟨hwalk, fun bytes hbytes => absurd hbytes (hother bytes)⟩

theorem locate_of_walk {path : String} {l : Location}
    (hnul : path.toList.contains '\x00' = false)
    (hwalk : d.walk [] (FilePath.components path) = .ok l)
    (hname : FilePath.namesDirectory path = false) : d.locate path = .ok l := by
  unfold locate
  rw [hnul, if_neg Bool.false_ne_true, hwalk]
  simp only [bind, Except.bind, pure, Except.pure, hname]
  split <;> rfl

theorem locate_keeps (h : d.KeepsDirectories d') {path : String} {l : Location}
    (hl : d.locate path = .ok l) (hname : FilePath.namesDirectory path = false) :
    d'.locate path = .ok l := by
  obtain ⟨hnul, hwalk, -⟩ := locate_ok hl
  exact locate_of_walk hnul (walk_keeps h hwalk) hname

theorem obstacle?_eq_none {path : String} {l : Location} (h : d.obstacle? path l = none) :
    FilePath.namesDirectory path = false ∧ d.get? l ≠ some .directory := by
  unfold obstacle? at h
  split at h
  · cases h
  · cases h
  · cases h
  · cases h
  · cases h
  · rename_i hempty hdot hdots hdirectory _
    exact ⟨by simpa [FilePath.namesDirectory] using ⟨hempty, hdot, hdots⟩, hdirectory⟩

theorem obstacle?_of_name {path : String} {l : Location}
    (hname : FilePath.namesDirectory path = false)
    (hdirectory : d.get? l ≠ some .directory) : d.obstacle? path l = none := by
  simp only [FilePath.namesDirectory, List.contains_eq_mem, List.mem_cons, List.not_mem_nil,
    or_false, decide_eq_false_iff_not, not_or] at hname
  obtain ⟨hempty, hdot, hdots⟩ := hname
  unfold obstacle?
  split <;> simp_all

theorem create_ok {path : String} (h : d.act (.create path) = .ok d') :
    ∃ l, d.locate path = .ok l ∧ d.get? l ≠ some .directory ∧ d' = d.put l (.file []) := by
  obtain ⟨l, hl, h⟩ := Except.bind_ok h
  refine ⟨l, hl, ?_⟩
  split at h
  · cases h
  · rename_i hother
    cases h
    exact ⟨hother, rfl⟩

theorem append_ok {path : String} {bytes : List UInt8} (h : d.act (.append path bytes) = .ok d') :
    ∃ l old, d.locate path = .ok l ∧ d.get? l = some (.file old) ∧
      d' = d.put l (.file (old ++ bytes)) := by
  obtain ⟨l, hl, h⟩ := Except.bind_ok h
  split at h
  · rename_i old hold
    cases h
    exact ⟨l, old, hl, hold, rfl⟩
  · cases h
  · cases h

theorem sync_ok {path : String} (h : d.act (.sync path) = .ok d') : d' = d := by
  obtain ⟨l, hl, h⟩ := Except.bind_ok h
  cases h
  rfl

theorem rename_ok {source target : String} (h : d.act (.rename source target) = .ok d') :
    ∃ s t bytes, d.locate source = .ok s ∧ d.locate target = .ok t ∧
      d.get? s = some (.file bytes) ∧ d.obstacle? target t = none ∧
      d' = if s = t then d else (d.delete s).put t (.file bytes) := by
  obtain ⟨s, hs, h⟩ := Except.bind_ok h
  obtain ⟨t, ht, h⟩ := Except.bind_ok h
  split at h
  · cases h
  · cases h
  · rename_i bytes hbytes
    cases hobstacle : d.obstacle? target t with
    | some fault =>
      rw [hobstacle] at h
      cases h
    | none =>
      rw [hobstacle] at h
      exact ⟨s, t, bytes, hs, ht, hbytes, hobstacle, (Except.ok.inj h).symm⟩

theorem act_makeDirectories_ok {path : String} (h : d.act (.makeDirectories path) = .ok d') :
    d.KeepsDirectories d' ∧
      ∀ d'', d'.KeepsDirectories d'' → d''.act (.makeDirectories path) = .ok d'' := by
  by_cases hnul : path.toList.contains '\x00' = true
  · rw [act, if_pos hnul] at h
    cases h
  · rw [act, if_neg hnul] at h
    obtain ⟨hkeeps, hagain⟩ := makeDirectories_ok h
    refine ⟨hkeeps, fun d'' h'' => ?_⟩
    rw [act, if_neg hnul]
    exact hagain d'' h''

theorem act_keeps {action : Action} (h : d.act action = .ok d') : d.KeepsDirectories d' := by
  cases action with
  | makeDirectories path => exact (act_makeDirectories_ok h).1
  | create path =>
    obtain ⟨l, -, hl, rfl⟩ := create_ok h
    exact keepsDirectories_put fun hdirectory => absurd hdirectory hl
  | append path bytes =>
    obtain ⟨l, old, -, hold, rfl⟩ := append_ok h
    refine keepsDirectories_put fun hdirectory => ?_
    rw [hold] at hdirectory
    cases hdirectory
  | sync path =>
    rw [sync_ok h]
    exact .refl d
  | rename source target =>
    obtain ⟨s, t, bytes, -, -, hs, hobstacle, rfl⟩ := rename_ok h
    split
    · exact .refl d
    · have hdelete : d.KeepsDirectories (d.delete s) := by
        refine keepsDirectories_delete ?_
        rw [hs]
        exact nofun
      refine hdelete.trans (keepsDirectories_put fun hdirectory => ?_)
      rw [get?_delete] at hdirectory
      split_ifs at hdirectory with hroot
      · exact absurd (hroot ▸ d.get?_root) (obstacle?_eq_none hobstacle).2
      · exact absurd hdirectory (obstacle?_eq_none hobstacle).2

def Holds (d : Disk) (path : String) (bytes : List UInt8) : Prop :=
  FilePath.namesDirectory path = false ∧
    ∃ l, d.locate path = .ok l ∧ d.get? l = some (.file bytes)

theorem Holds.find? {path : String} {bytes : List UInt8} (h : d.Holds path bytes) :
    d.find? path = some (.file bytes) := by
  obtain ⟨-, l, hl, hfile⟩ := h
  rw [Disk.find?, hl]
  exact hfile

theorem Holds.read {path : String} {bytes : List UInt8} (h : d.Holds path bytes) :
    d.read path = .ok bytes := by
  obtain ⟨-, l, hl, hfile⟩ := h
  rw [Disk.read, hl]
  simp only [bind, Except.bind, hfile]
  rfl

theorem get?_put_file {l : Location} {bytes : List UInt8} (h : d.get? l ≠ some .directory) :
    (d.put l (.file bytes)).get? l = some (.file bytes) := by
  have hroot : l ≠ [] := fun hl => h (hl ▸ d.get?_root)
  rw [get?_put, if_neg hroot, if_pos rfl]

theorem put_put (d : Disk) (l : Location) (e e' : DiskEntry) :
    (d.put l e).put l e' = d.put l e' := by
  simp [put, List.filter_filter]

theorem write_ok {path : String} {bytes : List UInt8} {d₁ d₂ : Disk}
    (hcreate : d.act (.create path) = .ok d₁) (happend : d₁.act (.append path bytes) = .ok d₂) :
    FilePath.namesDirectory path = false ∧ ∃ l, d.locate path = .ok l ∧
      d.get? l ≠ some .directory ∧ d₂ = d.put l (.file bytes) := by
  have hkeeps := act_keeps hcreate
  obtain ⟨l, hl, hdirectory, rfl⟩ := create_ok hcreate
  obtain ⟨l', old, hl', hold, rfl⟩ := append_ok happend
  obtain ⟨-, hwalk', hfile⟩ := locate_ok hl'
  have hname := hfile old hold
  have hsame : l' = l := by
    have hwalk := walk_keeps hkeeps (locate_ok hl).2.1
    exact Except.ok.inj (hwalk'.symm.trans hwalk)
  subst hsame
  rw [get?_put_file hdirectory] at hold
  cases hold
  exact ⟨hname, l', hl, hdirectory, put_put d l' (.file []) (.file bytes)⟩

theorem holds_of_write {path : String} {bytes : List UInt8} {d₁ d₂ : Disk}
    (hcreate : d.act (.create path) = .ok d₁) (happend : d₁.act (.append path bytes) = .ok d₂) :
    d₂.Holds path bytes := by
  have hkeeps := (act_keeps hcreate).trans (act_keeps happend)
  obtain ⟨hname, l, hl, hdirectory, rfl⟩ := write_ok hcreate happend
  exact ⟨hname, l, locate_keeps hkeeps hl hname, get?_put_file hdirectory⟩

theorem holds_of_rename {source target : String} {bytes : List UInt8} (hs : d.Holds source bytes)
    (h : d.act (.rename source target) = .ok d') : d'.Holds target bytes := by
  have hkeeps := act_keeps h
  obtain ⟨-, l, hl, hfile⟩ := hs
  obtain ⟨s, t, found, hs, ht, hfound, hobstacle, rfl⟩ := rename_ok h
  obtain ⟨hname, hdirectory⟩ := obstacle?_eq_none hobstacle
  obtain rfl : l = s := Except.ok.inj (hl.symm.trans hs)
  obtain rfl : found = bytes := by
    rw [hfile] at hfound
    cases hfound
    rfl
  refine ⟨hname, t, locate_keeps hkeeps ht hname, ?_⟩
  split
  · rename_i hst
    exact hst ▸ hfile
  · refine get?_put_file ?_
    rw [get?_delete]
    split_ifs with hroot
    · exact absurd (hroot ▸ d.get?_root) hdirectory
    · exact nofun
    · exact hdirectory

end DeviceAuth.Store.Disk
