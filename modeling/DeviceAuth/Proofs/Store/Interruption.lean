import DeviceAuth.Proofs.Store.Failure
import DeviceAuth.Store.Basic

/-! A snapshot whose writing stops anywhere: because an action fails, or because everything stops
between two actions or within one. Unless the temporary file is the snapshot itself, the snapshot is
all old or all new. -/
namespace DeviceAuth.Store

namespace Disk

variable {d d' : Disk}

def bytes? (d : Disk) (l : Location) : Option (List UInt8) :=
  match d.get? l with
  | some (.file bytes) => some bytes
  | _ => none

def file? (d : Disk) (path : String) : Option (List UInt8) :=
  match d.locate path with
  | .ok l => d.bytes? l
  | .error _ => none

theorem file?_of_locate {path : String} {l : Location} (h : d.locate path = .ok l) :
    d.file? path = d.bytes? l := by
  rw [file?, h]

theorem bytes?_of_get? {l : Location} {bytes : List UInt8} (h : d.get? l = some (.file bytes)) :
    d.bytes? l = some bytes := by
  rw [bytes?, h]

theorem Holds.file? {path : String} {bytes : List UInt8} (h : d.Holds path bytes) :
    d.file? path = some bytes := by
  obtain ⟨-, l, hl, hfile⟩ := h
  rw [file?_of_locate hl, bytes?_of_get? hfile]

theorem file?_of_namesDirectory {path : String} (h : FilePath.namesDirectory path = true) :
    d.file? path = none := by
  cases hl : d.locate path with
  | error fault => rw [Disk.file?, hl]
  | ok l =>
    rw [file?_of_locate hl, bytes?]
    split
    · rename_i bytes hfile
      rw [(locate_ok hl).2.2 bytes hfile] at h
      cases h
    · rfl

theorem bytes?_put_of_ne {l l' : Location} (e : DiskEntry) (h : l' ≠ l) :
    (d.put l e).bytes? l' = d.bytes? l' := by
  unfold bytes?
  rw [get?_put, if_neg h]
  split_ifs with hroot
  · rw [hroot, get?_root]
  · rfl

theorem bytes?_makeDirectories {l : Location} {names : List String}
    (h : d.makeDirectories l names = .ok d') (l' : Location) : d'.bytes? l' = d.bytes? l' := by
  induction names generalizing d l with
  | nil =>
    cases h
    rfl
  | cons name rest ih =>
    obtain ⟨-, -, h⟩ := Except.bind_ok h
    dsimp only at h
    split at h
    · exact ih h
    · cases h
    · rename_i hnone
      rw [ih h]
      by_cases hl : l' = if name = ".." then l.dropLast else l ++ [name]
      · have hroot : l' ≠ [] := by
          rintro rfl
          rw [← hl, get?_root] at hnone
          cases hnone
        rw [bytes?, bytes?, get?_put, if_neg hroot, if_pos hl, hl, hnone]
      · exact bytes?_put_of_ne _ hl

theorem getLast?_of_walk {l l' : Location} {names : List String} {name : String}
    (hname : name ≠ "..") (h : d.walk l (names ++ [name]) = .ok l') : l'.getLast? = some name := by
  induction names generalizing l with
  | nil =>
    obtain ⟨-, hlast⟩ := walk_cons_ok h
    rw [if_neg hname] at hlast
    cases hlast
    exact List.getLast?_concat
  | cons first rest ih => exact ih (walk_cons_ok h).2

/-- What an action writes to a file is not sure to be on the disk until it is synced. -/
def Action.unsynced? : Action → Option String
  | .append path _ | .sync path => some path
  | .makeDirectories _ | .create _ | .rename _ _ => none

/-- What is on the disk when everything stops in the middle of an action: what was there before, or
all that the action does; some of the directories that it makes; or anything at all in a file that
is being written. -/
inductive Partly (d : Disk) : Action → Disk → Prop
  | untouched {action : Action} : Partly d action d
  | whole {action : Action} {d' : Disk} (h : d.act action = .ok d') : Partly d action d'
  | directories {path : String} {names : List String} {d' : Disk}
      (h : names <+: FilePath.components path) (hmade : d.makeDirectories [] names = .ok d') :
      Partly d (.makeDirectories path) d'
  | torn {action : Action} {path : String} {l : Location} {old : List UInt8} (bytes : List UInt8)
      (h : action.unsynced? = some path) (hl : d.locate path = .ok l)
      (hfile : d.get? l = some (.file old)) : Partly d action (d.put l (.file bytes))

/-- An action that writes to a file, or syncs it, does nothing else however it stops. -/
theorem Partly.of_unsynced {action : Action} {path : String} (h : d.Partly action d')
    (hunsynced : action.unsynced? = some path) :
    d' = d ∨ ∃ l bytes, d.locate path = .ok l ∧ d' = d.put l (.file bytes) := by
  cases h with
  | untouched => exact .inl rfl
  | directories h hmade => cases hunsynced
  | torn bytes h hl hfile =>
    cases hunsynced.symm.trans h
    exact .inr ⟨_, bytes, hl, rfl⟩
  | whole hact =>
    cases action with
    | makeDirectories _ | create _ | rename _ _ => cases hunsynced
    | sync path => exact .inl (sync_ok hact)
    | append path bytes =>
      cases hunsynced
      obtain ⟨l, old, hl, -, hput⟩ := append_ok hact
      exact .inr ⟨l, _, hl, hput⟩

end Disk

namespace FileStore

variable {path : String} {bytes : List UInt8} {d d' : Disk}

theorem locate_ne_of_temporaryPath {l : Location} (hne : temporaryPath path ≠ path)
    (hname : FilePath.namesDirectory path = false) (hl : d.locate (temporaryPath path) = .ok l) :
    d.locate path ≠ .ok l := by
  intro hpath
  obtain ⟨init, name, name', hcomponents, hcomponents', hup, hup', hsame⟩ :=
    FilePath.exists_components hname
  obtain ⟨-, hwalk, -⟩ := Disk.locate_ok hpath
  obtain ⟨-, hwalk', -⟩ := Disk.locate_ok hl
  rw [hcomponents] at hwalk
  rw [temporaryPath, hcomponents'] at hwalk'
  have hlast := (Disk.getLast?_of_walk hup hwalk).symm.trans (Disk.getLast?_of_walk hup' hwalk')
  exact hne (hsame (Option.some.inj hlast))

/-- The disks that the stages can stop at: because they are done, because one of them fails, or
because everything stops. -/
inductive StopsAt : List (Disk.Action × String) → Disk → Disk → Prop
  | done {d : Disk} : StopsAt [] d d
  | stopped {action : Disk.Action} {complaint : String} {rest : List (Disk.Action × String)}
      {d d' : Disk} (h : d.Partly action d') : StopsAt ((action, complaint) :: rest) d d'
  | passed {action : Disk.Action} {complaint : String} {rest : List (Disk.Action × String)}
      {d d₁ d' : Disk} (h : d.act action = .ok d₁) (hrest : StopsAt rest d₁ d') :
      StopsAt ((action, complaint) :: rest) d d'

theorem stopsAt_perform (stages : List (Disk.Action × String)) (d : Disk) :
    StopsAt stages d (perform stages d).2 := by
  induction stages generalizing d with
  | nil => exact .done
  | cons stage rest ih =>
    obtain ⟨action, complaint⟩ := stage
    unfold perform
    split
    · rename_i d₁ hact
      exact .passed hact (ih d₁)
    · exact .stopped .untouched

theorem StopsAt.of_append {first rest : List (Disk.Action × String)}
    (h : StopsAt (first ++ rest) d d') :
    StopsAt first d d' ∨ ∃ d₁, perform first d = (.ok (), d₁) ∧ StopsAt rest d₁ d' := by
  induction first generalizing d with
  | nil => exact .inr ⟨d, rfl, h⟩
  | cons stage first ih =>
    cases h with
    | stopped h => exact .inl (.stopped h)
    | passed hact h =>
      obtain h | ⟨d₁, hfirst, h⟩ := ih h
      · exact .inl (.passed hact h)
      · exact .inr ⟨d₁, (perform_cons_of_ok hact _ _).trans hfirst, h⟩

theorem StopsAt.append {first rest : List (Disk.Action × String)} {d₁ : Disk}
    (hfirst : perform first d = (.ok (), d₁)) (h : StopsAt rest d₁ d') :
    StopsAt (first ++ rest) d d' := by
  induction first generalizing d with
  | nil =>
    cases hfirst
    exact h
  | cons stage first ih =>
    obtain ⟨d₂, hact, hfirst⟩ := perform_cons_ok hfirst
    exact .passed hact (ih hfirst)

theorem StopsAt.keeps_of_directoryStage (h : StopsAt (directoryStage path) d d') :
    d.KeepsDirectories d' ∧ ∀ l, d'.bytes? l = d.bytes? l := by
  have hmade {names : List String} {d' : Disk} (h : d.makeDirectories [] names = .ok d') :
      d.KeepsDirectories d' ∧ ∀ l, d'.bytes? l = d.bytes? l :=
    ⟨(Disk.makeDirectories_ok h).1, Disk.bytes?_makeDirectories h⟩
  have hact {parent : String} {d' : Disk} (h : d.act (.makeDirectories parent) = .ok d') :
      d.KeepsDirectories d' ∧ ∀ l, d'.bytes? l = d.bytes? l := by
    simp only [Disk.act] at h
    split at h
    · cases h
    · exact hmade h
  unfold directoryStage at h
  split at h
  · cases h
    exact ⟨.refl d, fun l => rfl⟩
  · cases h with
    | stopped h =>
      cases h with
      | untouched => exact ⟨.refl d, fun l => rfl⟩
      | whole h => exact hact h
      | directories _ h => exact hmade h
      | torn _ h _ _ => cases h
    | passed h hrest =>
      cases hrest
      exact hact h

theorem TakesTemporary.of_partly {l : Location} {action : Disk.Action} {part : List UInt8}
    (ht : TakesTemporary path d l) (h : (d.put l (.file part)).Partly action d')
    (hunsynced : action.unsynced? = some (temporaryPath path)) :
    ∃ part', d' = d.put l (.file part') := by
  obtain rfl | ⟨l', part', hl', rfl⟩ := h.of_unsynced hunsynced
  · exact ⟨part, rfl⟩
  · have hl := Disk.locate_keeps (ht.keeps_put part) ht.locate ht.name
    obtain rfl : l' = l := Except.ok.inj (hl'.symm.trans hl)
    exact ⟨part', Disk.put_put _ _ _ _⟩

theorem created (h : d.act (.create (temporaryPath path)) = .ok d') :
    ∃ l, TakesTemporary path d l ∧ d' = d.put l (.file []) := by
  obtain ⟨l, ht⟩ := takesTemporary_of_create h
  obtain ⟨l', hl', -, rfl⟩ := Disk.create_ok h
  obtain rfl : l' = l := Except.ok.inj (hl'.symm.trans ht.locate)
  exact ⟨l', ht, rfl⟩

/-- Writing a snapshot stops before anything is done, or with something in the temporary file, or
when the snapshot is in place. -/
theorem StopsAt.writing_cases (h : StopsAt (writing path bytes) d d') :
    d' = d ∨ (∃ l part, TakesTemporary path d l ∧ d' = d.put l (.file part)) ∨
      d.KeepsDirectories d' ∧ d'.Holds path bytes := by
  cases h with
  | stopped h =>
    cases h with
    | untouched => exact .inl rfl
    | torn _ h _ _ => cases h
    | whole hcreate =>
      obtain ⟨l, ht, rfl⟩ := created hcreate
      exact .inr (.inl ⟨l, [], ht, rfl⟩)
  | passed hcreate h =>
    have hkeeps := Disk.act_keeps hcreate
    obtain ⟨l, ht, rfl⟩ := created hcreate
    cases h with
    | stopped h =>
      obtain ⟨part, rfl⟩ := ht.of_partly h rfl
      exact .inr (.inl ⟨l, part, ht, rfl⟩)
    | passed happend h =>
      have hkeeps' := hkeeps.trans (Disk.act_keeps happend)
      have hwritten := Disk.holds_of_write hcreate happend
      obtain ⟨part, rfl⟩ := ht.of_partly (.whole happend) rfl
      cases h with
      | stopped h =>
        obtain ⟨part, rfl⟩ := ht.of_partly h rfl
        exact .inr (.inl ⟨l, part, ht, rfl⟩)
      | passed hsync h =>
        obtain rfl := Disk.sync_ok hsync
        have hrenamed {d₁ : Disk}
            (hrename : (d.put l (.file part)).act (.rename (temporaryPath path) path) = .ok d₁) :
            d.KeepsDirectories d₁ ∧ d₁.Holds path bytes :=
          ⟨hkeeps'.trans (Disk.act_keeps hrename), Disk.holds_of_rename hwritten hrename⟩
        cases h with
        | stopped h =>
          cases h with
          | untouched => exact .inr (.inl ⟨l, part, ht, rfl⟩)
          | torn _ h _ _ => cases h
          | whole hrename => exact .inr (.inr (hrenamed hrename))
        | passed hrename h =>
          cases h
          exact .inr (.inr (hrenamed hrename))

/-- The snapshot at a path is whole: it is what was there before, or the new one. A path that led
nowhere before, for lack of directories, may lead to a file that was there. -/
structure Whole (path : String) (bytes : List UInt8) (d d' : Disk) : Prop where
  kept : ∀ l, d.locate path = .ok l → d'.file? path = d.file? path ∨ d'.file? path = some bytes
  found : ∀ l, d'.locate path = .ok l → d'.bytes? l = d.bytes? l ∨ d'.bytes? l = some bytes

theorem whole_of_found (hkeeps : d.KeepsDirectories d')
    (h : ∀ l, d'.locate path = .ok l → d'.bytes? l = d.bytes? l ∨ d'.bytes? l = some bytes) :
    Whole path bytes d d' := by
  refine ⟨fun l hl => ?_, h⟩
  cases hname : FilePath.namesDirectory path with
  | true =>
    rw [Disk.file?_of_namesDirectory hname, Disk.file?_of_namesDirectory hname]
    exact .inl rfl
  | false =>
    have hl' := Disk.locate_keeps hkeeps hl hname
    rw [Disk.file?_of_locate hl, Disk.file?_of_locate hl']
    exact h l hl'

theorem StopsAt.eq_of_create_ne_ok (h : StopsAt (writing path bytes) d d')
    (hcreate : ∀ d₁, d.act (.create (temporaryPath path)) ≠ .ok d₁) : d' = d := by
  cases h with
  | passed h hrest => exact absurd h (hcreate _)
  | stopped h =>
    cases h with
    | untouched => rfl
    | whole h => exact absurd h (hcreate _)
    | torn _ h _ _ => cases h

/-- However the writing of a snapshot stops, the snapshot at its path is whole, if the temporary
file is another or cannot be created. -/
theorem StopsAt.whole (h : StopsAt (stages path bytes) d d')
    (hother : temporaryPath path = path → ∀ d₁ d₂, perform (directoryStage path) d = (.ok (), d₁) →
      d₁.act (.create path) ≠ .ok d₂) : Whole path bytes d d' := by
  rw [stages_eq] at h
  obtain h | ⟨d₁, hmade, h⟩ := h.of_append
  · obtain ⟨hkeeps, hbytes⟩ := h.keeps_of_directoryStage
    exact whole_of_found hkeeps fun l _ => .inl (hbytes l)
  have hstop := stopsAt_perform (directoryStage path) d
  rw [hmade] at hstop
  obtain ⟨hkeeps, hbytes⟩ := hstop.keeps_of_directoryStage
  by_cases hsame : temporaryPath path = path
  · have hcreate := fun d₂ => hother hsame d₁ d₂ hmade
    rw [← hsame] at hcreate
    obtain rfl := h.eq_of_create_ne_ok hcreate
    exact whole_of_found hkeeps fun l _ => .inl (hbytes l)
  obtain rfl | ⟨lt, part, ht, rfl⟩ | ⟨hkeeps', hholds⟩ := h.writing_cases
  · exact whole_of_found hkeeps fun l _ => .inl (hbytes l)
  · refine whole_of_found (hkeeps.trans (ht.keeps_put part)) fun l hl => .inl ?_
    have hlt := Disk.locate_keeps (ht.keeps_put part) ht.locate ht.name
    have hl' : l ≠ lt := by
      rintro rfl
      have hname := (Disk.locate_ok hl).2.2 part (Disk.get?_put_file ht.free)
      exact locate_ne_of_temporaryPath hsame hname hlt hl
    rw [Disk.bytes?_put_of_ne _ hl', hbytes]
  · refine whole_of_found (hkeeps.trans hkeeps') fun l hl => .inr ?_
    rw [← Disk.file?_of_locate hl, hholds.file?]

/-- A temporary file that is the snapshot itself is emptied before anything is written to it, and
then holds what has been written so far; one of the two is not what was there before. -/
theorem exists_not_whole (hsame : temporaryPath path = path) (hlong : 2 ≤ bytes.length)
    {d₁ d₂ : Disk}
    (hmade : perform (directoryStage path) d = (.ok (), d₁))
    (hcreate : d₁.act (.create path) = .ok d₂) :
    ∃ d', StopsAt (stages path bytes) d d' ∧ ¬ Whole path bytes d d' := by
  obtain ⟨first, second, rest, rfl⟩ : ∃ first second rest, bytes = first :: second :: rest := by
    match bytes, hlong with
    | first :: second :: rest, _ => exact ⟨first, second, rest, rfl⟩
  rw [← hsame] at hcreate
  obtain ⟨l, ht, rfl⟩ := created hcreate
  have hput (part : List UInt8) : (d₁.put l (.file part)).locate path = .ok l := by
    have hl := Disk.locate_keeps (ht.keeps_put part) ht.locate ht.name
    rwa [hsame] at hl
  have hempty : (d₁.put l (.file [])).get? l = some (.file []) := Disk.get?_put_file ht.free
  have hemptied : StopsAt (stages path (first :: second :: rest)) d (d₁.put l (.file [])) :=
    .append hmade (.stopped (.whole hcreate))
  have hbegun : StopsAt (stages path (first :: second :: rest)) d (d₁.put l (.file [first])) := by
    refine .append hmade (.passed hcreate (.stopped ?_))
    have htorn := (hsame.symm ▸ hput [] : (d₁.put l (.file [])).locate (temporaryPath path) = .ok l)
    rw [← Disk.put_put d₁ l (.file []) (.file [first])]
    exact .torn [first] rfl htorn hempty
  by_cases hold : d.bytes? l = some []
  · refine ⟨_, hbegun, fun hwhole => ?_⟩
    have hfound := hwhole.found l (hput [first])
    rw [Disk.bytes?_of_get? (Disk.get?_put_file ht.free), hold] at hfound
    simp at hfound
  · refine ⟨_, hemptied, fun hwhole => ?_⟩
    have hfound := hwhole.found l (hput [])
    rw [Disk.bytes?_of_get? hempty] at hfound
    obtain hfound | hfound := hfound
    · exact hold hfound.symm
    · cases hfound

/-- Wherever the writing of a snapshot stops, be it because an action fails or because everything
stops, the snapshot is whole; but not if it is its own temporary file and that can be created. -/
theorem whole_iff_of_stops (path : String) (t : Table) (d : Disk) :
    StopsAt (stages path (Text.utf8 (snapshotText t))) d (persist path t d).2 ∧
      (∀ d', persist path t d = (.ok (), d') →
        d'.file? path = some (Text.utf8 (snapshotText t))) ∧
      ((∀ d', StopsAt (stages path (Text.utf8 (snapshotText t))) d d' →
          Whole path (Text.utf8 (snapshotText t)) d d') ↔
        (temporaryPath path = path → ∀ d₁ d₂, perform (directoryStage path) d = (.ok (), d₁) →
          d₁.act (.create path) ≠ .ok d₂)) := by
  refine ⟨stopsAt_perform _ d, fun d' h => (persist_ok h).1.file?, fun hwhole => ?_,
    fun hother => ?_⟩
  · intro hsame d₁ d₂ hmade hcreate
    obtain ⟨d', hstops, hnot⟩ := exists_not_whole hsame (two_le_length_snapshot t) hmade hcreate
    exact hnot (hwhole d' hstops)
  · exact fun d' hstops => hstops.whole hother

theorem temporaryPath_ne_of_json (s : String) : temporaryPath (s ++ ".json") ≠ s ++ ".json" := by
  intro h
  have hname : FilePath.namesDirectory (s ++ ".json") = false := by
    have hextended := FilePath.namesDirectory_extended s "json" (by decide) (by decide)
    rwa [String.append_assoc] at hextended
  obtain ⟨base, name, -, -, -, -, hextension⟩ := FilePath.exists_name hname
  rw [temporaryPath, hextension] at h
  have hlast := congrArg (fun s => s.toList.getLast?) h
  simp at hlast

theorem exists_join_json (directory database : String) :
    ∃ s, FilePath.join directory (database ++ ".json") = s ++ ".json" := by
  unfold FilePath.join
  split_ifs
  · exact ⟨database, rfl⟩
  · exact ⟨directory ++ database, String.append_assoc.symm⟩
  · exact ⟨directory ++ "/" ++ database, String.append_assoc.symm⟩

/-- A store that was opened by its URI never loses its snapshot to the writing of the next. -/
theorem whole_of_ofUri [Url.Idna] {uri database : String} {disk : Disk} {s : Store} {f : FileStore}
    (hopen : Store.ofUri uri database disk = .ok s) (hfile : s.backend = .file f)
    (h : StopsAt (stages f.path bytes) d d') : Whole f.path bytes d d' := by
  obtain ⟨name, hname⟩ : ∃ name, f.path = name ++ ".json" := by
    unfold Store.ofUri at hopen
    split at hopen
    · cases hopen
    split at hopen
    · cases hopen
      cases hfile
    split at hopen
    · split at hopen
      · cases hopen
      split at hopen
      · cases hopen
      split at hopen
      · cases hopen
      · rename_i hat
        cases hopen
        cases hfile
        rw [(atPath_ok hat).2.1]
        exact exists_join_json _ _
    · cases hopen
  refine h.whole fun hsame => ?_
  rw [hname] at hsame
  exact absurd hsame (temporaryPath_ne_of_json name)

def misnamed (bytes : List UInt8) : Disk := ⟨[(["x.tmp"], .file bytes)]⟩

theorem locate_misnamed (bytes : List UInt8) : (misnamed bytes).locate "x.tmp" = .ok ["x.tmp"] := by
  have hcomponents : FilePath.components "x.tmp" = ["x.tmp"] := by decide +kernel
  refine Disk.locate_of_walk (by decide) ?_ (by decide)
  rw [hcomponents]
  rfl

theorem holds_misnamed (bytes : List UInt8) : (misnamed bytes).Holds "x.tmp" bytes :=
  ⟨by decide, ["x.tmp"], locate_misnamed bytes, rfl⟩

/-- A snapshot that is its own temporary file holds no record once its writing has begun. -/
theorem not_whole_misnamed :
    ReopensAs "x.tmp" (misnamed (Text.utf8 (snapshotText .sample))) .sample ∧
      StopsAt (stages "x.tmp" (Text.utf8 (snapshotText .sample)))
        (misnamed (Text.utf8 (snapshotText .sample))) (misnamed []) ∧
      ReopensAs "x.tmp" (misnamed []) .empty ∧
      ¬ Whole "x.tmp" (Text.utf8 (snapshotText .sample))
        (misnamed (Text.utf8 (snapshotText .sample))) (misnamed []) := by
  have hparent : FilePath.parent? "x.tmp" = some "" := by decide +kernel
  have htemporary : temporaryPath "x.tmp" = "x.tmp" := by decide +kernel
  have hopens {bytes : List UInt8} {t : Table} (h : load "x.tmp" (misnamed bytes) = .ok t) :
      atPath "x.tmp" (misnamed bytes) = .ok (⟨"x.tmp", t⟩, misnamed bytes) := by
    rw [atPath, directoryStage_of_parent hparent]
    simp only [bind, Except.bind, h]
    rfl
  refine ⟨?_, ?_, ?_, fun hwhole => ?_⟩
  · have hw : Table.sample.WellFormed := Table.wellFormed_empty.insert rfl
    exact ⟨_, _, hopens (load_of_holds (holds_misnamed _) Table.isRepresentable_sample),
      hw.sameRecords_ofRecords⟩
  · refine .append (directoryStage_of_parent hparent _) (.stopped (.whole ?_))
    rw [htemporary, Disk.act, locate_misnamed]
    rfl
  · refine ⟨.empty, _, hopens ?_, .refl _⟩
    rw [load, (holds_misnamed []).find?]
  · have hkept := hwhole.kept _ (locate_misnamed _)
    rw [(holds_misnamed _).file?, (holds_misnamed _).file?] at hkept
    have hne := utf8_snapshotText_ne_nil .sample
    rcases hkept with h | h <;> exact hne (Option.some.inj h).symm

end FileStore

end DeviceAuth.Store
