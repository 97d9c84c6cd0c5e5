import DeviceAuth.Text.Blank
import Mathlib.Data.List.Basic

/-! The fields of a text are its maximal runs of characters outside a class. Splitting finds each of
them once for every place where it stands, in the order of the places. -/
namespace DeviceAuth.Text

variable {p : Char → Bool} {before run after cs : List Char} {n : Nat}

/-- A run of characters outside `p` that can be made longer at neither end. -/
structure IsRun (p : Char → Bool) (before run after : List Char) : Prop where
  nonempty : run ≠ []
  outside : ∀ c ∈ run, p c = false
  behind : ∀ c, before.getLast? = some c → p c = true
  ahead : ∀ c, after.head? = some c → p c = true

/-- The run stands behind the first `n` characters. -/
def RunAt (p : Char → Bool) (cs : List Char) (n : Nat) (run : List Char) : Prop :=
  ∃ before after, cs = before ++ run ++ after ∧ before.length = n ∧ IsRun p before run after

namespace IsRun

theorem of_append {front : List Char} (h : IsRun p (front ++ before) run after) :
    IsRun p before run after := by
  refine ⟨h.nonempty, h.outside, fun c hc => h.behind c ?_, h.ahead⟩
  rw [List.getLast?_append, hc]
  rfl

theorem append {front : List Char} (h : IsRun p before run after)
    (hfront : before = [] → ∀ c, front.getLast? = some c → p c = true) :
    IsRun p (front ++ before) run after := by
  refine ⟨h.nonempty, h.outside, fun c hc => ?_, h.ahead⟩
  rw [List.getLast?_append] at hc
  cases hlast : before.getLast? with
  | none =>
    rw [hlast] at hc
    exact hfront (List.getLast?_eq_none_iff.mp hlast) c hc
  | some last =>
    rw [hlast] at hc
    exact Option.some.inj hc ▸ h.behind last hlast

theorem eq_nil_of_outside {more : List Char} (h : IsRun p before run (more ++ after))
    (hmore : ∀ c ∈ more, p c = false) : more = [] := by
  cases more with
  | nil => rfl
  | cons c more =>
    have hseparates : p c = true := h.ahead c rfl
    rw [hmore c List.mem_cons_self] at hseparates
    cases hseparates

theorem eq_of_append_eq {other rest : List Char} (h : IsRun p [] run after)
    (ho : IsRun p [] other rest) (heq : run ++ after = other ++ rest) : run = other := by
  rcases List.append_eq_append_iff.mp heq with ⟨more, rfl, rfl⟩ | ⟨more, rfl, rfl⟩
  · have hnil := h.eq_nil_of_outside fun c hc => ho.outside c (List.mem_append_right _ hc)
    rw [hnil, List.append_nil]
  · have hnil := ho.eq_nil_of_outside fun c hc => h.outside c (List.mem_append_right _ hc)
    rw [hnil, List.append_nil]

end IsRun

theorem RunAt.outside (h : RunAt p cs n run) : ∀ c ∈ run, p c = false := by
  obtain ⟨_, _, -, -, hrun⟩ := h
  exact hrun.outside

theorem RunAt.nonempty (h : RunAt p cs n run) : run ≠ [] := by
  obtain ⟨_, _, -, -, hrun⟩ := h
  exact hrun.nonempty

theorem not_runAt_nil : ¬ RunAt p [] n run := by
  rintro ⟨before, after, hcs, -, hrun⟩
  have hnil := List.append_eq_nil_iff.mp hcs.symm
  exact hrun.nonempty (List.append_eq_nil_iff.mp hnil.1).2

theorem runAt_cons_iff {c : Char} (hc : p c = true) :
    RunAt p (c :: cs) n run ↔ ∃ m, n = 1 + m ∧ RunAt p cs m run := by
  constructor
  · rintro ⟨before, after, hcs, rfl, hrun⟩
    cases before with
    | nil =>
      obtain ⟨d, run, rfl⟩ := List.exists_cons_of_ne_nil hrun.nonempty
      obtain ⟨rfl, -⟩ := List.cons.inj hcs
      rw [hrun.outside c List.mem_cons_self] at hc
      cases hc
    | cons d before =>
      obtain ⟨rfl, rfl⟩ := List.cons.inj hcs
      have hmoved : IsRun p ([c] ++ before) run after := hrun
      exact ⟨before.length, Nat.add_comm _ _, before, after, rfl, rfl, hmoved.of_append⟩
  · rintro ⟨m, rfl, before, after, rfl, rfl, hrun⟩
    have hmoved : IsRun p ([c] ++ before) run after :=
      hrun.append fun _ d hd => Option.some.inj hd ▸ hc
    exact ⟨c :: before, after, rfl, Nat.add_comm _ _, hmoved⟩

theorem runAt_append_iff {front : List Char} (hfront : IsRun p [] front after) :
    RunAt p (front ++ after) n run ↔
      (n = 0 ∧ run = front) ∨ ∃ m, n = front.length + m ∧ RunAt p after m run := by
  constructor
  · rintro ⟨before, rest, hcs, rfl, hrun⟩
    rw [List.append_assoc] at hcs
    rcases List.append_eq_append_iff.mp hcs with ⟨gap, rfl, rfl⟩ | ⟨overlap, rfl, hover⟩
    · have hafter : gap ++ (run ++ rest) = gap ++ run ++ rest := (List.append_assoc _ _ _).symm
      exact .inr ⟨gap.length, List.length_append, gap, rest, hafter, rfl, hrun.of_append⟩
    · have hbefore : before = [] := by
        by_contra hsome
        have hlast := List.getLast?_eq_some_getLast hsome
        have hinside := hfront.outside _ (List.mem_append_left _ (List.getLast_mem hsome))
        rw [hrun.behind _ hlast] at hinside
        cases hinside
      subst hbefore
      exact .inl ⟨rfl, hrun.eq_of_append_eq hfront hover⟩
  · rintro (⟨rfl, rfl⟩ | ⟨m, rfl, before, rest, rfl, rfl, hrun⟩)
    · exact ⟨[], after, rfl, rfl, hfront⟩
    · have hcs : front ++ (before ++ run ++ rest) = front ++ before ++ run ++ rest := by
        simp only [List.append_assoc]
      refine ⟨front ++ before, rest, hcs, List.length_append, hrun.append fun hbefore => ?_⟩
      -- the first run would have gone on
      subst hbefore
      exact absurd (hfront.eq_nil_of_outside hrun.outside) hrun.nonempty

/-- Induction over a text that is read run by run. -/
theorem runs_induction {motive : List Char → Prop} (p : Char → Bool) (nil : motive [])
    (separator : ∀ c cs, p c = true → motive cs → motive (c :: cs))
    (run : ∀ run after, IsRun p [] run after → motive after → motive (run ++ after))
    (cs : List Char) : motive cs := by
  -- a run that has begun goes on over the first characters
  have hboth : motive cs ∧ ∀ front, front ≠ [] → (∀ c ∈ front, p c = false) →
      motive (front ++ cs) := by
    induction cs with
    | nil => exact ⟨nil, fun front hne hout => run front [] ⟨hne, hout, nofun, nofun⟩ nil⟩
    | cons c cs ih =>
      obtain ⟨hcs, hbegun⟩ := ih
      cases hc : p c with
      | true =>
        have hmotive := separator c cs hc hcs
        refine ⟨hmotive, fun front hne hout => run front (c :: cs) ⟨hne, hout, nofun, ?_⟩ hmotive⟩
        intro d hd
        exact Option.some.inj hd ▸ hc
      | false =>
        refine ⟨hbegun [c] (by simp) (by simpa using hc), fun front _ hout => ?_⟩
        have hlonger := hbegun (front ++ [c]) (by simp) fun d hd => by
          rcases List.mem_append.mp hd with hd | hd
          · exact hout d hd
          · exact List.mem_singleton.mp hd ▸ hc
        rwa [List.append_assoc] at hlonger
  exact hboth.1

theorem fieldsOutside_cons {c : Char} (hc : p c = true) (cs : List Char) :
    fieldsOutside p (c :: cs) = fieldsOutside p cs := by
  rw [fieldsOutside, List.splitOnP_cons_eq_if_modifyHead, if_pos hc]
  rfl

theorem fieldsOutside_append (h : IsRun p [] run after) :
    fieldsOutside p (run ++ after) = run :: fieldsOutside p after := by
  have hfirst : [run].filter (!·.isEmpty) = [run] := by simpa using h.nonempty
  cases after with
  | nil =>
    rw [List.append_nil, fieldsOutside, List.splitOnP_eq_singleton h.outside, hfirst]
    rfl
  | cons c after =>
    have hc : p c = true := h.ahead c rfl
    rw [fieldsOutside_cons hc, fieldsOutside, List.splitOnP_append_cons _ _ hc,
      List.splitOnP_eq_singleton h.outside, List.filter_append, hfirst]
    rfl

def moved (k : Nat) (placed : List (Nat × List Char)) : List (Nat × List Char) :=
  placed.map fun e => (k + e.1, e.2)

theorem mem_moved {k : Nat} {placed : List (Nat × List Char)} :
    (n, run) ∈ moved k placed ↔ ∃ m, n = k + m ∧ (m, run) ∈ placed := by
  simp only [moved, List.mem_map, Prod.mk.injEq]
  constructor
  · rintro ⟨⟨m, _⟩, hmem, rfl, rfl⟩
    exact ⟨m, rfl, hmem⟩
  · rintro ⟨m, rfl, hmem⟩
    exact ⟨(m, run), hmem, rfl, rfl⟩

theorem map_snd_moved (k : Nat) (placed : List (Nat × List Char)) :
    (moved k placed).map (·.2) = placed.map (·.2) := by
  rw [moved, List.map_map]
  rfl

theorem pairwise_moved {placed : List (Nat × List Char)} (h : placed.Pairwise (·.1 < ·.1))
    (k : Nat) : (moved k placed).Pairwise (·.1 < ·.1) :=
  h.map _ fun _ _ hlt => Nat.add_lt_add_left hlt k

theorem exists_placed (p : Char → Bool) (cs : List Char) :
    ∃ placed : List (Nat × List Char), placed.map (·.2) = fieldsOutside p cs ∧
      placed.Pairwise (·.1 < ·.1) ∧ ∀ n run, (n, run) ∈ placed ↔ RunAt p cs n run := by
  induction cs using runs_induction p with
  | nil => exact ⟨[], rfl, .nil, fun n run => iff_of_false List.not_mem_nil not_runAt_nil⟩
  | separator c cs hc ih =>
    obtain ⟨placed, hfields, hordered, hmem⟩ := ih
    refine ⟨moved 1 placed, ?_, pairwise_moved hordered 1, fun n run => ?_⟩
    · rw [map_snd_moved, hfields, fieldsOutside_cons hc]
    · simp only [mem_moved, hmem, runAt_cons_iff hc]
  | run front after hfront ih =>
    obtain ⟨placed, hfields, hordered, hmem⟩ := ih
    refine ⟨(0, front) :: moved front.length placed, ?_, ?_, fun n run => ?_⟩
    · rw [List.map_cons, map_snd_moved, hfields, fieldsOutside_append hfront]
    · refine List.pairwise_cons.mpr ⟨fun e he => ?_, pairwise_moved hordered _⟩
      obtain ⟨m, hm, -⟩ := mem_moved.mp (show (e.1, e.2) ∈ _ from he)
      have hpos := List.length_pos_iff.mpr hfront.nonempty
      show 0 < e.1
      omega
    · rw [List.mem_cons, Prod.mk.injEq, mem_moved, runAt_append_iff hfront]
      simp only [hmem]

theorem exists_placed_names (p : Char → Bool) (text : String) :
    ∃ placed : List (Nat × String),
      placed.map (·.2) = (fieldsOutside p text.toList).map String.ofList ∧
      placed.Pairwise (·.1 < ·.1) ∧
      ∀ n name, (n, name) ∈ placed ↔ RunAt p text.toList n name.toList := by
  obtain ⟨placed, hfields, hordered, hmem⟩ := exists_placed p text.toList
  refine ⟨placed.map fun e => (e.1, String.ofList e.2), ?_, hordered.map _ fun _ _ h => h, ?_⟩
  · rw [← hfields, List.map_map, List.map_map]
    rfl
  · intro n name
    rw [← hmem]
    constructor
    · intro h
      obtain ⟨e, he, heq⟩ := List.mem_map.mp h
      cases heq
      rwa [String.toList_ofList]
    · exact fun h => List.mem_map.mpr ⟨_, h, by rw [String.ofList_toList]⟩

/-- Every run of the text, kept once, in the order in which the runs first come up. -/
structure ListsRuns (p : Char → Bool) (text : String) (names : List String) : Prop where
  mem_iff : ∀ name, name ∈ names ↔ ∃ n, RunAt p text.toList n name.toList
  nodup : names.Nodup
  ordered : names.Pairwise fun a b =>
    ∃ n, RunAt p text.toList n a.toList ∧ ∀ m, RunAt p text.toList m b.toList → n < m

theorem ListsRuns.unique {text : String} {as bs : List String} (ha : ListsRuns p text as)
    (hb : ListsRuns p text bs) : as = bs := by
  have hperm : as.Perm bs := (List.perm_ext_iff_of_nodup ha.nodup hb.nodup).mpr fun name =>
    (ha.mem_iff name).trans (hb.mem_iff name).symm
  refine hperm.eq_of_pairwise (fun a b _ _ hab hba => ?_) ha.ordered hb.ordered
  obtain ⟨n, hn, hfirst⟩ := hab
  obtain ⟨m, hm, hother⟩ := hba
  exact absurd (hfirst m hm) (Nat.lt_asymm (hother n hn))

theorem fieldsOutside_intercalate {sep : Char} (hsep : p sep = true) {runs : List (List Char)}
    (h : ∀ run ∈ runs, run ≠ [] ∧ ∀ c ∈ run, p c = false) :
    fieldsOutside p ([sep].intercalate runs) = runs := by
  induction runs with
  | nil => rfl
  | cons run rest ih =>
    obtain ⟨⟨hne, hout⟩, hrest⟩ := List.forall_mem_cons.mp h
    cases rest with
    | nil =>
      have hrun : IsRun p [] run [] := ⟨hne, hout, nofun, nofun⟩
      have hfields := fieldsOutside_append hrun
      rw [List.append_nil] at hfields
      rw [List.intercalate_singleton]
      exact hfields
    | cons next rest =>
      have hrun : IsRun p [] run (sep :: [sep].intercalate (next :: rest)) :=
        ⟨hne, hout, nofun, fun c hc => Option.some.inj hc ▸ hsep⟩
      rw [List.intercalate_cons_cons, List.append_assoc]
      exact (fieldsOutside_append hrun).trans
        (congrArg _ ((fieldsOutside_cons hsep _).trans (ih hrest)))

end DeviceAuth.Text
