import DeviceAuth.Proofs.Store.Disk
import Mathlib.Data.List.TakeWhile

/-! The components of a path, and of the path with another extension. -/
namespace DeviceAuth.Store.FilePath

def componentsOf (cs : List Char) : List String :=
  ((cs.splitOnP (· = '/')).map String.ofList).filter fun c => c ≠ "" ∧ c ≠ "."

theorem components_ofList (cs : List Char) : components (String.ofList cs) = componentsOf cs := by
  rw [components, componentsOf, String.toList_ofList]

theorem componentsOf_append_slash (cs rest : List Char) :
    componentsOf (cs ++ '/' :: rest) = componentsOf cs ++ componentsOf rest := by
  simp [componentsOf, List.splitOnP_append_cons]

theorem componentsOf_nil : componentsOf [] = [] := by decide

theorem componentsOf_trimEnd (cs : List Char) :
    componentsOf (trimEnd cs).reverse = componentsOf cs.reverse := by
  induction cs using trimEnd.induct with
  | case1 => rw [trimEnd]
  | case2 rest hne ih =>
    rw [trimEnd, ih, List.reverse_cons, componentsOf_append_slash, componentsOf_nil,
      List.append_nil]
    exact hne
  | case3 rest ih =>
    have hdot : componentsOf ['.'] = [] := by decide
    rw [trimEnd, ih]
    simp only [List.reverse_cons, List.append_assoc, List.cons_append, List.nil_append,
      componentsOf_append_slash, hdot, componentsOf_nil]
  | case4 cs h₁ h₂ h₃ => rw [trimEnd] <;> assumption

theorem trimEnd_ne_slash (cs rest : List Char) (h : trimEnd cs = '/' :: rest) : rest = [] := by
  induction cs using trimEnd.induct with
  | case1 =>
    rw [trimEnd] at h
    cases h
    rfl
  | case2 tail hne ih =>
    rw [trimEnd] at h
    · exact ih h
    · exact hne
  | case3 tail ih =>
    rw [trimEnd] at h
    exact ih h
  | case4 cs h₁ h₂ h₃ =>
    rw [trimEnd] at h
    · exact absurd h (h₂ rest)
    all_goals assumption

/-- The name that is cut from the end of a path is among its components, unless there is none. -/
theorem componentsOf_of_name {cs : List Char} (hcs : ∀ rest, cs = '/' :: rest → rest = []) :
    ((cs.takeWhile (· ≠ '/')).reverse = [] → componentsOf cs.reverse = []) ∧
      ((cs.takeWhile (· ≠ '/')).reverse = ['.', '.'] →
        ∃ init, componentsOf cs.reverse = init ++ [".."]) := by
  have hsplit : cs.takeWhile (· ≠ '/') ++ cs.dropWhile (· ≠ '/') = cs :=
    List.takeWhile_append_dropWhile
  have hdrop : cs.dropWhile (· ≠ '/') = [] ∨ ∃ rest, cs.dropWhile (· ≠ '/') = '/' :: rest := by
    have hhead := List.head?_dropWhile_not (· ≠ '/') cs
    cases h : cs.dropWhile (· ≠ '/') with
    | nil => exact .inl rfl
    | cons c rest =>
      rw [h] at hhead
      exact .inr ⟨rest, by simpa using hhead⟩
  constructor
  · intro hname
    rw [List.reverse_eq_nil_iff.mp hname, List.nil_append] at hsplit
    rw [← hsplit]
    rcases hdrop with hnil | ⟨rest, hslash⟩
    · rw [hnil]
      decide
    · rw [hslash, hcs rest (hsplit.symm.trans hslash)]
      decide
  · intro hname
    have hdots : componentsOf ['.', '.'] = [".."] := by decide
    rw [List.reverse_eq_iff.mp hname] at hsplit
    rcases hdrop with hnil | ⟨rest, hslash⟩
    · rw [hnil] at hsplit
      exact ⟨[], by rw [← hsplit]; exact hdots⟩
    · rw [hslash] at hsplit
      refine ⟨componentsOf rest.reverse, ?_⟩
      rw [← hsplit, ← hdots, ← componentsOf_append_slash]
      simp

theorem namesDirectory_extended (s extension : String) (hslash : '/' ∉ extension.toList)
    (hlong : 2 ≤ extension.toList.length) : namesDirectory (s ++ "." ++ extension) = false := by
  have hending : ending (s ++ "." ++ extension) =
      String.ofList
        ((s.toList.reverse.takeWhile (· ≠ '/')).reverse ++ '.' :: extension.toList) := by
    have hletters : ∀ c ∈ extension.toList.reverse ++ ['.'], decide (c ≠ '/') = true := by
      intro c hc
      rw [decide_eq_true_iff]
      rintro rfl
      simp [hslash] at hc
    have hreverse : (s ++ "." ++ extension).toList.reverse =
        (extension.toList.reverse ++ ['.']) ++ s.toList.reverse := by simp
    rw [ending, hreverse, List.takeWhile_append_of_pos hletters]
    simp
  have hname : ∀ name : String, name.toList.length < 3 → ending (s ++ "." ++ extension) ≠ name := by
    rintro name hshort rfl
    rw [hending, String.toList_ofList, List.length_append, List.length_cons] at hshort
    omega
  simp only [namesDirectory, List.contains_eq_mem, List.mem_cons, List.not_mem_nil, or_false,
    decide_eq_false_iff_not, not_or]
  exact ⟨hname _ (by decide), hname _ (by decide), hname _ (by decide)⟩

theorem mem_of_mem_stem {c : Char} {name : List Char} (h : c ∈ stem name) : c ∈ name := by
  unfold stem at h
  split at h
  · exact h
  split at h
  · exact h
  · rename_i before hsplit
    split at h
    · exact h
    · have hname := (Text.splitFirst_eq_some hsplit).1
      rw [List.mem_reverse] at h
      rw [← List.mem_reverse, hname]
      exact List.mem_append_right _ (List.mem_cons_of_mem _ h)

/-- What stands before a name: nothing, or directories with a slash behind them. -/
def IsBase (base : List Char) : Prop := base = [] ∨ ∃ init, base = init ++ ['/']

theorem componentsOf_append_name {base name : List Char} (hbase : IsBase base) (hslash : '/' ∉ name)
    (hne : name ≠ []) (hdot : name ≠ ['.']) :
    componentsOf (base ++ name) = componentsOf base ++ [String.ofList name] := by
  have hsingle : componentsOf name = [String.ofList name] := by
    have hsplit : name.splitOnP (· = '/') = [name] := by
      refine List.splitOnP_eq_singleton fun c hc => ?_
      rw [decide_eq_false_iff_not]
      rintro rfl
      exact hslash hc
    have hempty : String.ofList name ≠ "" := fun h => hne (String.ofList_injective h)
    have hpoint : String.ofList name ≠ "." := fun h => hdot (String.ofList_injective h)
    simp [componentsOf, hsplit, hempty, hpoint]
  obtain rfl | ⟨init, rfl⟩ := hbase
  · rw [List.nil_append, hsingle, componentsOf_nil, List.nil_append]
  · rw [List.append_assoc, List.singleton_append, componentsOf_append_slash, hsingle,
      componentsOf_append_slash, componentsOf_nil, List.append_nil]

/-- The path of a file ends in a name, and it is the name that takes another extension. -/
theorem exists_name {path : String} (h : namesDirectory path = false) :
    ∃ base name, path.toList = base ++ name ∧ IsBase base ∧ '/' ∉ name ∧
      (name ≠ [] ∧ name ≠ ['.'] ∧ name ≠ ['.', '.']) ∧ ∀ extension, withExtension path extension =
        String.ofList (base ++ stem name) ++ "." ++ extension := by
  have hname : (path.toList.reverse.takeWhile (· ≠ '/')).reverse ≠ [] ∧
      (path.toList.reverse.takeWhile (· ≠ '/')).reverse ≠ ['.'] ∧
      (path.toList.reverse.takeWhile (· ≠ '/')).reverse ≠ ['.', '.'] := by
    simp only [namesDirectory, List.contains_eq_mem, List.mem_cons, List.not_mem_nil, or_false,
      decide_eq_false_iff_not, not_or, ending] at h
    obtain ⟨hempty, hdot, hdots⟩ := h
    exact ⟨fun hn => hempty (by rw [hn]), fun hn => hdot (by rw [hn]), fun hn => hdots (by rw [hn])⟩
  have htrim : trimEnd path.toList.reverse = path.toList.reverse := by
    obtain ⟨hempty, hdot, -⟩ := hname
    rw [trimEnd]
    · rintro hslash
      simp [hslash] at hempty
    · rintro rest hslash
      simp [hslash] at hempty
    · rintro rest hpoint
      simp [hpoint] at hdot
  refine ⟨(path.toList.reverse.dropWhile (· ≠ '/')).reverse,
    (path.toList.reverse.takeWhile (· ≠ '/')).reverse, ?_, ?_, ?_, hname, fun extension => ?_⟩
  · rw [← List.reverse_append, List.takeWhile_append_dropWhile, List.reverse_reverse]
  · have hhead := List.head?_dropWhile_not (· ≠ '/') path.toList.reverse
    cases hdrop : path.toList.reverse.dropWhile (· ≠ '/') with
    | nil => exact .inl rfl
    | cons c rest =>
      rw [hdrop] at hhead
      obtain rfl : c = '/' := by simpa using hhead
      exact .inr ⟨rest.reverse, List.reverse_cons⟩
  · intro hslash
    have hne := List.mem_takeWhile_imp (List.mem_reverse.mp hslash)
    simp at hne
  · unfold withExtension
    simp only [htrim, List.isEmpty_iff]
    rw [if_neg (not_or.mpr ⟨hname.1, hname.2.2⟩)]

/-- The path of a file and that of its temporary file differ in their last component, if at all. -/
theorem exists_components {path : String} (h : namesDirectory path = false) :
    ∃ init name name', components path = init ++ [name] ∧
      components (withExtension path "tmp") = init ++ [name'] ∧ name ≠ ".." ∧ name' ≠ ".." ∧
        (name = name' → withExtension path "tmp" = path) := by
  obtain ⟨base, name, hpath, hbase, hslash, ⟨hne, hdot, hdots⟩, hextended⟩ := exists_name h
  have htemporary : withExtension path "tmp" =
      String.ofList (base ++ (stem name ++ ['.', 't', 'm', 'p'])) := by
    refine String.toList_injective ?_
    rw [hextended]
    simp
  have hslash' : '/' ∉ stem name ++ ['.', 't', 'm', 'p'] := by
    rw [List.mem_append]
    rintro (hmem | hmem)
    · exact hslash (mem_of_mem_stem hmem)
    · simp at hmem
  have hshort : ∀ other : List Char, other.length < 4 →
      stem name ++ ['.', 't', 'm', 'p'] ≠ other := by
    rintro other hlength rfl
    rw [List.length_append] at hlength
    exact absurd hlength (Nat.not_lt.mpr (Nat.le_add_left _ _))
  refine ⟨componentsOf base, String.ofList name, String.ofList (stem name ++ ['.', 't', 'm', 'p']),
    ?_, ?_, fun heq => hdots (String.ofList_injective heq),
    fun heq => hshort ['.', '.'] (by decide) (String.ofList_injective heq), fun heq => ?_⟩
  · rw [components, hpath]
    exact componentsOf_append_name hbase hslash hne hdot
  · rw [htemporary, components_ofList]
    exact componentsOf_append_name hbase hslash' (hshort [] (by decide)) (hshort ['.'] (by decide))
  · rw [htemporary, ← String.ofList_injective heq, ← hpath, String.ofList_toList]

end DeviceAuth.Store.FilePath
