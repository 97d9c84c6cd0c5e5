import DeviceAuth.Proofs.Store.Interruption

/-! Files that lie in one directory. Their paths share all components but the last, so once the
directory is there its place is all that a disk has to do with where they are. -/
namespace DeviceAuth.Store

namespace FilePath

variable {base name : List Char}

theorem exists_base_join (directory : String) :
    ∃ base, IsBase base ∧ componentsOf base = components directory ∧
      ∀ name : String, '/' ∉ name.toList → (join directory name).toList = base ++ name.toList := by
  have hrelative (name : String) (hslash : '/' ∉ name.toList) : isAbsolute name = false := by
    rw [isAbsolute, beq_eq_false_iff_ne]
    exact fun hhead => hslash (List.mem_of_head? hhead)
  by_cases hempty : directory = ""
  · refine ⟨[], .inl rfl, by rw [hempty]; rfl, fun name hslash => ?_⟩
    rw [join, if_pos (.inr hempty), List.nil_append]
  by_cases hlast : directory.toList.getLast? = some '/'
  · refine ⟨directory.toList, .inr ?_, rfl, fun name hslash => ?_⟩
    · obtain ⟨init, hinit⟩ := List.getLast?_eq_some_iff.mp hlast
      exact ⟨init, hinit⟩
    · rw [join, if_neg (by simp [hrelative name hslash, hempty]), if_pos hlast,
        String.toList_append]
  · refine ⟨directory.toList ++ ['/'], .inr ⟨_, rfl⟩, ?_, fun name hslash => ?_⟩
    · rw [componentsOf_append_slash, componentsOf_nil, List.append_nil]
      rfl
    · rw [join, if_neg (by simp [hrelative name hslash, hempty]), if_neg hlast,
        String.toList_append, String.toList_append]
      rfl

variable {directory database : String}

theorem components_join {name : String} (hslash : '/' ∉ name.toList) (hne : name ≠ "")
    (hdot : name ≠ ".") : components (join directory name) = components directory ++ [name] := by
  obtain ⟨base, hbase, hcomponents, hjoin⟩ := exists_base_join directory
  rw [← String.ofList_toList (s := join directory name), components_ofList, hjoin name hslash,
    componentsOf_append_name hbase hslash (fun h => hne (String.toList_injective h))
      (fun h => hdot (String.toList_injective h)), hcomponents, String.ofList_toList]

theorem json_ne_dots (database : String) : (database ++ ".json").toList ≠ ['.', '.'] := by
  intro h
  have hlength := congrArg List.length h
  simp at hlength

theorem stem_json (hne : database ≠ "") : stem (database ++ ".json").toList = database.toList := by
  have hsplit : Text.splitFirst '.' (database ++ ".json").toList.reverse =
      some (['n', 'o', 's', 'j'], database.toList.reverse) := by
    rw [String.toList_append, List.reverse_append]
    rfl
  rw [stem, if_neg (json_ne_dots database), hsplit]
  dsimp only
  rw [if_neg, List.reverse_reverse]
  simpa using hne

theorem IsBase.takeWhile_reverse (hbase : IsBase base) (hname : '/' ∉ name) :
    (base ++ name).reverse.takeWhile (· ≠ '/') = name.reverse ∧
      (base ++ name).reverse.dropWhile (· ≠ '/') = base.reverse := by
  have hletters : ∀ c ∈ name.reverse, decide (c ≠ '/') = true := by
    intro c hc
    rw [decide_eq_true_iff]
    rintro rfl
    exact hname (List.mem_reverse.mp hc)
  rw [List.reverse_append, List.takeWhile_append_of_pos hletters,
    List.dropWhile_append_of_pos hletters]
  obtain rfl | ⟨init, rfl⟩ := hbase <;> simp

theorem namesDirectory_join (directory : String) {name : String} (hslash : '/' ∉ name.toList)
    (hname : name ∉ ["", ".", ".."]) : namesDirectory (join directory name) = false := by
  obtain ⟨base, hbase, -, hjoin⟩ := exists_base_join directory
  rw [namesDirectory, ending, hjoin name hslash, (hbase.takeWhile_reverse hslash).1,
    List.reverse_reverse, String.ofList_toList]
  simpa using hname

theorem append_not_mem_dots (s : String) {extension : String}
    (h : 3 ≤ extension.toList.length) : s ++ extension ∉ ["", ".", ".."] := by
  intro hmem
  have hlength : 3 ≤ (s ++ extension).toList.length := by
    rw [String.toList_append, List.length_append]
    omega
  simp only [List.mem_cons, List.not_mem_nil, or_false] at hmem
  obtain heq | heq | heq := hmem <;> rw [heq] at hlength <;> exact absurd hlength (by decide)

theorem trimEnd_join (hslash : '/' ∉ database.toList) :
    trimEnd (join directory (database ++ ".json")).toList.reverse =
      (join directory (database ++ ".json")).toList.reverse := by
  obtain ⟨base, -, -, hjoin⟩ := exists_base_join directory
  have hreverse : (join directory (database ++ ".json")).toList.reverse =
      'n' :: ("osj.".toList ++ (base ++ database.toList).reverse) := by
    rw [hjoin _ (by simp [hslash])]
    simp
  rw [hreverse, trimEnd] <;> simp

theorem withExtension_join (hslash : '/' ∉ database.toList) (hne : database ≠ "") :
    withExtension (join directory (database ++ ".json")) "tmp" =
      join directory (database ++ ".tmp") := by
  have hjson : '/' ∉ (database ++ ".json").toList := by simp [hslash]
  have htmp : '/' ∉ (database ++ ".tmp").toList := by simp [hslash]
  obtain ⟨base, hbase, -, hjoin⟩ := exists_base_join directory
  obtain ⟨htake, hdrop⟩ := hbase.takeWhile_reverse hjson
  refine String.toList_injective ?_
  unfold withExtension
  rw [trimEnd_join hslash, hjoin _ hjson, hjoin _ htmp]
  simp only [htake, hdrop, List.reverse_reverse, stem_json hne]
  rw [if_neg (not_or.mpr ⟨by simp, json_ne_dots database⟩)]
  simp

theorem parent?_join (directory : String) (hslash : '/' ∉ database.toList) :
    ∃ parent, parent? (join directory (database ++ ".json")) = some parent ∧
      components parent = components directory := by
  have hjson : '/' ∉ (database ++ ".json").toList := by simp [hslash]
  obtain ⟨base, hbase, hcomponents, hjoin⟩ := exists_base_join directory
  obtain ⟨-, hdrop⟩ := hbase.takeWhile_reverse hjson
  refine ⟨String.ofList (trimEnd base.reverse).reverse, ?_, ?_⟩
  · rw [parent?, trimEnd_join hslash, hjoin _ hjson]
    split
    · simp_all
    · simp_all
    · rw [hdrop]
  · rw [components_ofList, componentsOf_trimEnd, List.reverse_reverse, hcomponents]

end FilePath

namespace Disk

variable {d d' : Disk} {directory : String} {dir : Location}

structure HasDirectory (d : Disk) (directory : String) (dir : Location) : Prop where
  walk : d.walk [] (FilePath.components directory) = .ok dir
  found : d.get? dir = some .directory

theorem HasDirectory.keeps (h : d.HasDirectory directory dir) (hkeeps : d.KeepsDirectories d') :
    d'.HasDirectory directory dir :=
  ⟨walk_keeps hkeeps h.walk, hkeeps dir h.found⟩

theorem walk_cons {l : Location} (hl : d.get? l = some .directory) (name : String)
    (rest : List String) :
    d.walk l (name :: rest) = checkName name >>= fun _ =>
      d.walk (if name = ".." then l.dropLast else l ++ [name]) rest := by
  rw [walk, hl]

theorem walk_append {l l' : Location} {names : List String} (h : d.walk l names = .ok l')
    (rest : List String) : d.walk l (names ++ rest) = d.walk l' rest := by
  induction names generalizing l with
  | nil =>
    cases h
    rfl
  | cons name names ih =>
    obtain ⟨hl, -⟩ := walk_cons_ok h
    rw [walk_cons hl] at h
    obtain ⟨_, hname, h⟩ := Except.bind_ok h
    rw [List.cons_append, walk_cons hl, hname]
    exact ih h

theorem HasDirectory.locate (h : d.HasDirectory directory dir) {name : String}
    (hslash : '/' ∉ name.toList) (hname : name ∉ ["", ".", ".."]) :
    d.locate (FilePath.join directory name) =
      if (FilePath.join directory name).toList.contains '\x00' then .error .nulByte
      else (checkName name).map fun _ => dir ++ [name] := by
  have hnamed := FilePath.namesDirectory_join directory hslash hname
  simp only [List.mem_cons, List.not_mem_nil, or_false, not_or] at hname
  obtain ⟨hempty, hdot, hup⟩ := hname
  unfold Disk.locate
  rw [FilePath.components_join hslash hempty hdot, walk_append h.walk, walk_cons h.found,
    if_neg hup, hnamed]
  by_cases hnul : (FilePath.join directory name).toList.contains '\x00' = true
  · rw [if_pos hnul, if_pos hnul]
    rfl
  rw [if_neg hnul, if_neg hnul]
  cases checkName name with
  | error fault => rfl
  | ok _ =>
    simp only [bind, Except.bind, Disk.walk, Except.map]
    split <;> rfl

theorem makeDirectories_of_walk {l : Location} {names made : List String}
    (hwalk : d.walk l names = .ok dir) (hfound : d.get? dir = some .directory)
    (hmade : made <+: names) : d.makeDirectories l made = .ok d := by
  induction names generalizing l made with
  | nil =>
    rw [List.prefix_nil.mp hmade]
    rfl
  | cons name names ih =>
    obtain rfl | ⟨made, rfl, hrest⟩ := List.prefix_cons_iff.mp hmade
    · rfl
    obtain ⟨hl, -⟩ := walk_cons_ok hwalk
    rw [walk_cons hl] at hwalk
    obtain ⟨_, hname, hwalk⟩ := Except.bind_ok hwalk
    have hnext : d.get? (if name = ".." then l.dropLast else l ++ [name]) = some .directory := by
      cases names with
      | nil =>
        cases hwalk
        exact hfound
      | cons _ _ => exact (walk_cons_ok hwalk).1
    rw [makeDirectories, hname]
    simp only [bind, Except.bind, hnext]
    exact ih hwalk hrest

theorem walk_of_makeDirectories {l : Location} {names : List String}
    (h : d.makeDirectories l names = .ok d') (hl : d.get? l = some .directory) :
    ∃ l', d'.walk l names = .ok l' ∧ d'.get? l' = some .directory := by
  have hkeeps := (makeDirectories_ok h).1
  induction names generalizing d l with
  | nil =>
    cases h
    exact ⟨l, rfl, hl⟩
  | cons name names ih =>
    rw [makeDirectories] at h
    obtain ⟨_, hname, h⟩ := Except.bind_ok h
    dsimp only at h
    have hrest : ∃ d₁ : Disk, d₁.makeDirectories
        (if name = ".." then l.dropLast else l ++ [name]) names = .ok d' ∧
          d₁.get? (if name = ".." then l.dropLast else l ++ [name]) = some .directory := by
      split at h
      · exact ⟨d, h, ‹_›⟩
      · cases h
      · exact ⟨_, h, by rw [get?_put, if_pos rfl, ite_self]⟩
    obtain ⟨d₁, h, hnext⟩ := hrest
    obtain ⟨l', hwalk, hfound⟩ := ih h hnext (makeDirectories_ok h).1
    refine ⟨l', ?_, hfound⟩
    rw [walk_cons (hkeeps l hl), hname]
    exact hwalk

end Disk

end DeviceAuth.Store
