import DeviceAuth.Proofs.Json.Decode
import DeviceAuth.Proofs.Text.Fields
import DeviceAuth.Scope
import Mathlib.Data.List.Induction

/-! Lists of scopes and their texts. Reading a text never fails and finds every run between commas
and blanks once, where it first comes up. A list is read back from its JSON form, and from its own
text as long as no scope has a comma in it. -/
namespace DeviceAuth

namespace Scope

variable {there items : List String} {s : String}

theorem addNew_concat (there items : List String) (s : String) :
    addNew there (items ++ [s]) =
      if s ∈ addNew there items then addNew there items else addNew there items ++ [s] := by
  induction items generalizing there with
  | nil => rfl
  | cons a items ih => exact ih _

/-- Among items with their places, one comes up before the other does for the first time. -/
def Precedes (placed : List (Nat × String)) (a b : String) : Prop :=
  ∃ n, (n, a) ∈ placed ∧ ∀ m, (m, b) ∈ placed → n < m

theorem Precedes.concat {placed : List (Nat × String)} {e : Nat × String}
    (hlast : ∀ x ∈ placed, x.1 < e.1) {a b : String} (h : Precedes placed a b) :
    Precedes (placed ++ [e]) a b := by
  obtain ⟨n, hn, hfirst⟩ := h
  refine ⟨n, List.mem_append_left [e] hn, fun m hm => ?_⟩
  rcases List.mem_append.mp hm with hm | hm
  · exact hfirst m hm
  · obtain rfl := List.mem_singleton.mp hm
    exact hlast (n, a) hn

theorem pairwise_addNew {placed : List (Nat × String)} (h : placed.Pairwise (·.1 < ·.1)) :
    (addNew [] (placed.map (·.2))).Pairwise (Precedes placed) := by
  induction placed using List.reverseRecOn with
  | nil => exact .nil
  | append_singleton placed e ih =>
    obtain ⟨hordered, -, hbefore⟩ := List.pairwise_append.mp h
    have hlast : ∀ x ∈ placed, x.1 < e.1 := fun x hx => hbefore x hx e List.mem_cons_self
    have hkept := (ih hordered).imp (Precedes.concat hlast)
    rw [List.map_append, List.map_singleton, addNew_concat]
    split
    · exact hkept
    · rename_i hnew
      refine List.pairwise_append.mpr ⟨hkept, List.pairwise_singleton _ _, fun a ha b hb => ?_⟩
      obtain rfl := List.mem_singleton.mp hb
      obtain ⟨x, hx, rfl⟩ : ∃ x ∈ placed, x.2 = a := by simpa [mem_addNew] using ha
      have habsent : ∀ m, (m, e.2) ∉ placed := fun m hm =>
        hnew (mem_addNew.mpr (.inr (List.mem_map.mpr ⟨(m, e.2), hm, rfl⟩)))
      exact Precedes.concat hlast ⟨x.1, hx, fun m hm => absurd hm (habsent m)⟩

theorem addNew_of_nodup (there items : List String) (h : (there ++ items).Nodup) :
    addNew there items = there ++ items := by
  induction items generalizing there with
  | nil => simp [addNew]
  | cons a items ih =>
    have hnew : a ∉ there := fun ha => by
      have hdisjoint := (List.nodup_append.mp h).2.2
      exact hdisjoint a ha a List.mem_cons_self rfl
    rw [addNew, if_neg hnew, ih _ (by rwa [List.append_assoc]), List.append_assoc]
    rfl

theorem error?_eq_none_iff : error? s = none ↔ s ≠ "" ∧ ∀ c ∈ s.toList, Text.isBlank c = false := by
  unfold error?
  split_ifs <;> simp_all [Text.hasBlank]

end Scope

namespace ScopeSet

variable {s : ScopeSet} {items : List String} {name text : String}

theorem ext_names {a b : ScopeSet} (h : a.names = b.names) : a = b := by
  cases a
  cases b
  cases h
  rfl

theorem ne_empty_of_mem (h : name ∈ s.names) : name ≠ "" :=
  (Scope.error?_eq_none_iff.mp (s.proper name h)).1

theorem not_isBlank_of_mem (h : name ∈ s.names) : ∀ c ∈ name.toList, Text.isBlank c = false :=
  (Scope.error?_eq_none_iff.mp (s.proper name h)).2

theorem ofList_eq_ok_iff :
    ofList items = .ok s ↔
      (∀ item ∈ items, Scope.error? item = none) ∧ s.names = Scope.addNew [] items := by
  unfold ofList
  split
  · rename_i e he
    refine iff_of_false nofun fun h => ?_
    obtain ⟨item, hitem, hfault⟩ := List.exists_of_findSome?_eq_some he
    cases (h.1 item hitem).symm.trans hfault
  · rename_i hproper
    rw [Except.ok.injEq, and_iff_right (List.findSome?_eq_none_iff.mp hproper)]
    exact ⟨fun h => h ▸ rfl, fun h => ext_names h.symm⟩

theorem exists_ofList (h : ∀ item ∈ items, Scope.error? item = none) :
    ∃ set, ofList items = .ok set ∧ set.names = Scope.addNew [] items := by
  have hproper : ∀ item ∈ Scope.addNew [] items, Scope.error? item = none := fun item hitem =>
    h item ((Scope.mem_addNew.mp hitem).resolve_left List.not_mem_nil)
  let set : ScopeSet := ⟨Scope.addNew [] items, hproper, Scope.nodup_addNew List.nodup_nil⟩
  exact ⟨set, ofList_eq_ok_iff.mpr ⟨h, rfl⟩, rfl⟩

theorem ofList_names (s : ScopeSet) : ofList s.names = .ok s :=
  ofList_eq_ok_iff.mpr ⟨s.proper, (Scope.addNew_of_nodup [] s.names s.nodup).symm⟩

theorem not_isSeparator_iff {c : Char} :
    isSeparator c = false ↔ c ≠ ',' ∧ Text.isBlank c = false := by
  simp [isSeparator]

theorem error?_of_runAt {cs : List Char} {n : Nat}
    (h : Text.RunAt isSeparator cs n name.toList) : Scope.error? name = none := by
  refine Scope.error?_eq_none_iff.mpr ⟨fun hempty => ?_, fun c hc => ?_⟩
  · exact h.nonempty (String.toList_eq_nil_iff.mpr hempty)
  · exact (not_isSeparator_iff.mp (h.outside c hc)).2

theorem exists_parseList (text : String) :
    ∃ set, parseList text = .ok set ∧ Text.ListsRuns isSeparator text set.names := by
  obtain ⟨placed, hfields, hordered, hmem⟩ := Text.exists_placed_names isSeparator text
  have hproper : ∀ item ∈ placed.map (·.2), Scope.error? item = none := by
    intro item hitem
    obtain ⟨⟨n, item⟩, hplaced, rfl⟩ := List.mem_map.mp hitem
    exact error?_of_runAt ((hmem n item).mp hplaced)
  obtain ⟨set, hset, hnames⟩ := exists_ofList hproper
  refine ⟨set, by rw [parseList, ← hfields, hset], fun name => ?_, set.nodup, ?_⟩
  · simp [hnames, Scope.mem_addNew, hmem]
  · rw [hnames]
    refine (Scope.pairwise_addNew hordered).imp fun {a b} hab => ?_
    obtain ⟨n, hn, hfirst⟩ := hab
    exact ⟨n, (hmem n a).mp hn, fun m hm => hfirst m ((hmem m b).mpr hm)⟩

/-- Reading never fails, and finds the runs between commas and blanks and nothing else. -/
theorem parseList_eq_ok_iff (text : String) :
    (∃ set, parseList text = .ok set) ∧ (∀ e, parseList text ≠ .error e) ∧
      ∀ set, parseList text = .ok set ↔ Text.ListsRuns isSeparator text set.names := by
  obtain ⟨set, hset, hlists⟩ := exists_parseList text
  rw [hset]
  refine ⟨⟨set, rfl⟩, nofun, fun other => ⟨fun h => Except.ok.inj h ▸ hlists, fun h => ?_⟩⟩
  exact congrArg _ (ext_names (hlists.unique h))

/-- Runs of separators of either kind count as one, also an ideographic space among them. -/
example : (parseList ",b,\u3000a\tb a,,").map names = .ok ["b", "a"] := by decide +kernel

theorem toList_text (s : ScopeSet) :
    s.text.toList = [' '].intercalate (s.names.map String.toList) :=
  String.toList_intercalate

theorem map_ofList_names (s : ScopeSet) :
    (s.names.map String.toList).map String.ofList = s.names := by
  rw [List.map_map]
  exact (List.map_congr_left fun name _ => String.ofList_toList).trans (List.map_id _)

theorem space_not_mem (h : name ∈ s.names) : ' ' ∉ name.toList := fun hspace =>
  absurd (not_isBlank_of_mem h ' ' hspace) (by decide)

theorem splitOn_text (h : s.names ≠ []) :
    (s.text.toList.splitOn ' ').map String.ofList = s.names := by
  have hwhole : ∀ cs ∈ s.names.map String.toList, ' ' ∉ cs := by
    intro cs hcs
    obtain ⟨name, hname, rfl⟩ := List.mem_map.mp hcs
    exact space_not_mem hname
  rw [toList_text, List.splitOn_intercalate ' ' hwhole (by simpa using h), map_ofList_names]

theorem text_eq_empty_iff (s : ScopeSet) : s.text = "" ↔ s.names = [] := by
  constructor
  · intro h
    by_contra hsome
    have hsplit := splitOn_text hsome
    rw [h] at hsplit
    have hempty : "" ∈ s.names := hsplit ▸ List.mem_singleton_self _
    exact ne_empty_of_mem hempty rfl
  · intro h
    rw [text, h]
    rfl

theorem fieldsOutside_text (h : ∀ name ∈ s.names, ',' ∉ name.toList) :
    (Text.fieldsOutside isSeparator s.text.toList).map String.ofList = s.names := by
  have hspace : isSeparator ' ' = true := by decide
  have hruns : ∀ run ∈ s.names.map String.toList,
      run ≠ [] ∧ ∀ c ∈ run, isSeparator c = false := by
    intro run hrun
    obtain ⟨name, hname, rfl⟩ := List.mem_map.mp hrun
    refine ⟨fun hempty => ne_empty_of_mem hname (String.toList_eq_nil_iff.mp hempty), ?_⟩
    intro c hc
    exact not_isSeparator_iff.mpr ⟨fun he => h name hname (he ▸ hc), not_isBlank_of_mem hname c hc⟩
  rw [toList_text, Text.fieldsOutside_intercalate hspace hruns, map_ofList_names]

theorem parseList_text (h : ∀ name ∈ s.names, ',' ∉ name.toList) : parseList s.text = .ok s := by
  rw [parseList, fieldsOutside_text h, ofList_names]

theorem not_mem_of_parseList (h : parseList text = .ok s) :
    ∀ name ∈ s.names, ',' ∉ name.toList := by
  obtain ⟨set, hset, hlists⟩ := exists_parseList text
  obtain rfl := Except.ok.inj (hset.symm.trans h)
  intro name hname hcomma
  obtain ⟨n, hrun⟩ := (hlists.mem_iff name).mp hname
  exact (not_isSeparator_iff.mp (hrun.outside _ hcomma)).1 rfl

theorem isExact_toJson (s : ScopeSet) : s.toJson.IsExact := by
  refine .array fun v hv => ?_
  obtain ⟨name, -, rfl⟩ := List.mem_map.mp hv
  exact .string name

theorem decoder_reading (s : ScopeSet) (levels : Nat) :
    decoder (levels + 2) s.toJson.reading = .ok s := by
  have hitems : Json.Decoder.list .string (levels + 2) s.toJson.reading = .ok s.names :=
    Json.Decoder.list_reading fun name _ => Json.Decoder.string_reading _ name
  have hfilled : s.names.filter (· ≠ "") = s.names :=
    List.filter_eq_self.mpr fun name hname => decide_eq_true (ne_empty_of_mem hname)
  rw [decoder, Json.Decoder.refine, hitems]
  simp only [bind, Except.bind, hfilled, ofList_names, Except.mapError]

/-- Every list comes of its own scopes, and comes back from either form of its JSON. From its text
it comes back just if no scope has a comma in it, since the reader takes commas for separators. -/
theorem parseList_text_iff (s : ScopeSet) :
    ofList s.names = .ok s ∧
      (parseList s.text = .ok s ↔ ∀ name ∈ s.names, ',' ∉ name.toList) ∧
      Json.decode decoder (Text.utf8 s.toJson.compact) = .ok s ∧
      Json.decode decoder (Text.utf8 s.toJson.spread) = .ok s := by
  refine ⟨ofList_names s, ⟨not_mem_of_parseList, parseList_text⟩, ?_, ?_⟩
  · rw [Json.decode_compact _ s.isExact_toJson]
    exact s.decoder_reading _
  · rw [Json.decode_spread _ s.isExact_toJson]
    exact s.decoder_reading _

/-- One scope with a comma in it is read as two. -/
theorem parseList_text_comma :
    ∃ s t : ScopeSet, ofList ["read,write"] = .ok s ∧ s.text = "read,write" ∧
      parseList s.text = .ok t ∧ t.names = ["read", "write"] ∧ parseList s.text ≠ .ok s := by
  let s : ScopeSet := ⟨["read,write"], by decide, by decide⟩
  let t : ScopeSet := ⟨["read", "write"], by decide, by decide⟩
  have hfields : (Text.fieldsOutside isSeparator s.text.toList).map String.ofList = t.names := by
    decide +kernel
  have ht : parseList s.text = .ok t := by rw [parseList, hfields, ofList_names]
  refine ⟨s, t, ofList_names s, rfl, ht, rfl, fun hs => ?_⟩
  have hsame := congrArg names (Except.ok.inj (ht.symm.trans hs))
  exact absurd hsame (by decide)

end ScopeSet

end DeviceAuth
