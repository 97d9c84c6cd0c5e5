import DeviceAuth.Identifier
import Mathlib.Data.List.Sort

/-! Lists of identifiers. What texts are read as, and the order, in which a list depends on nothing
but what is in it. -/
namespace DeviceAuth.Identifier

variable {kind : IdentifierKind} {a b : Identifier kind} {ids : List (Identifier kind)}
  {texts : List String}

theorem text_ne_empty (id : Identifier kind) : id.text ≠ "" := by
  intro h
  have hvalid := id.valid
  rw [h] at hvalid
  cases hvalid

theorem mapM_ofString (h : ∀ s ∈ texts, fault? s = none) :
    texts.mapM (ofString kind) = .ok (texts.pmap Identifier.mk h) := by
  induction texts with
  | nil => rfl
  | cons s rest ih =>
    obtain ⟨hs, hrest⟩ := List.forall_mem_cons.mp h
    rw [List.mapM_cons, ih hrest, show ofString kind s = _ from ofString_text ⟨s, hs⟩]
    rfl

theorem exists_mapM_ofString (kind : IdentifierKind) (h : ∃ s ∈ texts, fault? s ≠ none) :
    ∃ e, texts.mapM (ofString kind) = .error e := by
  induction texts with
  | nil => simp at h
  | cons s rest ih =>
    rw [List.mapM_cons]
    cases hs : ofString kind s with
    | error e => exact ⟨e, rfl⟩
    | ok id =>
      have hvalid : fault? s = none := text_of_ofString hs ▸ id.valid
      obtain ⟨e, he⟩ := ih (by simpa [hvalid] using h)
      exact ⟨e, by rw [he]; rfl⟩

theorem le_iff : a.le b = true ↔ a.text ≤ b.text := by
  simp only [le, Bool.not_eq_true', decide_eq_false_iff_not, String.not_lt]

theorem le_total (a b : Identifier kind) : (a.le b || b.le a) = true := by
  rw [Bool.or_eq_true, le_iff, le_iff]
  exact String.le_total a.text b.text

theorem le_trans (a b c : Identifier kind) (hab : a.le b = true) (hbc : b.le c = true) :
    a.le c = true :=
  le_iff.mpr (String.le_trans (le_iff.mp hab) (le_iff.mp hbc))

theorem eq_of_le_of_le (hab : a.le b = true) (hba : b.le a = true) : a = b :=
  ext_text (String.le_antisymm (le_iff.mp hab) (le_iff.mp hba))

def Before (a b : Identifier kind) : Prop := a.le b = true ∧ a ≠ b

instance : Decidable (Before a b) := inferInstanceAs (Decidable (_ ∧ _))

instance : Std.Irrefl (@Before kind) := ⟨fun _ h => h.2 rfl⟩

instance : Std.Antisymm (@Before kind) := ⟨fun _ _ hab hba => eq_of_le_of_le hab.1 hba.1⟩

theorem pairwise_eraseDups (h : ids.Pairwise fun a b => a.le b = true) :
    ids.eraseDups.Pairwise Before := by
  -- each step goes on with what a filter leaves of the rest, so the induction is on the length
  induction hlength : ids.length using Nat.strong_induction_on generalizing ids with
  | _ n ih =>
    cases ids with
    | nil => exact .nil
    | cons a rest =>
      obtain ⟨hfirst, hrest⟩ := List.pairwise_cons.mp h
      let others := rest.filter fun b => !b == a
      have hshorter : others.length < n := by
        rw [← hlength]
        exact Nat.lt_succ_of_le (List.length_filter_le _ rest)
      rw [List.eraseDups_cons, List.pairwise_cons]
      refine ⟨fun b hb => ?_, ih _ hshorter (hrest.filter _) rfl⟩
      obtain ⟨hmem, hne⟩ := List.mem_filter.mp (List.mem_eraseDups.mp hb)
      exact ⟨hfirst b hmem, fun heq => by simp [heq] at hne⟩

theorem pairwise_sorted (ids : List (Identifier kind)) : (sorted ids).Pairwise Before :=
  pairwise_eraseDups (List.pairwise_mergeSort le_trans le_total ids)

theorem mem_sorted : a ∈ sorted ids ↔ a ∈ ids := by
  rw [sorted, List.mem_eraseDups, List.mem_mergeSort]

theorem sorted_eq {ordered : List (Identifier kind)} (h : ordered.Pairwise Before)
    (hmem : ∀ a, a ∈ ordered ↔ a ∈ ids) : sorted ids = ordered :=
  (pairwise_sorted ids).eq_of_mem_iff h fun a => mem_sorted.trans (hmem a).symm

end DeviceAuth.Identifier
