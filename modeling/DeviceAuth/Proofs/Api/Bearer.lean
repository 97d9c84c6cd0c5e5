import DeviceAuth.Api.Bearer
import Mathlib.Data.List.TakeWhile

/-! Which headers carry no bearer token. The ways to carry none are listed on the header itself, and
the reader finds no token in just these. -/
namespace DeviceAuth

namespace Text

theorem splitFirst_append {sep : Char} {before : List Char} (h : sep ∉ before)
    (after : List Char) : splitFirst sep (before ++ sep :: after) = some (before, after) := by
  induction before with
  | nil => simp [splitFirst]
  | cons c cs ih =>
    obtain ⟨hc, hcs⟩ := List.ne_and_not_mem_of_not_mem_cons h
    simp [splitFirst, Ne.symm hc, ih hcs]

theorem splitFirst_eq_none_iff {sep : Char} {cs : List Char} :
    splitFirst sep cs = none ↔ sep ∉ cs := by
  constructor
  · intro h hmem
    obtain ⟨before, after, rfl, hbefore⟩ := List.eq_append_cons_of_mem hmem
    rw [splitFirst_append hbefore] at h
    cases h
  · intro h
    cases hsplit : splitFirst sep cs with
    | none => rfl
    | some parts =>
      obtain ⟨before, after⟩ := parts
      obtain ⟨rfl, -⟩ := splitFirst_eq_some hsplit
      exact absurd (List.mem_append_right before List.mem_cons_self) h

theorem trim_eq_empty_iff {s : String} : trim s = "" ↔ ∀ c ∈ s.toList, isBlank c = true := by
  have hempty : trim s = "" ↔ ∀ c ∈ s.toList.dropWhile isBlank, isBlank c = true := by
    rw [trim, ← String.toList_inj, String.toList_ofList, String.toList_empty, trimList,
      List.reverse_eq_nil_iff, List.dropWhile_eq_nil_iff]
    simp only [List.mem_reverse]
  rw [hempty]
  constructor
  · intro h c hc
    rw [← List.takeWhile_append_dropWhile (p := isBlank) (l := s.toList)] at hc
    rcases List.mem_append.mp hc with hc | hc
    · exact List.mem_takeWhile_imp hc
    · exact h c hc
  · intro h c hc
    exact h c ((List.dropWhile_sublist isBlank).subset hc)

end Text

namespace Api

open Http (Headers)

/-- A byte of a header that is neither a tab nor printable. -/
def IsUnprintable (b : UInt8) : Prop := b ≠ 9 ∧ (b < 32 ∨ 126 < b)

/-- What is wrong with headers that carry no bearer token. -/
inductive LacksBearer (h : Headers) : Prop where
  | absent (hget : h.get? "authorization" = none)
  | unprintable {value : List UInt8} {b : UInt8} (hget : h.get? "authorization" = some value)
    (hb : b ∈ value) (hprint : IsUnprintable b)
  | noSpace {value : List UInt8} {text : String} (hget : h.get? "authorization" = some value)
    (htext : Headers.textOf? value = some text) (hspace : ' ' ∉ text.toList)
  | otherScheme {value : List UInt8} {scheme token : String}
    (hget : h.get? "authorization" = some value)
    (htext : Headers.textOf? value = some (scheme ++ " " ++ token)) (hspace : ' ' ∉ scheme.toList)
    (hscheme : Text.equalsIgnoringCase scheme "bearer" = false)
  | blankToken {value : List UInt8} {scheme token : String}
    (hget : h.get? "authorization" = some value)
    (htext : Headers.textOf? value = some (scheme ++ " " ++ token)) (hspace : ' ' ∉ scheme.toList)
    (hblank : ∀ c ∈ token.toList, Text.isBlank c = true)

theorem textOf?_eq_none_iff {value : List UInt8} :
    Headers.textOf? value = none ↔ ∃ b ∈ value, IsUnprintable b := by
  have hbyte (b : UInt8) : ((32 ≤ b && b < 127) || b == 9) = false ↔ IsUnprintable b := by
    simp only [IsUnprintable, Bool.or_eq_false_iff, Bool.and_eq_false_iff, decide_eq_false_iff_not,
      beq_eq_false_iff_ne, ne_eq,
      UInt8.le_iff_toNat_le, UInt8.lt_iff_toNat_lt, ← UInt8.toNat_inj]
    have h9 : (9 : UInt8).toNat = 9 := rfl
    have h32 : (32 : UInt8).toNat = 32 := rfl
    have h126 : (126 : UInt8).toNat = 126 := rfl
    have h127 : (127 : UInt8).toNat = 127 := rfl
    omega
  unfold Headers.textOf?
  split
  · rename_i hall
    simp only [reduceCtorEq, false_iff, not_exists, not_and]
    intro b hb hprint
    have h := List.all_eq_true.mp hall b hb
    rw [(hbyte b).mpr hprint] at h
    cases h
  · rename_i hall
    obtain ⟨b, hb, hne⟩ := List.all_eq_false.mp (Bool.not_eq_true _ ▸ hall)
    exact iff_of_true rfl ⟨b, hb, (hbyte b).mp (Bool.not_eq_true _ ▸ hne)⟩

theorem splitFirst_scheme {scheme : String} (h : ' ' ∉ scheme.toList) (token : String) :
    Text.splitFirst ' ' (scheme ++ " " ++ token).toList = some (scheme.toList, token.toList) := by
  have hlist : (scheme ++ " " ++ token).toList = scheme.toList ++ ' ' :: token.toList := by
    simp [String.toList_append]
  rw [hlist, Text.splitFirst_append h]

theorem noSpace_or_scheme (text : String) :
    ' ' ∉ text.toList ∨
      ∃ scheme token : String, text = scheme ++ " " ++ token ∧ ' ' ∉ scheme.toList := by
  cases hsplit : Text.splitFirst ' ' text.toList with
  | none => exact .inl (Text.splitFirst_eq_none_iff.mp hsplit)
  | some parts =>
    obtain ⟨before, after⟩ := parts
    obtain ⟨htext, hspace⟩ := Text.splitFirst_eq_some hsplit
    refine .inr ⟨.ofList before, .ofList after, ?_, by rwa [String.toList_ofList]⟩
    rw [← String.toList_inj, htext]
    simp [String.toList_append, String.toList_ofList]

theorem bearerOfText_scheme {scheme : String} (h : ' ' ∉ scheme.toList) (token : String) :
    bearerOfText (scheme ++ " " ++ token) =
      if Text.equalsIgnoringCase scheme "bearer" = false then
        .error (.unauthenticated ("authorization scheme " ++ scheme ++ " is not supported"))
      else if Text.trim token = "" then .error (.unauthenticated "bearer token is empty")
      else .ok (Text.trim token) := by
  simp only [bearerOfText, splitFirst_scheme h, String.ofList_toList, Bool.not_eq_true']

variable {h : Headers}

theorem unauthenticated_of_lacksBearer (hlacks : LacksBearer h) :
    ∃ reason, bearer h = .error (.unauthenticated reason) := by
  unfold bearer
  cases hlacks with
  | absent hget => simp only [hget]; exact ⟨_, rfl⟩
  | unprintable hget hb hprint =>
    simp only [hget, textOf?_eq_none_iff.mpr ⟨_, hb, hprint⟩]
    exact ⟨_, rfl⟩
  | noSpace hget htext hspace =>
    simp only [hget, htext, bearerOfText, Text.splitFirst_eq_none_iff.mpr hspace]
    exact ⟨_, rfl⟩
  | otherScheme hget htext hspace hscheme =>
    simp only [hget, htext, bearerOfText_scheme hspace, hscheme, if_true]
    exact ⟨_, rfl⟩
  | blankToken hget htext hspace hblank =>
    simp only [hget, htext, bearerOfText_scheme hspace, Text.trim_eq_empty_iff.mpr hblank, if_true]
    split <;> exact ⟨_, rfl⟩

theorem lacksBearer_of_error {e : Error} (herror : bearer h = .error e) : LacksBearer h := by
  unfold bearer at herror
  cases hget : h.get? "authorization" with
  | none => exact .absent hget
  | some value =>
    cases htext : Headers.textOf? value with
    | none =>
      obtain ⟨b, hb, hprint⟩ := textOf?_eq_none_iff.mp htext
      exact .unprintable hget hb hprint
    | some text =>
      simp only [hget, htext] at herror
      rcases noSpace_or_scheme text with hspace | ⟨scheme, token, rfl, hspace⟩
      · exact .noSpace hget htext hspace
      rw [bearerOfText_scheme hspace] at herror
      split at herror
      · rename_i hscheme
        exact .otherScheme hget htext hspace hscheme
      · split at herror
        · rename_i hblank
          exact .blankToken hget htext hspace (Text.trim_eq_empty_iff.mp hblank)
        · cases herror

theorem lacksBearer_iff : LacksBearer h ↔ ∃ reason, bearer h = .error (.unauthenticated reason) :=
  ⟨unauthenticated_of_lacksBearer, fun ⟨_, herror⟩ => lacksBearer_of_error herror⟩

end Api

end DeviceAuth
