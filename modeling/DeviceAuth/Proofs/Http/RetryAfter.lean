import DeviceAuth.Http.RetryAfter
import Mathlib.Data.List.Infix
import Mathlib.Tactic.Common

/-! The wait that an answer asks for, as seconds or as a date. No date is taken for a number, since
it has a blank behind its day. -/
namespace DeviceAuth

namespace Text

theorem isDigit_of_digits? {cs : List Char} {n : Nat} (h : digits? cs = some n) :
    ∀ c ∈ cs, c.isDigit = true := by
  unfold digits? at h
  split at h
  · cases h
  clear * - h
  generalize 0 = start at h
  induction cs generalizing start with
  | nil => exact List.forall_mem_nil _
  | cons c rest ih =>
    rw [List.foldlM_cons] at h
    obtain ⟨next, hc, hrest⟩ := Option.bind_eq_some_iff.mp h
    split at hc
    · rename_i hdigit
      exact List.forall_mem_cons.mpr ⟨hdigit, ih next hrest⟩
    · cases hc

theorem digits?_eq_none {cs : List Char} {c : Char} (hc : c ∈ cs) (h : c.isDigit = false) :
    digits? cs = none := by
  cases hread : digits? cs with
  | none => rfl
  | some n => simp [isDigit_of_digits? hread c hc] at h

end Text

namespace Time.MailDate

variable {s rest : List Char} {n : Int}

theorem skipBlanks_suffix (depth : Nat) (s : List Char) : skipBlanks depth s <:+ s := by
  fun_induction skipBlanks depth s with
  | case3 => exact List.suffix_refl _
  | case6 depth c rest ih => exact ih.trans ((List.suffix_cons c rest).trans (List.suffix_cons _ _))
  | case8 => exact List.suffix_refl _
  | _ => exact List.IsSuffix.trans ‹_› (List.suffix_cons _ _)

theorem opens_of_blanks (h : blanks s = some ((), rest)) :
    ∃ c ∈ s, c = ' ' ∨ c = '\t' ∨ c = '(' := by
  unfold blanks at h
  dsimp only at h
  split at h
  · rename_i hshorter
    cases s with
    | nil => simp [skipBlanks] at hshorter
    | cons c tail =>
      refine ⟨c, List.mem_cons_self, ?_⟩
      by_contra hnone
      simp only [not_or] at hnone
      simp [skipBlanks, hnone] at hshorter
  · cases h

theorem literal_suffix {c : Char} (h : literal c s = some ((), rest)) : rest <:+ s := by
  unfold literal at h
  split at h
  · split at h
    · cases h
      exact List.suffix_cons _ _
    · cases h
  · cases h

theorem digits_suffix {count : Nat} (h : digits count s = some (n, rest)) : rest <:+ s := by
  unfold digits at h
  dsimp only at h
  split at h
  · cases h
  · obtain ⟨m, -, hm⟩ := Option.bind_eq_some_iff.mp h
    cases hm
    exact List.drop_suffix _ _

theorem day_suffix (h : day s = some (n, rest)) : rest <:+ s := by
  unfold day at h
  cases htwo : digits 2 s with
  | none =>
    rw [htwo] at h
    exact digits_suffix h
  | some found =>
    rw [htwo] at h
    cases h
    exact digits_suffix htwo

theorem weekday_suffix (h : weekday s = some rest) : rest <:+ s := by
  unfold weekday at h
  split at h
  · cases h
    exact List.suffix_refl _
  rename_i m behind hname
  obtain ⟨⟨word, m'⟩, -, hword⟩ := List.exists_of_findSome?_eq_some hname
  dsimp only at hword
  split at hword
  · cases hword
    obtain ⟨⟨_, tail⟩, hcomma, rfl⟩ := Option.map_eq_some_iff.mp h
    have htail : tail <:+ s.drop word.length := literal_suffix hcomma
    exact (skipBlanks_suffix 0 tail).trans (htail.trans (List.drop_suffix _ _))
  · cases hword

theorem exists_blank_of_parse? {text : String} {t : Instant} (h : parse? text = some t) :
    ∃ c ∈ text.toList, c = ' ' ∨ c = '\t' ∨ c = '(' := by
  unfold parse? at h
  obtain ⟨behind, hweekday, h⟩ := Option.bind_eq_some_iff.mp h
  obtain ⟨⟨number, afterDay⟩, hday, h⟩ := Option.bind_eq_some_iff.mp h
  obtain ⟨⟨_, month⟩, hblanks, -⟩ := Option.bind_eq_some_iff.mp h
  obtain ⟨c, hc, hblank⟩ := opens_of_blanks hblanks
  have hsuffix : afterDay <:+ text.toList :=
    (day_suffix hday).trans ((weekday_suffix hweekday).trans (skipBlanks_suffix 0 _))
  exact ⟨c, hsuffix.mem hc, hblank⟩

end Time.MailDate

namespace Http

theorem signedNumber?_eq_none {cs : List Char} {c : Char} (hc : c ∈ cs)
    (hblank : c = ' ' ∨ c = '\t' ∨ c = '(') : signedNumber? cs = none := by
  have hdigit : c.isDigit = false := by rcases hblank with rfl | rfl | rfl <;> decide
  have hother : c ≠ '-' ∧ c ≠ '+' := by rcases hblank with rfl | rfl | rfl <;> decide
  unfold signedNumber?
  split
  · rw [Text.digits?_eq_none ((List.mem_cons.mp hc).resolve_left hother.1) hdigit]
    rfl
  · rw [Text.digits?_eq_none ((List.mem_cons.mp hc).resolve_left hother.2) hdigit]
    rfl
  · rw [Text.digits?_eq_none hc hdigit]
    rfl

/-- The first `Retry-After` field holds a number of seconds, or a date that is to come. -/
inductive Headers.Hints (h : Headers) (now : Instant) : Span → Prop
  | seconds {value : List UInt8} {text : String} {n : Int}
      (hvalue : h.get? "retry-after" = some value) (htext : textOf? value = some text)
      (hnumber : signedNumber? (Text.trim text).toList = some n) (hpos : 0 ≤ n) :
      Hints h now (.seconds n)
  | date {value : List UInt8} {text : String} {t : Instant}
      (hvalue : h.get? "retry-after" = some value) (htext : textOf? value = some text)
      (hdate : Time.MailDate.parse? (Text.trim text) = some t) (hfuture : now.before t = true) :
      Hints h now (t.since now)

theorem retryAfter?_eq_some_iff {h : Headers} {now : Instant} {wait : Span} :
    retryAfter? h now = some wait ↔ h.Hints now wait := by
  constructor
  · intro hwait
    obtain ⟨value, hvalue, hwait⟩ := Option.bind_eq_some_iff.mp hwait
    obtain ⟨text, htext, hwait⟩ := Option.bind_eq_some_iff.mp hwait
    dsimp only at hwait
    split at hwait
    · rename_i n hnumber
      split at hwait
      · cases hwait
        exact .seconds hvalue htext hnumber ‹_›
      · cases hwait
    · obtain ⟨t, hdate, hwait⟩ := Option.bind_eq_some_iff.mp hwait
      split at hwait
      · rename_i hpos
        cases hwait
        exact .date hvalue htext hdate (by simpa [Instant.since, Instant.before] using hpos)
      · cases hwait
  · rintro (⟨hvalue, htext, hnumber, hpos⟩ | ⟨hvalue, htext, hdate, hfuture⟩)
    · simp [retryAfter?, hvalue, htext, hnumber, hpos]
    · -- the number is tried first, and a date is none
      rename_i value text t
      obtain ⟨c, hc, hblank⟩ := Time.MailDate.exists_blank_of_parse? hdate
      have hpos : 0 < (t.since now).nanos := by
        simpa [Instant.since, Instant.before] using hfuture
      simp [retryAfter?, hvalue, htext, signedNumber?_eq_none hc hblank, hdate, hpos]

end Http

end DeviceAuth
