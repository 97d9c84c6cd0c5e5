import DeviceAuth.Proofs.Record
import Mathlib.Logic.Relation
import Mathlib.Tactic.Common

/-! What a session is worth as time passes. Its status and the seconds that are left hang on points
in time alone, in whatever offset each is presented. The status only moves forward, the seconds only
run out, and neither contradicts the other. -/
namespace DeviceAuth

namespace Span

theorem le_wholeSeconds_iff {s : Span} {n : Int} (hn : 0 < n) :
    n ≤ s.wholeSeconds ↔ n * nanosPerSecond ≤ s.nanos := by
  have hsecond : 0 < nanosPerSecond := by decide
  rw [wholeSeconds]
  rcases Int.le_total 0 s.nanos with hs | hs
  · rw [Int.tdiv_eq_ediv_of_nonneg hs, Int.le_ediv_iff_mul_le hsecond]
  · have hwhole : s.nanos.tdiv nanosPerSecond ≤ 0 := by
      have hback := Int.tdiv_nonneg (Int.neg_nonneg.mpr hs) (Int.le_of_lt hsecond)
      rw [Int.neg_tdiv] at hback
      omega
    have hnanos : 0 < n * nanosPerSecond := Int.mul_pos hn hsecond
    omega

end Span

/-- Both are the same point in time, each in an offset of its own. -/
def Instant.SamePoint (a b : Instant) : Prop := a.nanos = b.nanos

theorem Instant.SamePoint.before_eq {a a' b b' : Instant} (ha : a.SamePoint a')
    (hb : b.SamePoint b') : a'.before b' = a.before b := by
  rw [SamePoint] at ha hb
  rw [before, before, ha, hb]

theorem Instant.SamePoint.since_eq {a a' b b' : Instant} (ha : a.SamePoint a')
    (hb : b.SamePoint b') : a'.since b' = a.since b := by
  rw [SamePoint] at ha hb
  rw [since, since, ha, hb]

namespace SessionStatus

/-- What time alone makes of a status. -/
inductive Turns : SessionStatus → SessionStatus → Prop where
  | starts : Turns .pending .active
  | ends : Turns .active .expired

abbrev LeadsTo : SessionStatus → SessionStatus → Prop := Relation.ReflTransGen Turns

theorem pending_leadsTo {status : SessionStatus} (h : status ≠ .signedOut) :
    LeadsTo .pending status := by
  have hactive : LeadsTo .pending .active := .single .starts
  cases status with
  | pending => exact .refl
  | active => exact hactive
  | expired => exact hactive.tail .ends
  | signedOut => exact absurd rfl h

end SessionStatus

namespace Record

/-- The sessions begin, expire and are ended at the same points in time. -/
structure SamePoints (r r' : Record) : Prop where
  issuedAt : r.issuedAt.SamePoint r'.issuedAt
  expiresAt : Option.Rel Instant.SamePoint r.expiresAt r'.expiresAt
  signedOutAt : Option.Rel Instant.SamePoint r.signedOutAt r'.signedOutAt

variable {r r' : Record} {now now' s t : Instant}

theorem status_eq_signedOut_iff : r.status now = .signedOut ↔ r.signedOutAt ≠ none := by
  rw [← Option.isSome_iff_ne_none, ← isSignedOut, status]
  split_ifs <;> simp_all

theorem status_eq_pending_iff :
    r.status now = .pending ↔ r.signedOutAt = none ∧ now.nanos < r.issuedAt.nanos := by
  rw [status, isSignedOut, Instant.before, ← Option.not_isSome_iff_eq_none]
  split_ifs <;> simp_all

theorem status_eq_expired_iff :
    r.status now = .expired ↔ r.signedOutAt = none ∧ r.issuedAt.nanos ≤ now.nanos ∧
      ∃ e, r.expiresAt = some e ∧ e.nanos ≤ now.nanos := by
  rw [← Option.not_isSome_iff_eq_none, status, isSignedOut, Instant.before]
  cases r.expiresAt <;> simp only [Option.any_none, Option.any_some, Instant.before] <;>
    split_ifs <;> simp_all

theorem le_remaining_iff {n : Int} (hn : 0 < n) :
    n ≤ r.remaining now ↔
      ∃ e, r.expiresAt = some e ∧ now.nanos + n * Span.nanosPerSecond ≤ e.nanos := by
  rw [remaining]
  cases hexpiry : r.expiresAt with
  | none =>
    simp only [reduceCtorEq, false_and, exists_false, iff_false]
    omega
  | some e =>
    have hwhole := Span.le_wholeSeconds_iff (s := e.since now) hn
    simp only [Option.some.injEq, exists_eq_left', Instant.since] at hwhole ⊢
    omega

theorem remaining_eq_neg_one_iff : r.remaining now = -1 ↔ r.expiresAt = none := by
  rw [remaining]
  cases r.expiresAt with
  | none => simp
  | some e =>
    simp only [reduceCtorEq, iff_false]
    omega

theorem neg_one_le_remaining (r : Record) (now : Instant) : -1 ≤ r.remaining now := by
  rw [remaining]
  cases r.expiresAt with
  | none => exact Int.le_refl _
  | some e =>
    simp only
    omega

theorem status_eq_of_samePoints (h : r.SamePoints r') (hnow : now.SamePoint now') :
    r'.status now' = r.status now := by
  obtain ⟨hissued, hexpires, hsignedOut⟩ := h
  have hout : r'.isSignedOut = r.isSignedOut := by
    rw [isSignedOut, isSignedOut]
    generalize r.signedOutAt = ended, r'.signedOutAt = ended' at hsignedOut
    cases hsignedOut <;> rfl
  rw [status, status, hout, hnow.before_eq hissued]
  generalize r.expiresAt = expiry, r'.expiresAt = expiry' at hexpires
  cases hexpires with
  | none => rfl
  | some he => rw [Option.any_some, Option.any_some, hnow.before_eq he]

theorem remaining_eq_of_samePoints (h : r.SamePoints r') (hnow : now.SamePoint now') :
    r'.remaining now' = r.remaining now := by
  have hexpires := h.expiresAt
  rw [remaining, remaining]
  generalize r.expiresAt = expiry, r'.expiresAt = expiry' at hexpires
  cases hexpires with
  | none => rfl
  | some he => simp only [he.since_eq hnow]

theorem status_leadsTo (hout : r.signedOutAt = none) (h : s.nanos ≤ t.nanos) :
    SessionStatus.LeadsTo (r.status s) (r.status t) := by
  have hkept {now : Instant} : r.status now ≠ .signedOut := by simp [status_eq_signedOut_iff, hout]
  cases hs : r.status s with
  | signedOut => exact absurd hs hkept
  | pending => exact SessionStatus.pending_leadsTo hkept
  | active =>
    have hbegun : r.status t ≠ .pending := by
      intro ht
      obtain ⟨-, hahead⟩ := status_eq_pending_iff.mp ht
      have hs' := status_eq_pending_iff.mpr ⟨hout, Int.lt_of_le_of_lt h hahead⟩
      rw [hs] at hs'
      cases hs'
    cases ht : r.status t with
    | signedOut => exact absurd ht hkept
    | pending => exact absurd ht hbegun
    | active => exact .refl
    | expired => exact .single .ends
  | expired =>
    obtain ⟨-, hissued, e, hexpiry, he⟩ := status_eq_expired_iff.mp hs
    rw [status_eq_expired_iff.mpr
      ⟨hout, Int.le_trans hissued h, e, hexpiry, Int.le_trans he h⟩]

theorem remaining_anti (h : s.nanos ≤ t.nanos) : r.remaining t ≤ r.remaining s := by
  rcases Int.lt_or_le 0 (r.remaining t) with hpos | hnone
  · obtain ⟨e, hexpiry, he⟩ := (le_remaining_iff hpos).mp (Int.le_refl _)
    exact (le_remaining_iff hpos).mpr ⟨e, hexpiry, by omega⟩
  · have hkind : r.remaining t = -1 ↔ r.remaining s = -1 := by
      rw [remaining_eq_neg_one_iff, remaining_eq_neg_one_iff]
    have hleast := neg_one_le_remaining r s
    omega

theorem exists_expiry_of_remaining_pos (h : 0 < r.remaining now) :
    ∃ e, r.expiresAt = some e ∧ now.nanos < e.nanos := by
  have hone : 1 ≤ r.remaining now := h
  obtain ⟨e, hexpiry, he⟩ := (le_remaining_iff Int.one_pos).mp hone
  have hsecond : 0 < Span.nanosPerSecond := by decide
  exact ⟨e, hexpiry, by omega⟩

theorem remaining_eq_zero_of_expired (h : r.status now = .expired) : r.remaining now = 0 := by
  obtain ⟨-, -, e, hexpiry, he⟩ := status_eq_expired_iff.mp h
  have hkind : r.remaining now ≠ -1 := by simp [remaining_eq_neg_one_iff, hexpiry]
  have hleast := neg_one_le_remaining r now
  have hreached : ¬ 0 < r.remaining now := by
    intro hpos
    obtain ⟨e', hexpiry', he'⟩ := exists_expiry_of_remaining_pos hpos
    obtain rfl : e = e' := by simpa [hexpiry] using hexpiry'
    omega
  omega

/-- The worth of a session hangs on points in time, and time only takes from it: its status goes
from pending to active to expired, unless it was ended and stays so, and the seconds that are left
never grow. They are `-1` exactly for a session that never expires, none is left once it has
expired, and where some are left the expiry is still ahead. -/
theorem passes_one_way (r : Record) :
    (∀ r' now now', r.SamePoints r' → now.SamePoint now' →
      r'.status now' = r.status now ∧ r'.remaining now' = r.remaining now) ∧
    (∀ s t, ¬ t.before s →
      (r.signedOutAt = none → SessionStatus.LeadsTo (r.status s) (r.status t)) ∧
      r.remaining t ≤ r.remaining s) ∧
    (∀ now, (r.status now = .signedOut ↔ r.signedOutAt ≠ none) ∧
      (r.remaining now = -1 ↔ r.expiresAt = none) ∧
      (r.status now = .expired → r.remaining now = 0) ∧
      (0 < r.remaining now → ∃ e, r.expiresAt = some e ∧ now.before e)) := by
  refine ⟨?_, ?_, ?_⟩
  · intro r' now now' h hnow
    exact ⟨status_eq_of_samePoints h hnow, remaining_eq_of_samePoints h hnow⟩
  · intro s t hst
    have h : s.nanos ≤ t.nanos := by simpa [Instant.before] using hst
    exact ⟨fun hout => status_leadsTo hout h, remaining_anti h⟩
  · intro now
    refine ⟨status_eq_signedOut_iff, remaining_eq_neg_one_iff, remaining_eq_zero_of_expired, ?_⟩
    intro hpos
    obtain ⟨e, hexpiry, he⟩ := exists_expiry_of_remaining_pos hpos
    exact ⟨e, hexpiry, by simpa [Instant.before] using he⟩

def brief (issued expires : Int) : Record :=
  { sample with
    issuedAt := ⟨-500000000, issued⟩, expiresAt := some ⟨1500000000, expires⟩, signedOutAt := none }

/-- It is as good half an hour further east, and it runs from pending to expired. -/
theorem brief_passes_one_way :
    ((brief 3600 0).SamePoints (brief 5400 (-61)) ∧ Instant.SamePoint ⟨0, 0⟩ ⟨0, -61⟩ ∧
      (brief 5400 (-61)).status ⟨0, -61⟩ = (brief 3600 0).status ⟨0, 0⟩ ∧
      (brief 5400 (-61)).remaining ⟨0, -61⟩ = (brief 3600 0).remaining ⟨0, 0⟩) ∧
    (¬ Instant.before ⟨1500000000, 0⟩ ⟨-500000001, 3600⟩ ∧ (brief 3600 0).signedOutAt = none ∧
      SessionStatus.LeadsTo .pending .expired) ∧
    ((brief 3600 0).status ⟨1500000000, 0⟩ = .expired ∧
      (brief 3600 0).remaining ⟨1500000000, 0⟩ = 0) ∧
    0 < (brief 3600 0).remaining ⟨0, 0⟩ ∧
      ∃ e, (brief 3600 0).expiresAt = some e ∧ Instant.before ⟨0, 0⟩ e := by
  obtain ⟨hpoint, hpass, hnow⟩ := passes_one_way (brief 3600 0)
  have hsame : (brief 3600 0).SamePoints (brief 5400 (-61)) := ⟨rfl, .some rfl, .none⟩
  have hover : (brief 3600 0).status ⟨1500000000, 0⟩ = .expired := by decide
  have hleft : 0 < (brief 3600 0).remaining ⟨0, 0⟩ := by decide
  obtain ⟨-, -, hzero, -⟩ := hnow ⟨1500000000, 0⟩
  obtain ⟨-, -, -, hahead⟩ := hnow ⟨0, 0⟩
  have hforward := (hpass ⟨-500000001, 3600⟩ ⟨1500000000, 0⟩ (by decide)).1 rfl
  exact ⟨⟨hsame, rfl, hpoint _ _ _ hsame rfl⟩, ⟨by decide, rfl, hforward⟩, ⟨hover, hzero hover⟩,
    hleft, hahead hleft⟩

end Record

end DeviceAuth
