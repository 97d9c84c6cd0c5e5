import DeviceAuth.Proofs.Lifetime
import DeviceAuth.Proofs.Service.Message
import DeviceAuth.Proofs.Store.Snapshot

/-! The seconds that an answer counts. As long as the clock and the records keep to the calendar,
they are so few that they can be written. -/
namespace DeviceAuth

namespace Instant

variable {t : Instant}

theorem nanos_bounds (h : t.IsRepresentable) :
    -(1000000000000 * Span.nanosPerSecond) ≤ t.nanos ∧
      t.nanos ≤ 1000000000000 * Span.nanosPerSecond := by
  have hstart : calendarStart = -377705116800000000000 := rfl
  have hend : calendarEnd = 253402300800000000000 := rfl
  obtain ⟨hrange, hlow, hhigh⟩ := h
  rw [inRange_iff, hstart, hend] at hrange
  simp only [localNanos, Span.nanosPerSecond, maxOffset] at hrange hlow hhigh ⊢
  omega

end Instant

namespace Record

variable {r : Record} {issued now : Instant}

theorem fitsSeconds_remaining (hexpiry : ∀ t, r.expiresAt = some t → t.IsRepresentable)
    (hnow : now.IsRepresentable) : Service.FitsSeconds (r.remaining now) := by
  have hstart : Decimal.signedStart 64 = -9223372036854775808 := rfl
  have hend : Decimal.signedEnd 64 = 9223372036854775808 := rfl
  unfold Service.FitsSeconds
  cases hexpires : r.expiresAt with
  | none =>
    simp only [remaining, hexpires]
    omega
  | some t =>
    have ht := Instant.nanos_bounds (hexpiry t hexpires)
    have hnow := Instant.nanos_bounds hnow
    have hspan : (t.nanos - now.nanos).tdiv Span.nanosPerSecond ≤ 2000000000000 := by
      rw [← Span.wholeSeconds_seconds 2000000000000]
      refine Int.tdiv_le_tdiv (by decide) ?_
      simp only [Span.seconds]
      omega
    simp only [remaining, hexpires, Instant.since, Span.wholeSeconds]
    omega

theorem IsFresh.isRepresentable (h : r.IsFresh issued) (hissued : issued.IsRepresentable) :
    r.IsRepresentable := by
  refine ⟨h.issuedAt_eq ▸ hissued, fun t ht => ?_, fun t ht => ?_⟩
  · obtain hnone | ⟨n, t', hadd, hexpiry⟩ := h.expiry
    · cases hnone.symm.trans ht
    · cases hexpiry.symm.trans ht
      exact hissued.add? hadd
  · cases h.signedOutAt_eq.symm.trans ht

end Record

structure World.IsRepresentable (w : World) : Prop where
  clock : w.clock.IsRepresentable
  table : w.table.IsRepresentable

namespace Service

variable {s : Service} {w : World}

theorem fits_signIn (hw : w.IsRepresentable) {bearer : String} {q : SessionRequest}
    {a : SignInAnswer} (h : (w.runCommand (signIn bearer q)).1 = .ok a) :
    FitsSeconds a.expiresIn := by
  unfold signIn at h
  obtain ⟨e, -, he⟩ | ⟨r, hauthorized, hrest⟩ :=
    World.runCommand_bind_cases (authorizeSession_reads bearer q) _ w
  · rw [he] at h
    cases h
  obtain ⟨device, -, hr, -⟩ := authorizeSession_ok hauthorized
  rw [hrest, World.runCommand_bind_ok w (World.runCommand_now w)] at h
  dsimp only at h
  split at h
  · cases h
  · cases h
    exact Record.fitsSeconds_remaining
      (hw.table r (Store.Table.mem_records_of_get? hr)).expiresAt hw.clock

theorem fits_issued (hw : w.IsRepresentable) {draft : Record.Draft} {r : Record}
    (hissue : IsIssue w.clock draft) (hbuild : draft.build = .ok r) :
    FitsSeconds (r.remaining w.clock) :=
  Record.fitsSeconds_remaining
    ((Record.isFresh_of_build hissue hbuild).isRepresentable hw.clock).expiresAt hw.clock

theorem fits_perform (hw : w.IsRepresentable) {bearer : String} {task : Task} {q : task.Request}
    {a : task.Answer} (h : (w.runCommand (s.perform bearer task q)).1 = .ok a) : task.Fits a := by
  cases task with
  | signIn => exact fits_signIn hw h
  | signOut | signOff | listDevices | deleteDevices => trivial
  | signUp =>
    obtain ⟨e, he⟩ | ⟨device, tokens, owner, hdevice, -, -, -⟩ := runCommand_signUp s q w
    · cases (congrArg Prod.fst he).symm.trans h
    obtain ⟨draft, r, hissue, hbuild, -, uri, rfl⟩ := signUp_issued hdevice h
    exact fits_issued hw hissue hbuild
  | refresh =>
    obtain ⟨e, he⟩ | ⟨device, user, hdevice, -, -, -⟩ := runCommand_refresh s q w
    · cases (congrArg Prod.fst he).symm.trans h
    obtain ⟨draft, r, hissue, hbuild, -, -, rfl⟩ := refresh_issued hdevice h
    exact fits_issued hw hissue hbuild

end Service

end DeviceAuth
