import DeviceAuth.Proofs.Supersession
import DeviceAuth.Proofs.Time.Instant

/-! How long new tokens are good for. An answer that hands out tokens says how many seconds they
last, and for exactly that long their owner can sign in with them. -/
namespace DeviceAuth

namespace Span

theorem wholeSeconds_seconds (n : Int) : (seconds n).wholeSeconds = n :=
  Int.mul_tdiv_cancel n (by decide)

end Span

namespace Record

variable {r : Record} {issued now : Instant}

/-- The record of tokens that are issued at an instant, for some seconds or for ever. -/
structure IsFresh (issued : Instant) (r : Record) : Prop where
  issuedAt_eq : r.issuedAt = issued
  signedOutAt_eq : r.signedOutAt = none
  accessToken_ne : r.accessToken.text ≠ ""
  expiry : r.expiresAt = none ∨ ∃ (n : Nat) (t : Instant),
    issued.add? (.seconds n) = some t ∧ r.expiresAt = some t

theorem isFresh_of_build {draft : Draft} (hissue : Service.IsIssue issued draft)
    (hbuild : draft.build = .ok r) : r.IsFresh issued := by
  obtain ⟨haccess, expiry, hexpiry, rfl⟩ := Draft.of_build hbuild
  refine ⟨hissue.issuedAt_eq, rfl, haccess, ?_⟩
  unfold Draft.expiry at hexpiry
  rw [hissue.expiresAt_eq, hissue.issuedAt_eq] at hexpiry
  cases hspan : draft.lifetime with
  | none =>
    rw [hspan] at hexpiry
    cases hexpiry
    exact .inl rfl
  | some span =>
    obtain ⟨n, -, rfl⟩ := hissue.lifetime span hspan
    rw [hspan] at hexpiry
    dsimp only at hexpiry
    cases hadd : issued.add? (.seconds n) with
    | none =>
      rw [hadd] at hexpiry
      cases hexpiry
    | some t =>
      rw [hadd] at hexpiry
      cases hexpiry
      exact .inr ⟨n, t, hadd, rfl⟩

theorem IsFresh.expiresAt_cases (h : r.IsFresh issued) :
    (r.remaining issued = -1 ∧ r.expiresAt = none) ∨
      ∃ t, r.remaining issued ≠ -1 ∧ issued.add? (.seconds (r.remaining issued)) = some t ∧
        r.expiresAt = some t := by
  obtain hnone | ⟨n, t, hadd, hexpiry⟩ := h.expiry
  · exact .inl ⟨by simp [remaining, hnone], hnone⟩
  · have hremaining : r.remaining issued = n := by
      simp only [remaining, hexpiry, Instant.since_of_add? hadd, Span.wholeSeconds_seconds]
      omega
    exact .inr ⟨t, by omega, hremaining ▸ hadd, hexpiry⟩

theorem IsFresh.status_eq (h : r.IsFresh issued) (hnow : now.before issued = false) :
    r.status now = if r.expiresAt.any fun t => !now.before t then .expired else .active := by
  simp [status, isSignedOut, h.signedOutAt_eq, h.issuedAt_eq, hnow]

theorem remaining_of_before {t : Instant} (hexpiry : r.expiresAt = some t)
    (hbefore : now.before t = true) :
    r.remaining now = (t.since now).nanos / Span.nanosPerSecond := by
  have hleft : 0 ≤ (t.since now).nanos := by
    simp only [Instant.before, decide_eq_true_eq] at hbefore
    simp only [Instant.since]
    omega
  have hwhole : 0 ≤ (t.since now).nanos / Span.nanosPerSecond :=
    Int.ediv_nonneg hleft (by decide)
  simp only [remaining, hexpiry, Span.wholeSeconds, Int.tdiv_eq_ediv_of_nonneg hleft]
  omega

end Record

/-- Signing in is possible for a number of seconds from an instant on, of which it says how many
whole ones are left; -1 stands for ever. -/
structure World.Lasts (w : World) (c : Command Service.SignInAnswer) (issued : Instant)
    (seconds : Int) : Prop where
  always : seconds = -1 → (w.runCommand c).1 = .ok ⟨-1⟩
  until_end : seconds ≠ -1 → ∃ t, issued.add? (.seconds seconds) = some t ∧
    (w.clock.before t = true →
      (w.runCommand c).1 = .ok ⟨(t.since w.clock).nanos / Span.nanosPerSecond⟩) ∧
    (w.clock.before t = false →
      ∃ reason, (w.runCommand c).1 = .error (.unauthenticated reason))

namespace Service

variable {s : Service} {device : DeviceId} {w : World}

theorem runCommand_signIn {bearer : String} {q : SessionRequest} {r : Record}
    (hfetch : .fetch ∉ w.store.refused) (hdevice : q.device = device.text)
    (hr : w.record? device = some r) (huser : q.user = r.owner.text)
    (hpresented : q.presented bearer = r.accessToken.text) (hfilled : r.accessToken.text ≠ "") :
    (w.runCommand (signIn bearer q)).1 =
      match refusal? r.device (r.status w.clock) with
      | none => .ok ⟨r.remaining w.clock⟩
      | some reason => .error (.unauthenticated reason) := by
  have hauthorized : w.runCommand (authorizeSession bearer q) = (.ok r, w) := by
    rw [runCommand_authorizeSession hfetch hdevice hr huser (hpresented ▸ hfilled),
      if_pos hpresented.symm]
  unfold signIn
  rw [World.runCommand_bind_ok w hauthorized, World.runCommand_bind_ok w (World.runCommand_now w)]
  dsimp only
  cases refusal? r.device (r.status w.clock) <;> rfl

theorem lasts_of_isFresh {bearer : String} {q : SessionRequest} {r : Record} {issued : Instant}
    (hfetch : .fetch ∉ w.store.refused) (hdevice : q.device = device.text)
    (hr : w.record? device = some r) (huser : q.user = r.owner.text)
    (hpresented : q.presented bearer = r.accessToken.text) (hfresh : r.IsFresh issued)
    (hnow : w.clock.before issued = false) :
    w.Lasts (signIn bearer q) issued (r.remaining issued) := by
  have hrun := runCommand_signIn hfetch hdevice hr huser hpresented hfresh.accessToken_ne
  rw [hfresh.status_eq hnow] at hrun
  obtain ⟨hseconds, hexpiry⟩ | ⟨t, hseconds, hadd, hexpiry⟩ := hfresh.expiresAt_cases
  · refine ⟨fun _ => ?_, fun hlimited => absurd hseconds hlimited⟩
    simpa [hexpiry, refusal?, Record.remaining] using hrun
  · refine ⟨fun hnever => absurd hnever hseconds, fun _ => ⟨t, hadd, fun hbefore => ?_, ?_⟩⟩
    · rw [← Record.remaining_of_before hexpiry hbefore]
      simpa [hexpiry, hbefore, refusal?] using hrun
    · intro hafter
      simp only [hexpiry, Option.any_some, hafter, Bool.not_false, if_true, refusal?] at hrun
      exact ⟨_, hrun⟩

def Grants (device : DeviceId) (owner : UserId) (access : Secret) (seconds : Int) :
    (task : Task) → task.Request → task.Answer → Prop
  | .signUp, q, a => q.device = device.text ∧ a.user = owner.text ∧ a.accessToken = access ∧
    a.expiresIn = seconds
  | .refresh, q, a => q.device = device.text ∧ q.user = owner.text ∧ a.accessToken = access ∧
    a.expiresIn = seconds
  | .signIn, _, _ | .signOut, _, _ | .signOff, _, _ | .listDevices, _, _
  | .deleteDevices, _, _ => False

/-- The task names one device, and may change its record. -/
def IsAbout (device : DeviceId) : (task : Task) → task.Request → Prop
  | .signUp, q => q.device = device.text
  | .signOut, q => q.device = device.text
  | .signOff, q => q.device = device.text
  | .refresh, q => q.device = device.text
  | .signIn, _ | .listDevices, _ | .deleteDevices, _ => False

end Service

namespace Turn

variable (s : Service) (device : DeviceId) (t : Turn)

def Grants (owner : UserId) (access : Secret) (seconds : Int) : Prop :=
  ∃ answer, (t.run s).1 = .ok answer ∧
    Service.Grants device owner access seconds t.call.task t.call.request answer

/-- The call does not delete the device, and is not about it, unless it comes to nothing. -/
structure Spares : Prop where
  kept : t.call.task = .deleteDevices → (t.run s).2.record? device ≠ none
  unchanged : Service.IsAbout device t.call.task t.call.request →
    (t.run s).2.record? device = t.before.record? device

end Turn

namespace Service

variable {s : Service} {device : DeviceId} {w : World}

theorem wellFormed_course (hs : ∀ bearer, (s.verifier bearer).All Action.IsRead) {start : World}
    (hstart : start.table.WellFormed) {history : List Turn} (h : Course s start history w) :
    w.table.WellFormed ∧ ∀ x ∈ history, x.before.table.WellFormed := by
  induction h with
  | start => exact ⟨hstart, nofun⟩
  | elsewhere h htable ih => exact ⟨htable ▸ ih.1, ih.2⟩
  | turn h call ih =>
    refine ⟨World.wellFormed_run (perform_keyed hs call.bearer call.task call.request) ih.1, ?_⟩
    exact List.forall_mem_cons.mpr ih

theorem record?_of_spares (hs : ∀ bearer, (s.verifier bearer).All Action.IsRead) {x : Turn}
    (hwf : x.before.table.WellFormed) (hspares : x.Spares s device) :
    (x.run s).2.record? device = x.before.record? device := by
  obtain ⟨⟨bearer, task, q⟩, w⟩ := x
  by_contra hchanged
  have habout : ¬IsAbout device task q := fun habout => hchanged (hspares.unchanged habout)
  cases task with
  | signUp => exact habout (record?_signUp hchanged).1
  | signOut => exact habout (record?_signOut hwf hchanged).1
  | signOff => exact habout (record?_signOff hwf hchanged).1
  | refresh => exact habout (record?_refresh hchanged).1
  | signIn =>
    have hsame := World.run_of_isRead (signIn_reads bearer q) w
    exact hchanged (congrArg (World.record? · device) hsame)
  | listDevices =>
    have hsame := World.run_of_isRead (listDevices_reads q (hs bearer)) w
    exact hchanged (congrArg (World.record? · device) hsame)
  | deleteDevices =>
    obtain ⟨user, -, hgone, -⟩ := keptOrRemoved_deleteDevices (hs bearer) hchanged
    exact hspares.kept rfl hgone

theorem record?_course (hs : ∀ bearer, (s.verifier bearer).All Action.IsRead) {start : World}
    (hstart : start.table.WellFormed) {later earlier : List Turn} {t : Turn}
    (h : Course s start (later ++ t :: earlier) w) (hlater : ∀ x ∈ later, x.Spares s device) :
    w.record? device = (t.run s).2.record? device := by
  have hwf := (wellFormed_course hs hstart h).2
  refine course_keeps (I := fun w => w.record? device = (t.run s).2.record? device) ?_ h rfl ?_
  · intro w w' htable hw
    rw [World.record?, htable]
    exact hw
  · intro x hx hbefore
    have hbeforeWf := hwf x (List.mem_append_left _ hx)
    exact (record?_of_spares hs hbeforeWf (hlater x hx)).trans hbefore

theorem exists_fresh_of_grants {t : Turn} {owner : UserId} {access : Secret} {seconds : Int}
    (h : t.Grants s device owner access seconds) :
    ∃ r, (t.run s).2.record? device = some r ∧ r.IsFresh t.before.clock ∧ r.owner = owner ∧
      r.accessToken = access ∧ r.remaining t.before.clock = seconds := by
  obtain ⟨answer, hok, hgrants⟩ := h
  have hfor : IssuesFor device t.call.task t.call.request := by
    obtain ⟨⟨bearer, task, q⟩, w⟩ := t
    cases task with
    | signUp | refresh => exact hgrants.1
    | signIn | signOut | signOff | listDevices | deleteDevices => cases hgrants
  obtain ⟨draft, r, hissue, hbuild, hr, hanswer⟩ := exists_issued hfor hok
  refine ⟨r, hr, Record.isFresh_of_build hissue hbuild, ?_⟩
  obtain ⟨⟨bearer, task, q⟩, w⟩ := t
  cases task with
  | signIn | signOut | signOff | listDevices | deleteDevices => cases hgrants
  | signUp =>
    obtain ⟨uri, rfl⟩ := hanswer
    obtain ⟨-, howner, haccess, hseconds⟩ := hgrants
    exact ⟨Identifier.ext_text howner, haccess, hseconds⟩
  | refresh =>
    obtain ⟨huser, rfl⟩ := hanswer
    obtain ⟨-, howner, haccess, hseconds⟩ := hgrants
    exact ⟨Identifier.ext_text (huser.symm.trans howner), haccess, hseconds⟩

/-- As long as nothing else is done about the device, its owner can sign in with a new access token
for exactly the time that came with it. -/
theorem lasts_of_grants (hs : ∀ bearer, (s.verifier bearer).All Action.IsRead) {start : World}
    (hstart : start.table.WellFormed) {later earlier : List Turn} {t : Turn}
    (h : Course s start (later ++ t :: earlier) w) (hlater : ∀ x ∈ later, x.Spares s device)
    {owner : UserId} {access : Secret} {seconds : Int}
    (hgrants : t.Grants s device owner access seconds)
    (hclock : w.clock.before t.before.clock = false) (hfetch : .fetch ∉ w.store.refused)
    {bearer : String} {q : SessionRequest} (hdevice : q.device = device.text)
    (huser : q.user = owner.text) (hpresented : q.presented bearer = access.text) :
    w.Lasts (signIn bearer q) t.before.clock seconds := by
  obtain ⟨r, hissued, hfresh, rfl, rfl, rfl⟩ := exists_fresh_of_grants hgrants
  have hr : w.record? device = some r := (record?_course hs hstart h hlater).trans hissued
  exact lasts_of_isFresh hfetch hdevice hr huser hpresented hfresh hclock

def sampleIssuer : Http.Peer := fun _ =>
  .answered ⟨200, ⟨[]⟩, Text.utf8 ("\x7b\"access_token\":\"" ++ sampleToken.text ++
    "\",\"token_type\":\"b\",\"expires_in\":2\x7d")⟩

def sampleIssue : Turn := ⟨Crowd.sampleSignUp "a", { Crowd.sampleWorld with peer := sampleIssuer }⟩

def sampleListing : Turn :=
  ⟨⟨sampleToken.text, .listDevices, ⟨[], []⟩⟩, (sampleIssue.run Crowd.sampleService).2⟩

/-- Half a second after the sign-up one whole second is left, and after two seconds none. -/
theorem lasts_of_grants_two_seconds :
    ∃ w : World,
      ({ w with clock := ⟨500000000, 0⟩ }.runCommand
        (signIn "" ⟨"d", "a", sampleToken⟩)).1 = .ok ⟨1⟩ ∧
      ∃ reason, ({ w with clock := ⟨2000000000, 0⟩ }.runCommand
        (signIn "" ⟨"d", "a", sampleToken⟩)).1 = .error (.unauthenticated reason) := by
  have hstart : sampleIssue.before.table.WellFormed := Store.Table.wellFormed_ofRecords _
  have hcourse : Course Crowd.sampleService sampleIssue.before
      ([sampleListing] ++ sampleIssue :: []) (sampleListing.run Crowd.sampleService).2 :=
    .turn (.turn .start sampleIssue.call) sampleListing.call
  have hok : (sampleIssue.before.runCommand (Crowd.sampleService.signUp ⟨"d", ⟨"a"⟩, ""⟩)).1 =
      .ok ⟨sampleToken, "a", .empty, 2, ""⟩ := by
    decide +kernel
  have hgrants : sampleIssue.Grants Crowd.sampleService Record.sample.device sampleOwner
      sampleToken 2 := ⟨_, hok, rfl, rfl, rfl, rfl⟩
  have hlater : ∀ x ∈ [sampleListing], x.Spares Crowd.sampleService Record.sample.device := by
    intro x hx
    rw [List.mem_singleton.mp hx]
    exact ⟨nofun, nofun⟩
  have hrefused : (sampleListing.run Crowd.sampleService).2.store.refused = [] := by
    decide +kernel
  have hlasts (w : World) (hw : Course Crowd.sampleService sampleIssue.before
      ([sampleListing] ++ sampleIssue :: []) w) (hfetch : .fetch ∉ w.store.refused)
      (now : Instant) (hnow : now.before ⟨0, 0⟩ = false) :
      { w with clock := now }.Lasts (signIn "" ⟨"d", "a", sampleToken⟩) ⟨0, 0⟩ 2 := by
    have hlate : Course Crowd.sampleService sampleIssue.before
        ([sampleListing] ++ sampleIssue :: []) { w with clock := now } := .elsewhere hw rfl
    exact lasts_of_grants Verifier.ofStore_reads hstart hlate hlater hgrants hnow hfetch rfl rfl rfl
  have hlasts' := hlasts _ hcourse (by rw [hrefused]; exact List.not_mem_nil)
  have hend : Instant.add? ⟨0, 0⟩ (.seconds 2) = some ⟨2000000000, 0⟩ := by decide
  obtain ⟨t, ht, hbefore, -⟩ := (hlasts' ⟨500000000, 0⟩ rfl).until_end (by decide)
  obtain ⟨t', ht', -, hafter⟩ := (hlasts' ⟨2000000000, 0⟩ rfl).until_end (by decide)
  cases hend.symm.trans ht
  cases hend.symm.trans ht'
  exact ⟨_, hbefore rfl, hafter rfl⟩

end Service

end DeviceAuth
