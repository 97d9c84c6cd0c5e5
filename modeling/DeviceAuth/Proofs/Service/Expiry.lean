import DeviceAuth.Proofs.Contention
import DeviceAuth.Proofs.OAuth.OwnerClaim
import DeviceAuth.Proofs.OAuth.ServiceToken
import DeviceAuth.Proofs.Service.Answer

/-! Lifetimes that are accepted can be counted. One check at the door, that the lifetime ends within
the calendar, covers all that is added to the same instant later. -/
namespace DeviceAuth

namespace OAuth

namespace Client

variable {t : TokenResponse} {now : Instant} {tokens : Tokens}

theorem lifetime?_eq_map {seconds : Option Nat} {lifetime : Option Span}
    (h : lifetime? seconds now = .ok lifetime) : lifetime = seconds.map fun n => .seconds n := by
  unfold lifetime? at h
  split at h
  · cases h
    rfl
  split at h
  · cases h
  split at h
  · cases h
  split at h
  · cases h
  · cases h
    rfl

theorem lifetime_of_accept (h : accept t now = .ok tokens) :
    tokens.lifetime = t.lifetime.map fun n => .seconds n := by
  obtain ⟨lifetime, hlifetime, htokens⟩ := Except.bind_ok h
  cases htokens
  exact lifetime?_eq_map hlifetime

end Client

end OAuth

namespace Record

variable {t : OAuth.TokenResponse} {now : Instant} {tokens : OAuth.Tokens} {draft : Draft}

/-- Tokens that were accepted at the instant at which they are issued make a record that counts
their seconds, if there is an access token at all. -/
theorem build_cases_of_accept (hnow : now.IsRepresentable)
    (haccept : OAuth.Client.accept t now = .ok tokens) (hissued : draft.issuedAt = now)
    (hexpires : draft.expiresAt = none) (hlifetime : draft.lifetime = tokens.lifetime) :
    (draft.accessToken.text = "" ∧ draft.build = .error .missingAccessToken) ∨
      ∃ r, draft.build = .ok r ∧ r.remaining now = t.lifetime.elim (-1) (↑·) ∧
        Service.FitsSeconds (r.remaining now) := by
  by_cases haccess : draft.accessToken.isEmpty = true
  · exact .inl ⟨by simpa using haccess, if_pos haccess⟩
  have hfilled : draft.accessToken.text ≠ "" := by simpa using haccess
  have hspan := OAuth.Client.lifetime_of_accept haccept
  cases hseconds : t.lifetime with
  | none =>
    rw [hseconds, Option.map_none] at hspan
    have hexpiry : draft.expiry = .ok none := by rw [Draft.expiry, hexpires, hlifetime, hspan]
    refine .inr ⟨_, Draft.build_eq hfilled hexpiry, rfl, ?_⟩
    refine fitsSeconds_remaining (fun t ht => ?_) hnow
    cases ht
  | some n =>
    rw [hseconds, Option.map_some] at hspan
    obtain ⟨-, -, -, expiry, hadd⟩ := (OAuth.Client.accept_ok haccept).1 _ hspan
    have hexpiry : draft.expiry = .ok (some expiry) := by
      rw [Draft.expiry, hexpires, hlifetime, hspan, hissued]
      simp only [hadd]
    refine .inr ⟨_, Draft.build_eq hfilled hexpiry, ?_, ?_⟩
    · simp only [remaining, Instant.since_of_add? hadd, Span.wholeSeconds_seconds]
      exact max_eq_left (Int.natCast_nonneg n)
    · refine fitsSeconds_remaining (fun t ht => ?_) hnow
      cases ht
      exact hnow.add? hadd

end Record

namespace Service

/-- Why a sign-up fails for which the provider has issued tokens. -/
inductive SignUpFault (s : Service) (q : SignUpRequest) (tokens : OAuth.Tokens) (trace : Trace) :
    Error → Prop
  | incomplete {reason : String} (h : ∀ device, ¬q.IsFor s device) :
    SignUpFault s q tokens trace (.invalidArgument reason)
  | nameless {reason : String} (h : s.client.owner tokens = .error (.invalidGrant reason)) :
    SignUpFault s q tokens trace (.invalidGrant reason)
  | taken {device : DeviceId} {owner : UserId} {look : World} {r : Record}
    (hdevice : q.device = device.text) (howner : s.client.owner tokens = .ok owner)
    (hlook : ⟨.store (.fetch device), look⟩ ∈ trace) (hr : look.record? device = some r)
    (hother : r.owner ≠ owner) :
    SignUpFault s q tokens trace (.permissionDenied
      ("device " ++ device.text ++ " is already registered to another user"))
  | blank (h : tokens.accessToken.text = "") :
    SignUpFault s q tokens trace (.config (.recordBuild .missingAccessToken))
  | storage {cause : StoreError} (h : ¬trace.IsSound) :
    SignUpFault s q tokens trace (.storage cause)

/-- Why the swap of a renewal does not come off. -/
inductive Lost (device : DeviceId) (presented : Secret) (found : Option Record) : Error → Prop
  | missing (h : found = none) : Lost device presented found
    (.unauthenticated ("device " ++ device.text ++ " was signed off during refresh"))
  | rotated {r : Record} (h : found = some r) (htoken : r.refreshToken ≠ some presented) :
    Lost device presented found (.invalidGrant
      ("refresh token of device " ++ device.text ++ " was rotated concurrently"))

/-- Why a renewal fails for which the provider has issued tokens, or would have. -/
inductive RefreshFault (q : RefreshRequest) (tokens : OAuth.Tokens) (trace : Trace) : Error → Prop
  | incomplete {reason : String} (h : ∀ device, ¬q.IsFor device) :
    RefreshFault q tokens trace (.invalidArgument reason)
  | denied {device : DeviceId} {user : UserId} {look : World} {e : Error}
    (hdevice : q.device = device.text) (huser : q.user = user.text)
    (hlook : ⟨.store (.fetch device), look⟩ ∈ trace)
    (h : Denied device user q.refreshToken (look.record? device) e) :
    RefreshFault q tokens trace e
  | blank (h : tokens.accessToken.text = "") :
    RefreshFault q tokens trace (.config (.recordBuild .missingAccessToken))
  | lost {device : DeviceId} {record : Record} {swap : World} {e : Error}
    (hdevice : q.device = device.text)
    (hswap : ⟨.store (.swap device (some q.refreshToken.text) record), swap⟩ ∈ trace)
    (h : Lost device q.refreshToken (swap.record? device) e) : RefreshFault q tokens trace e
  | storage {cause : StoreError} (h : ¬trace.IsSound) :
    RefreshFault q tokens trace (.storage cause)

/-- A command that fails only for one of some reasons. If it does not fail it has made these calls,
and its answer counts the seconds of the lifetime. -/
inductive Counts {α : Type} (lifetime : Option Nat) (expiresIn : α → Int) (Fault : Error → Prop)
    (calls : List Http.Call) (trace : Trace) : Except Error α → Prop
  | fails {e : Error} (h : Fault e) : Counts lifetime expiresIn Fault calls trace (.error e)
  | answers {a : α} (hcalls : trace.calls = calls)
    (hseconds : expiresIn a = lifetime.elim (-1) (↑·)) (hfits : FitsSeconds (expiresIn a)) :
    Counts lifetime expiresIn Fault calls trace (.ok a)

theorem Counts.whole {α : Type} {lifetime : Option Nat} {expiresIn : α → Int}
    {Fault : Error → Prop} {inner trace : Trace} {calls calls' : List Http.Call}
    {result : Except Error α} (h : Counts lifetime expiresIn Fault calls inner result)
    (hcalls : inner.calls = calls → trace.calls = calls') :
    Counts lifetime expiresIn Fault calls' trace result := by
  cases h with
  | fails h => exact .fails h
  | answers hinner hseconds hfits => exact .answers (hcalls hinner) hseconds hfits

theorem Counts.ne_beyondCalendar {α : Type} {lifetime : Option Nat} {expiresIn : α → Int}
    {Fault : Error → Prop} {trace : Trace} {calls : List Http.Call} {result : Except Error α}
    (h : Counts lifetime expiresIn Fault calls trace result)
    (hfault : ∀ e, Fault e → e ≠ .beyondCalendar) : result ≠ .error .beyondCalendar := by
  cases h with
  | fails h => exact fun he => hfault _ h (Except.error.inj he)
  | answers => exact nofun

variable {s : Service} {device : DeviceId} {user : UserId} {trace inner : Trace} {now : Instant}
  {t : OAuth.TokenResponse} {tokens : OAuth.Tokens} {call : Http.Call}

theorem SignUpFault.ne_beyondCalendar {q : SignUpRequest} {e : Error}
    (h : SignUpFault s q tokens trace e) : e ≠ .beyondCalendar := by
  cases h <;> exact nofun

theorem RefreshFault.ne_beyondCalendar {q : RefreshRequest} {e : Error}
    (h : RefreshFault q tokens trace e) : e ≠ .beyondCalendar := by
  cases h with
  | denied _ _ _ h => cases h <;> exact nofun
  | lost _ _ h => cases h <;> exact nofun
  | incomplete | blank | storage => exact nofun

theorem lost_of_checkSwap {table : Store.Table} {presented : Secret} (record : Record) {e : Error}
    (h : checkSwap device (table.swapOutcome device (some presented.text)) = .error e) :
    Lost device presented (table.get? device) e := by
  obtain ⟨hfound, houtcome, -⟩ | ⟨found, hfound, htoken, houtcome, -⟩ | ⟨_, -, -, houtcome, -⟩ :=
    table.swap_cases device presented record
  all_goals
    rw [houtcome] at h
    cases h
  · exact .missing hfound
  · exact .rotated hfound htoken

/-- A record that is built of tokens that were accepted counts their seconds, if there is one. -/
theorem build_yields {α : Type} {draft : Record.Draft} {next : Record → Command α}
    {result : Except Error α} (hnow : now.IsRepresentable)
    (haccept : OAuth.Client.accept t now = .ok tokens) (hissued : draft.issuedAt = now)
    (hexpires : draft.expiresAt = none) (hlifetime : draft.lifetime = tokens.lifetime)
    (h : (build draft >>= next).Yields trace result) :
    (draft.accessToken.text = "" ∧ result = .error (.config (.recordBuild .missingAccessToken))) ∨
      ∃ r : Record, r.remaining now = t.lifetime.elim (-1) (↑·) ∧ FitsSeconds (r.remaining now) ∧
        (next r).Yields trace result := by
  obtain ⟨hblank, hfails⟩ | ⟨r, hr, hseconds, hfits⟩ :=
    Record.build_cases_of_accept hnow haccept hissued hexpires hlifetime
  · rw [build, hfails] at h
    obtain ⟨e, he, -, rfl⟩ | ⟨r, hr, -⟩ := h.of_ofExcept_bind
    · cases he
      exact .inl ⟨hblank, rfl⟩
    · cases hr
  · rw [build, hr] at h
    obtain ⟨e, he, -⟩ | ⟨r', hr', h⟩ := h.of_ofExcept_bind
    · cases he
    · cases hr'
      exact .inr ⟨r, hseconds, hfits, h⟩

theorem register_counts {q : SignUpRequest} {owner : UserId} {result : Except Error SignUpAnswer}
    (hnow : now.IsRepresentable) (haccept : OAuth.Client.accept t now = .ok tokens)
    (hstill : inner.IsStill now) (hdevice : q.device = device.text)
    (howner : s.client.owner tokens = .ok owner)
    (h : (s.register device owner tokens).Yields inner result) (hsub : inner ⊆ trace) :
    Counts t.lifetime SignUpAnswer.expiresIn (SignUpFault s q tokens trace) [] inner result := by
  unfold register at h
  obtain ⟨look, rest, rfl, ⟨e, he, -, rfl⟩ | ⟨found, hfound, hlooked⟩⟩ := h.of_store_bind
  · exact .fails (.storage (Trace.not_isSound (hsub List.mem_cons_self) he))
  obtain rfl : found = look.record? device := (Store.answer_apply hfound).1
  obtain ⟨e, hvacant, -, rfl⟩ | ⟨_, -, hchecked⟩ := hlooked.of_ofExcept_bind
  · obtain ⟨rfl, r, hr, hother⟩ := checkVacant_error hvacant
    exact .fails (.taken hdevice howner (hsub List.mem_cons_self) hr hother)
  obtain ⟨issue, rest, rfl, hissue⟩ := hchecked.of_now_bind
  have hissued : issue.clock = now := hstill.clock_eq (by simp)
  obtain ⟨hblank, rfl⟩ | ⟨r, hseconds, hfits, hbuilt⟩ :=
    build_yields hnow haccept hissued rfl rfl hissue
  · exact .fails (.blank hblank)
  obtain ⟨read, rest, rfl, hread⟩ := hbuilt.of_now_bind
  have hclock : read.clock = now := hstill.clock_eq (by simp)
  obtain ⟨met, rest, rfl, ⟨e, he, -, rfl⟩ | ⟨_, -, hsaved⟩⟩ := hread.of_store_bind
  · exact .fails (.storage (Trace.not_isSound (hsub (by simp)) he))
  obtain ⟨rfl, rfl⟩ := hsaved.of_pure
  exact .answers rfl (hclock ▸ hseconds) (hclock ▸ hfits)

theorem replaceWith_counts {q : RefreshRequest} {current : Record}
    {result : Except Error RefreshAnswer} (hnow : now.IsRepresentable)
    (haccept : OAuth.Client.accept t now = .ok tokens) (hstill : inner.IsStill now)
    (hdevice : q.device = device.text)
    (h : (replaceWith device current q.refreshToken tokens).Yields inner result)
    (hsub : inner ⊆ trace) :
    Counts t.lifetime RefreshAnswer.expiresIn (RefreshFault q tokens trace) [] inner result := by
  unfold replaceWith at h
  obtain ⟨issue, rest, rfl, hissue⟩ := h.of_now_bind
  have hissued : issue.clock = now := hstill.clock_eq (by simp)
  obtain ⟨hblank, rfl⟩ | ⟨r, hseconds, hfits, hbuilt⟩ :=
    build_yields hnow haccept hissued rfl rfl hissue
  · exact .fails (.blank hblank)
  obtain ⟨swap, rest, rfl, ⟨e, he, -, rfl⟩ | ⟨outcome, houtcome, hswapped⟩⟩ := hbuilt.of_store_bind
  · exact .fails (.storage (Trace.not_isSound (hsub (by simp)) he))
  obtain rfl : outcome = swap.table.swapOutcome device (some q.refreshToken.text) :=
    (Store.answer_apply houtcome).1
  obtain ⟨e, hswap, -, rfl⟩ | ⟨_, -, hchecked⟩ := hswapped.of_ofExcept_bind
  · have hmem := hsub (List.mem_cons_of_mem _ List.mem_cons_self)
    exact .fails (.lost hdevice hmem (lost_of_checkSwap r hswap))
  obtain ⟨read, rest, rfl, hread⟩ := hchecked.of_now_bind
  have hclock : read.clock = now := hstill.clock_eq (by simp)
  obtain ⟨rfl, rfl⟩ := hread.of_pure
  exact .answers rfl (hclock ▸ hseconds) (hclock ▸ hfits)

theorem signUp_counts {q : SignUpRequest} {result : Except Error SignUpAnswer}
    (hnow : now.IsRepresentable) (haccept : OAuth.Client.accept t now = .ok tokens)
    (hstill : trace.IsStill now)
    (hanswers : s.client.Answers (.authorizationCode q.code.text) call trace (.ok tokens))
    (h : (s.signUp q).Yields trace result) :
    Counts t.lifetime SignUpAnswer.expiresIn (SignUpFault s q tokens trace) [call] trace
      result := by
  unfold signUp at h
  obtain ⟨e, hdevice, -, rfl⟩ | ⟨device, hdevice, hnamed⟩ := h.of_ofExcept_bind
  · obtain ⟨⟨reason, rfl⟩, hnone⟩ := required_error hdevice
    exact .fails (.incomplete fun device hfor => hnone device hfor.1)
  dsimp only at hnamed
  split at hnamed
  · rename_i hcode
    obtain ⟨-, rfl⟩ := Command.Yields.of_ofExcept (e := .error _) hnamed
    exact .fails (.incomplete fun device hfor => hfor.2.1 (by simpa using hcode))
  obtain ⟨e, hprovider, -, rfl⟩ | ⟨_, -, hchecked⟩ := hnamed.of_ofExcept_bind
  · obtain ⟨⟨reason, rfl⟩, hgiven, hother⟩ := checkProvider_error hprovider
    exact .fails (.incomplete fun device hfor => hfor.2.2.elim hgiven hother)
  -- from here on the tokens are those that were accepted
  obtain ⟨asking, rest, rfl, hcalls, hgranted⟩ := hanswers.granted hchecked
  obtain ⟨e, howner, -, rfl⟩ | ⟨owner, howner, howned⟩ := hgranted.of_ofExcept_bind
  · obtain ⟨reason, rfl⟩ := OAuth.Client.owner_error howner
    exact .fails (.nameless howner)
  obtain ⟨inner, hinner, hrest, hsame, -⟩ := howned.inner_of_guarded
  have hsub : inner ⊆ asking ++ rest := List.subset_append_of_subset_right _ hrest
  refine (register_counts hnow haccept (hstill.mono hsub) (required_ok hdevice).symm howner hinner
    hsub).whole fun hquiet => ?_
  rw [Trace.calls_append, hcalls, hsame, hquiet, List.append_nil]

theorem refresh_counts {q : RefreshRequest} {result : Except Error RefreshAnswer}
    (hnow : now.IsRepresentable) (haccept : OAuth.Client.accept t now = .ok tokens)
    (hstill : trace.IsStill now)
    (hanswers : s.client.Answers (.refreshToken q.refreshToken.text) call trace (.ok tokens))
    (h : (s.refresh q).Yields trace result) :
    Counts t.lifetime RefreshAnswer.expiresIn (RefreshFault q tokens trace) [call] trace
      result := by
  obtain ⟨hnone, reason, he⟩ | ⟨device, user, hdevice, huser, htoken⟩ := refresh_cases s q
  · rw [he] at h
    obtain ⟨-, rfl⟩ := h.of_ofExcept
    exact .fails (.incomplete hnone)
  obtain ⟨look, inner, hlook, hsub, -, hcalls, hrest⟩ := refresh_yields hdevice huser htoken h
  obtain ⟨-, e, rfl, ⟨cause, hcause, rfl⟩ | hdenied⟩ | ⟨r, -, -, hexchange⟩ := hrest
  · exact .fails (.storage (Trace.not_isSound hlook hcause))
  · exact .fails (.denied hdevice huser hlook hdenied)
  obtain ⟨before, rest, rfl, hasked, -, hreplace⟩ :=
    exchangeFor_granted hexchange (hanswers.mono hsub)
  have hrest : rest ⊆ trace := fun m hm => hsub (List.mem_append_right before hm)
  refine (replaceWith_counts hnow haccept (hstill.mono hrest) hdevice hreplace hrest).whole
    fun hquiet => ?_
  rw [hcalls, Trace.calls_append, hasked, hquiet, List.append_nil]

end Service

namespace OAuth.ServiceToken

variable {c : Client} {t : TokenResponse} {tokens : Tokens} {now : Instant} {trace : Trace}
  {call : Http.Call}

/-- When a token is asked for again: after two thirds of its lifetime, which lead to an instant
within the calendar and are told from twice as many seconds. -/
structure Schedules (lifetime : Option Nat) (now : Instant) (refreshAt : Option Instant) :
    Prop where
  never : lifetime = none → refreshAt = none
  later : ∀ n : Nat, lifetime = some n → Service.FitsSeconds (n * 2) ∧
    ∃ at_, now.add? (Span.seconds n).twoThirds = some at_ ∧ refreshAt = some at_

theorem schedules_ofTokens? (hnow : now.IsRepresentable)
    (haccept : Client.accept t now = .ok tokens) :
    ∃ token, ofTokens? tokens now = some token ∧ token.stopped = false ∧
      Schedules t.lifetime now token.refreshAt := by
  have hspan := Client.lifetime_of_accept haccept
  have hfits : ∀ lifetime, tokens.lifetime = some lifetime →
      0 ≤ lifetime.nanos ∧ ∃ expiry, now.add? lifetime = some expiry := by
    intro lifetime hlifetime
    obtain ⟨n, -, rfl, hexpiry⟩ := (Client.accept_ok haccept).1 lifetime hlifetime
    refine ⟨?_, hexpiry⟩
    simp only [Span.seconds, Span.nanosPerSecond]
    omega
  obtain ⟨token, htoken⟩ := exists_ofTokens? hnow.1 hfits
  obtain ⟨-, -, hruns, hrefreshAt⟩ := of_ofTokens? htoken
  refine ⟨token, htoken, hruns, fun hnone => by simp [hrefreshAt, hspan, hnone], fun n hn => ?_⟩
  rw [hn, Option.map_some] at hspan
  obtain ⟨hnonneg, expiry, hadd⟩ := hfits _ hspan
  have hstart := Instant.nanos_bounds hnow
  have hend := Instant.nanos_bounds (hnow.add? hadd)
  have hexpiry : expiry.nanos - now.nanos = n * Span.nanosPerSecond :=
    congrArg Span.nanos (Instant.since_of_add? hadd)
  refine ⟨?_, ?_⟩
  -- The calendar is twenty thousand years long, and 64 bits count far more seconds than twice that.
  · have hlow : Decimal.signedStart 64 = -9223372036854775808 := rfl
    have hhigh : Decimal.signedEnd 64 = 9223372036854775808 := rfl
    simp only [Span.nanosPerSecond] at hstart hend hexpiry
    rw [Service.FitsSeconds, hlow, hhigh]
    omega
  · have hthirds := Span.twoThirds_nanos hnonneg
    obtain ⟨at_, hat⟩ := Instant.exists_add?_of_le (Span.seconds n).twoThirds hnow.1 (by omega)
      (by omega) hadd
    obtain ⟨-, rfl⟩ := Instant.add?_eq_some_iff.mp hat
    exact ⟨_, hat, by rw [hrefreshAt, hspan, Option.map_some]⟩

theorem start_schedules {result : Except Error ServiceToken} (hnow : now.IsRepresentable)
    (haccept : Client.accept t now = .ok tokens) (hstill : trace.IsStill now)
    (hanswers : c.Answers .clientCredentials call trace (.ok tokens))
    (h : (start c).Yields trace result) :
    trace.calls = [call] ∧ ∃ token, result = .ok token ∧ token.stopped = false ∧
      Schedules t.lifetime now token.refreshAt := by
  obtain ⟨e, hrequest, rfl⟩ | ⟨asking, granted, noted, rfl, hrequest, rfl⟩ := start_yields h
  · obtain ⟨-, -, hok⟩ := hanswers.request hrequest
    cases hok
  obtain ⟨hcalls, -, hok⟩ := (hanswers.mono (List.subset_append_left _ _)).request hrequest
  cases hok
  obtain ⟨token, htoken, hruns, hschedules⟩ := schedules_ofTokens? hnow haccept
  have hclock : noted.clock = now := hstill.clock_eq (by simp)
  refine ⟨?_, token, by rw [hclock, htoken]; rfl, hruns, hschedules⟩
  rw [Trace.calls_append, hcalls]
  rfl

theorem tick_schedules {token token' : ServiceToken} (hruns : token.stopped = false)
    (hnow : now.IsRepresentable) (haccept : Client.accept t now = .ok tokens)
    (hstill : trace.IsStill now)
    (hanswers : c.Answers .clientCredentials call trace (.ok tokens))
    (h : (token.tick c).Yields trace token') :
    token'.stopped = false ∧
      (token.isDue now = true → trace.calls = [call] ∧
        Schedules t.lifetime now token'.refreshAt) ∧
      (token.isDue now = false → trace.calls = [] ∧ token' = token) := by
  obtain ⟨looked, rest, rfl, hrest⟩ := tick_yields hruns h
  have hlooked : looked.clock = now := hstill.clock_eq (by simp)
  rw [hlooked] at hrest
  obtain ⟨hdue, rfl, rfl⟩ | ⟨hdue, asking, outcome, noted, rfl, hasking, rfl⟩ := hrest
  · refine ⟨hruns, fun h => ?_, fun _ => ⟨rfl, rfl⟩⟩
    cases hdue.symm.trans h
  obtain ⟨hcalls, -, rfl⟩ := (hanswers.mono fun m hm => by simp [hm]).request hasking
  obtain ⟨token', htoken, hruns', hschedules⟩ := schedules_ofTokens? hnow haccept
  have hclock : noted.clock = now := hstill.clock_eq (by simp)
  rw [hclock, ofResult?, htoken]
  refine ⟨hruns', fun _ => ⟨?_, hschedules⟩, fun h => ?_⟩
  · rw [Trace.calls_cons rfl, Trace.calls_append, hcalls]
    rfl
  · cases hdue.symm.trans h

end OAuth.ServiceToken

namespace Service

/-- While the clock stands still, nothing that is calculated from a lifetime that was accepted goes
beyond the calendar or beyond 64 bits, in a sign-up, in a renewal or for the service's own token. -/
theorem counts_of_accept {t : OAuth.TokenResponse} {now : Instant} {tokens : OAuth.Tokens}
    (hnow : now.IsRepresentable) (haccept : OAuth.Client.accept t now = .ok tokens) (s : Service)
    {trace : Trace} (hstill : trace.IsStill now) (call : Http.Call) :
    (∀ q result, (s.signUp q).Yields trace result →
      s.client.Answers (.authorizationCode q.code.text) call trace (.ok tokens) →
      result ≠ .error .beyondCalendar ∧
        Counts t.lifetime SignUpAnswer.expiresIn (SignUpFault s q tokens trace) [call] trace
          result) ∧
    (∀ q result, (s.refresh q).Yields trace result →
      s.client.Answers (.refreshToken q.refreshToken.text) call trace (.ok tokens) →
      result ≠ .error .beyondCalendar ∧
        Counts t.lifetime RefreshAnswer.expiresIn (RefreshFault q tokens trace) [call] trace
          result) ∧
    (s.client.Answers .clientCredentials call trace (.ok tokens) →
      (∀ result, (OAuth.ServiceToken.start s.client).Yields trace result →
        trace.calls = [call] ∧ ∃ token, result = .ok token ∧ token.stopped = false ∧
          OAuth.ServiceToken.Schedules t.lifetime now token.refreshAt) ∧
      ∀ token token', token.stopped = false →
        (OAuth.ServiceToken.tick token s.client).Yields trace token' →
        token'.stopped = false ∧
          (token.isDue now = true → trace.calls = [call] ∧
            OAuth.ServiceToken.Schedules t.lifetime now token'.refreshAt) ∧
          (token.isDue now = false → trace.calls = [] ∧ token' = token)) := by
  refine ⟨fun q result h hanswers => ?_, fun q result h hanswers => ?_,
    fun hanswers => ⟨fun result h => ?_, fun token token' hruns h => ?_⟩⟩
  · have hcounts := signUp_counts hnow haccept hstill hanswers h
    exact ⟨hcounts.ne_beyondCalendar fun _ => SignUpFault.ne_beyondCalendar, hcounts⟩
  · have hcounts := refresh_counts hnow haccept hstill hanswers h
    exact ⟨hcounts.ne_beyondCalendar fun _ => RefreshFault.ne_beyondCalendar, hcounts⟩
  · exact OAuth.ServiceToken.start_schedules hnow haccept hstill hanswers h
  · exact OAuth.ServiceToken.tick_schedules hruns hnow haccept hstill hanswers h

/-- Two seconds less a nanosecond before the end of the calendar, with a session to renew, and with
a provider whose tokens last for two seconds: they end with the last nanosecond that there is. -/
def sampleDusk : World :=
  { sampleRefreshWorld sampleIssuer with clock := ⟨253402300797999999999, 0⟩ }

theorem counts_of_accept_last_second :
    (∃ answer, (sampleDusk.runCommand (Crowd.sampleService.signUp ⟨"d", ⟨"a"⟩, ""⟩)).1 =
        .ok answer ∧ answer.expiresIn = 2) ∧
    (∃ answer, (sampleDusk.runCommand (Crowd.sampleService.refresh sampleRefresh)).1 =
        .ok answer ∧ answer.expiresIn = 2) ∧
    (∃ token, (sampleDusk.runCommand (OAuth.ServiceToken.start Crowd.sampleService.client)).1 =
        .ok token ∧ token.refreshAt = some ⟨253402300799333333332, 0⟩) ∧
    (sampleDusk.run (OAuth.ServiceToken.sampleToken.tick Crowd.sampleService.client)).1.refreshAt =
      some ⟨253402300799333333332, 0⟩ := by
  let t : OAuth.TokenResponse := ⟨sampleToken.text, "b", some 2, none, none, none⟩
  let tokens : OAuth.Tokens := ⟨sampleToken, none, some (.seconds 2), none⟩
  have hnow : sampleDusk.clock.IsRepresentable := ⟨by decide, by decide, by decide⟩
  have haccept : OAuth.Client.accept t sampleDusk.clock = .ok tokens := by decide +kernel
  have hall {α : Type} (p : Program α) := counts_of_accept hnow haccept Crowd.sampleService
    (sampleDusk.isStill_trace p)
  have hat {token : OAuth.ServiceToken}
      (h : OAuth.ServiceToken.Schedules t.lifetime sampleDusk.clock token.refreshAt) :
      token.refreshAt = some ⟨253402300799333333332, 0⟩ := by
    obtain ⟨-, at_, hadd, hrefresh⟩ := h.later 2 rfl
    exact hrefresh.trans (hadd.symm.trans (by decide))
  refine ⟨?_, ?_, ?_, ?_⟩
  · let signUp := ExceptT.run (Crowd.sampleService.signUp ⟨"d", ⟨"a"⟩, ""⟩)
    have hok : (sampleDusk.run signUp).1 = .ok ⟨sampleToken, "a", .empty, 2, ""⟩ := by
      decide +kernel
    obtain ⟨-, hcounts⟩ := (hall signUp _).1 _ _ (World.yields_of_run hok)
      (.of_deliveries rfl (by decide +kernel))
    cases hcounts with
    | answers _ hseconds => exact ⟨_, hok, hseconds⟩
  · let refresh := ExceptT.run (Crowd.sampleService.refresh sampleRefresh)
    have hok : (sampleDusk.run refresh).1 = .ok ⟨sampleToken, ⟨"r"⟩, 2⟩ := by
      decide +kernel
    obtain ⟨-, hcounts⟩ := (hall refresh _).2.1 _ _ (World.yields_of_run hok)
      (.of_deliveries rfl (by decide +kernel))
    cases hcounts with
    | answers _ hseconds => exact ⟨_, hok, hseconds⟩
  · let start := ExceptT.run (OAuth.ServiceToken.start Crowd.sampleService.client)
    have hanswers : Crowd.sampleService.client.Answers .clientCredentials _
        (sampleDusk.trace start) (.ok tokens) := .of_deliveries rfl (by decide +kernel)
    obtain ⟨-, token, hok, -, hschedules⟩ :=
      ((hall start _).2.2 hanswers).1 _ (sampleDusk.yields_trace start)
    exact ⟨token, hok, hat hschedules⟩
  · let tick := OAuth.ServiceToken.sampleToken.tick Crowd.sampleService.client
    have hanswers : Crowd.sampleService.client.Answers .clientCredentials _
        (sampleDusk.trace tick) (.ok tokens) := .of_deliveries rfl (by decide +kernel)
    obtain ⟨-, hdue, -⟩ :=
      ((hall tick _).2.2 hanswers).2 _ _ rfl (sampleDusk.yields_trace tick)
    exact hat (hdue (by decide)).2

end Service

end DeviceAuth
