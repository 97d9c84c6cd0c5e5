import DeviceAuth.Proofs.Ownership
import DeviceAuth.Proofs.Service.Trace

/-! Renewals while others act. New tokens are stored only in place of a record that still carries
the presented refresh token; a refusal of the provider ends whatever session the device has by
then. -/
namespace DeviceAuth

namespace Store.Table

theorem refreshAgrees_iff {current : Option Secret} {presented : Secret} :
    refreshAgrees current (some presented.text) = true ↔ current = some presented :=
  refreshAgrees_iff_map.trans ((Option.map_injective Secret.text_injective).eq_iff' rfl)

/-- All that a swap can come to, and what it leaves. -/
theorem swap_cases (t : Table) (device : DeviceId) (presented : Secret) (record : Record) :
    (t.get? device = none ∧ t.swapOutcome device (some presented.text) = .missing ∧
        (t.next (.swap device (some presented.text) record)).get? device = none) ∨
      (∃ found, t.get? device = some found ∧ found.refreshToken ≠ some presented ∧
        t.swapOutcome device (some presented.text) = .refreshMismatch ∧
        (t.next (.swap device (some presented.text) record)).get? device = some found) ∨
      (∃ found, t.get? device = some found ∧ found.refreshToken = some presented ∧
        t.swapOutcome device (some presented.text) = .updated ∧
        (t.next (.swap device (some presented.text) record)).get? device = some record) := by
  cases hfound : t.get? device with
  | none =>
    have houtcome : t.swapOutcome device (some presented.text) = .missing := by
      simp [swapOutcome, hfound]
    exact .inl ⟨rfl, houtcome, by simp [next, apply, houtcome, hfound]⟩
  | some found =>
    by_cases htoken : found.refreshToken = some presented
    · have houtcome : t.swapOutcome device (some presented.text) = .updated := by
        simp [swapOutcome, hfound, refreshAgrees_iff.mpr htoken]
      exact .inr (.inr ⟨found, rfl, htoken, houtcome, get?_next_swap record houtcome⟩)
    · have houtcome : t.swapOutcome device (some presented.text) = .refreshMismatch := by
        simp [swapOutcome, hfound, refreshAgrees_iff, htoken]
      exact .inr (.inl ⟨found, rfl, htoken, houtcome, by simp [next, apply, houtcome, hfound]⟩)

/-- A device keeps its refresh token while nobody puts a record with another in place. -/
theorem refreshToken_foldl {device : DeviceId} {token : Secret} {ops : List Operation}
    (hputs : ∀ op ∈ ops, ∀ r, op.Puts device r → r.refreshToken = some token) {t : Table}
    (ht : ∀ r, t.get? device = some r → r.refreshToken = some token) :
    ∀ r, (ops.foldl next t).get? device = some r → r.refreshToken = some token := by
  induction ops generalizing t with
  | nil => exact ht
  | cons op rest ih =>
    refine ih (fun op' hop' => hputs op' (List.mem_cons_of_mem op hop')) fun r hr => ?_
    rcases t.get?_next_cases op device with hsame | ⟨put, hput, hafter⟩ | ⟨old, now, hold, hafter⟩ |
      ⟨-, -, hafter⟩
    · exact ht r (hsame.symm.trans hr)
    · cases hafter.symm.trans hr
      exact hputs op List.mem_cons_self r hput
    · cases hafter.symm.trans hr
      exact ht old hold
    · cases hafter.symm.trans hr

end Store.Table

theorem Record.signOut_eq_self_iff {r : Record} {now : Instant} :
    r.signOut now = r ↔ r.isSignedOut = true := by
  obtain ⟨device, owner, provider, accessToken, refreshToken, issuedAt, expiresAt, ended⟩ := r
  cases ended <;> simp [signOut, isSignedOut]

theorem Record.Draft.build_eq {d : Record.Draft} {expiry : Option Instant}
    (haccess : d.accessToken.text ≠ "") (hexpiry : d.expiry = .ok expiry) :
    d.build = .ok ⟨d.device, d.owner, d.provider, d.accessToken,
      d.refreshToken.filter (!·.isEmpty), d.issuedAt, expiry, none⟩ := by
  have hfilled : d.accessToken.isEmpty ≠ true := by simpa using haccess
  unfold build
  dsimp only
  rw [if_neg hfilled, hexpiry]
  rfl

/-- The moment leaves a record of the device alone that does not carry the refresh token. -/
def Moment.EndsOnly (device : DeviceId) (token : Secret) (m : Moment) : Prop :=
  ∀ r, m.before.record? device = some r → r.refreshToken ≠ some token →
    m.after.record? device = some r

theorem Moment.endsOnly_signOut_iff {device : DeviceId} {token : Secret} {now : Instant}
    {m : Moment} (hafter : m.after.record? device = (m.before.record? device).map (·.signOut now)) :
    m.EndsOnly device token ↔ ∀ r, m.before.record? device = some r →
      r.refreshToken = some token ∨ r.isSignedOut = true := by
  unfold EndsOnly
  rw [hafter]
  refine forall_congr' fun r => forall_congr' fun hr => ?_
  rw [hr, Option.map_some, Option.some.injEq, Record.signOut_eq_self_iff]
  exact or_iff_not_imp_left.symm

namespace Service

variable {s : Service} {q : RefreshRequest} {device : DeviceId} {user : UserId} {trace : Trace}

/-- A record of new tokens for the device of another. -/
structure IsRenewal (current : Record) (device : DeviceId) (presented : Secret)
    (tokens : OAuth.Tokens) (issued : Instant) (record : Record) : Prop where
  device_eq : record.device = device
  owner_eq : record.owner = current.owner
  provider_eq : record.provider = current.provider
  accessToken_eq : record.accessToken = tokens.accessToken
  refreshToken_eq : record.refreshToken = some (tokens.refreshToken.getD presented)
  issuedAt_eq : record.issuedAt = issued
  expiresAt_eq : record.expiresAt.map some = tokens.lifetime.map issued.add?
  signedOutAt_eq : record.signedOutAt = none

theorem exists_renewal {current : Record} {presented : Secret} {tokens : OAuth.Tokens}
    {issued : Instant} (haccess : tokens.accessToken.text ≠ "")
    (hpresented : presented.text ≠ "")
    (hlifetime : ∀ span, tokens.lifetime = some span → ∃ expiry, issued.add? span = some expiry)
    (hrefresh : ∀ token, tokens.refreshToken = some token → token.text ≠ "") :
    ∃ record, (renewal current device presented tokens issued).build = .ok record ∧
      IsRenewal current device presented tokens issued record := by
  have hkept : (some (tokens.refreshToken.getD presented)).filter (!·.isEmpty) =
      some (tokens.refreshToken.getD presented) := by
    have hne : (tokens.refreshToken.getD presented).text ≠ "" := by
      cases htoken : tokens.refreshToken with
      | none => exact hpresented
      | some token => exact hrefresh token htoken
    simpa [Option.filter_some] using hne
  have hexpiry : ∃ expiry, (renewal current device presented tokens issued).expiry = .ok expiry ∧
      expiry.map some = tokens.lifetime.map issued.add? := by
    simp only [Record.Draft.expiry, renewal]
    cases hspan : tokens.lifetime with
    | none => exact ⟨none, rfl, rfl⟩
    | some span =>
      obtain ⟨t, ht⟩ := hlifetime span hspan
      exact ⟨some t, by simp [ht], by simp [ht]⟩
  obtain ⟨expiry, hbuilt, hsame⟩ := hexpiry
  refine ⟨⟨device, current.owner, current.provider, tokens.accessToken,
    some (tokens.refreshToken.getD presented), issued, expiry, none⟩, ?_,
    ⟨rfl, rfl, rfl, rfl, rfl, rfl, hsame, rfl⟩⟩
  rw [Record.Draft.build_eq haccess hbuilt]
  simp only [renewal, hkept]

structure Settles (device : DeviceId) (presented : Secret) (record : Record) (swap : Moment)
    (trace : Trace) (result : Except Error RefreshAnswer) : Prop where
  ok_iff : (∃ answer, result = .ok answer) ↔
    ∃ found, swap.before.record? device = some found ∧ found.refreshToken = some presented
  stored : ∀ answer, result = .ok answer → swap.after.record? device = some record ∧
    answer.accessToken = record.accessToken ∧ some answer.refreshToken = record.refreshToken ∧
      ∃ now ∈ trace.readings, answer.expiresIn = record.remaining now
  missing : swap.before.record? device = none →
    result = .error (.unauthenticated
        ("device " ++ device.text ++ " was signed off during refresh")) ∧
      swap.after.record? device = none
  rotated : ∀ found, swap.before.record? device = some found →
    found.refreshToken ≠ some presented →
      result = .error (.invalidGrant
          ("refresh token of device " ++ device.text ++ " was rotated concurrently")) ∧
        swap.after.record? device = some found

namespace Settles

variable {presented : Secret} {record : Record} {swap : Moment}

theorem of_missing (hfound : swap.before.record? device = none)
    (hafter : swap.after.record? device = none) :
    Settles device presented record swap trace (.error (.unauthenticated
      ("device " ++ device.text ++ " was signed off during refresh"))) where
  ok_iff := by simp [hfound]
  stored := nofun
  missing _ := ⟨rfl, hafter⟩
  rotated := by simp [hfound]

theorem of_rotated {found : Record} (hfound : swap.before.record? device = some found)
    (htoken : found.refreshToken ≠ some presented)
    (hafter : swap.after.record? device = some found) :
    Settles device presented record swap trace (.error (.invalidGrant
      ("refresh token of device " ++ device.text ++ " was rotated concurrently"))) where
  ok_iff := by simp [hfound, htoken]
  stored := nofun
  missing := by simp [hfound]
  rotated found' hfound' _ := ⟨rfl, hafter.trans (hfound.symm.trans hfound')⟩

theorem of_updated {found : Record} {token : Secret} {now : Instant}
    (hfound : swap.before.record? device = some found)
    (htoken : found.refreshToken = some presented)
    (hafter : swap.after.record? device = some record) (hrecord : record.refreshToken = some token)
    (hnow : now ∈ trace.readings) :
    Settles device presented record swap trace
      (.ok ⟨record.accessToken, record.refreshToken.getD .empty, record.remaining now⟩) where
  ok_iff := by simp [hfound, htoken]
  stored := by
    rintro answer hanswer
    cases hanswer
    exact ⟨hafter, rfl, by simp [hrecord], now, hnow, rfl⟩
  missing := by simp [hfound]
  rotated found' hfound' htoken' := by
    cases hfound.symm.trans hfound'
    exact absurd htoken htoken'

end Settles

theorem replaceWith_yields {current : Record} {token : Secret} {tokens : OAuth.Tokens}
    {rest : Trace} {result : Except Error RefreshAnswer}
    (h : (replaceWith device current token tokens).Yields rest result) (hsub : rest ⊆ trace)
    (hsound : trace.IsSound)
    (hbuild : ∀ issued ∈ trace.readings, ∃ record,
      (renewal current device token tokens issued).build = .ok record ∧
        IsRenewal current device token tokens issued record) :
    rest.calls = [] ∧ ∃ issued ∈ trace.readings, ∃ record swap,
      IsRenewal current device token tokens issued record ∧
        rest.writes = [⟨.store (.swap device (some token.text) record), swap⟩] ∧
        Settles device token record ⟨.store (.swap device (some token.text) record), swap⟩ trace
          result := by
  obtain ⟨issue, rest, rfl, hrest⟩ := h.of_now_bind
  have hissued : issue.clock ∈ trace.readings := Trace.mem_readings (hsub List.mem_cons_self)
  obtain ⟨record, hrecord, hrenewal⟩ := hbuild _ hissued
  change (Command.ofExcept _ >>= _).Yields rest result at hrest
  rw [hrecord] at hrest
  change (Command.store (.swap device (some token.text) record) >>= _).Yields rest result at hrest
  obtain ⟨swap, rest, rfl, hswap⟩ := hrest.of_store_bind
  obtain ⟨e, he, -⟩ | ⟨outcome, houtcome, hend⟩ := hswap
  · obtain ⟨x, hx⟩ := Moment.exists_ok_of_succeeds
      (hsound ⟨.store (.swap device (some token.text) record), swap⟩ (hsub (by simp)))
    cases hx.symm.trans he
  have hafter := Moment.record?_after houtcome device
  have htable : outcome = swap.table.swapOutcome device (some token.text) :=
    (Store.answer_apply houtcome).1
  -- the table that the swap meets decides alone, whatever was done to it since the look
  rcases swap.table.swap_cases device token record with ⟨hfound, hmissing, hnext⟩ |
    ⟨found, hfound, htoken, hmismatch, hnext⟩ | ⟨found, hfound, htoken, hupdated, hnext⟩
  · rw [htable, hmissing] at hend
    obtain ⟨rfl, rfl⟩ := Command.Yields.of_ofExcept (e := .error _) hend
    exact ⟨rfl, issue.clock, hissued, record, swap, hrenewal, rfl,
      .of_missing hfound (hafter.trans hnext)⟩
  · rw [htable, hmismatch] at hend
    obtain ⟨rfl, rfl⟩ := Command.Yields.of_ofExcept (e := .error _) hend
    exact ⟨rfl, issue.clock, hissued, record, swap, hrenewal, rfl,
      .of_rotated hfound htoken (hafter.trans hnext)⟩
  · rw [htable, hupdated] at hend
    obtain ⟨read, rest, rfl, hread⟩ := Command.Yields.of_now_bind hend
    obtain ⟨rfl, rfl⟩ := Command.Yields.of_ofExcept (e := .ok _) hread
    refine ⟨rfl, issue.clock, hissued, record, swap, hrenewal, rfl,
      .of_updated hfound htoken (hafter.trans hnext) hrenewal.refreshToken_eq ?_⟩
    exact Trace.mem_readings (hsub (by simp))

theorem exists_renewal_of_answers {current : Record} {presented : Secret} {call : Http.Call}
    {tokens : OAuth.Tokens}
    (hanswers : s.client.Answers (.refreshToken presented.text) call trace (.ok tokens))
    (hasked : call ∈ trace.calls) (haccess : tokens.accessToken.text ≠ "")
    (hpresented : presented.text ≠ "") {issued : Instant} (hissued : issued ∈ trace.readings) :
    ∃ record, (renewal current device presented tokens issued).build = .ok record ∧
      IsRenewal current device presented tokens issued record := by
  obtain ⟨asked, hsent⟩ := Trace.exists_mem_of_mem_calls hasked
  obtain ⟨t, haccept⟩ := OAuth.Client.ofDelivery_ok (hanswers.outcome_eq asked hsent issued hissued)
  obtain ⟨hlifetime, hrefresh⟩ := OAuth.Client.accept_ok haccept
  refine exists_renewal haccess hpresented (fun span hspan => ?_) hrefresh
  obtain ⟨n, -, -, hexpiry⟩ := hlifetime span hspan
  exact hexpiry

/-- A renewal that the provider answers with tokens asks it once, and makes one attempt to put the
record of the tokens in place of the one that it finds by then. -/
theorem exchangeFor_settles {current : Record} {token : Secret} {call : Http.Call}
    {tokens : OAuth.Tokens} {inner : Trace} {result : Except Error RefreshAnswer}
    (h : (s.exchangeFor device current token).Yields inner result) (hsub : inner ⊆ trace)
    (hsound : trace.IsSound)
    (hanswers : s.client.Answers (.refreshToken token.text) call trace (.ok tokens))
    (haccess : tokens.accessToken.text ≠ "") (htoken : token.text ≠ "") :
    inner.calls = [call] ∧ ∃ issued ∈ trace.readings, ∃ record swap,
      IsRenewal current device token tokens issued record ∧
        inner.writes = [⟨.store (.swap device (some token.text) record), swap⟩] ∧
        Settles device token record ⟨.store (.swap device (some token.text) record), swap⟩ trace
          result := by
  obtain ⟨before, rest, rfl, hasked, hnone, hreplace⟩ := exchangeFor_granted h (hanswers.mono hsub)
  have hbefore : before ⊆ trace := fun m hm => hsub (List.mem_append_left rest hm)
  have hcall : call ∈ trace.calls := Trace.calls_subset hbefore (by simp [hasked])
  obtain ⟨hquiet, issued, hissued, record, swap, hrenewal, hswap, hsettles⟩ :=
    replaceWith_yields hreplace (fun m hm => hsub (List.mem_append_right before hm)) hsound
      fun issued hissued => exists_renewal_of_answers hanswers hcall haccess htoken hissued
  refine ⟨?_, issued, hissued, record, swap, hrenewal, ?_, hsettles⟩
  · rw [Trace.calls_append, hasked, hquiet, List.append_nil]
  · rw [Trace.writes_append, hnone, hswap, List.nil_append]

/-- A renewal that the record it looks at does not authorize asks nobody and writes nothing. Any
other asks the provider, and if it answers with tokens, their record is stored just in case the
presented refresh token is still there. -/
theorem refresh_settles {result : Except Error RefreshAnswer} (hdevice : q.device = device.text)
    (huser : q.user = user.text) (htoken : q.refreshToken.text ≠ "")
    (h : (s.refresh q).Yields trace result) (hsound : trace.IsSound) :
    ∃ look, ⟨.store (.fetch device), look⟩ ∈ trace ∧
      ((¬∃ r, look.record? device = some r ∧ q.Authorizes r) →
        trace.calls = [] ∧ trace.writes = [] ∧
          ∃ e, result = .error e ∧ Denied device user q.refreshToken (look.record? device) e) ∧
      ∀ r, look.record? device = some r → q.Authorizes r → ∀ call tokens,
        s.client.Answers (.refreshToken q.refreshToken.text) call trace (.ok tokens) →
          tokens.accessToken.text ≠ "" →
            trace.calls = [call] ∧ ∃ issued ∈ trace.readings, ∃ record swap,
              IsRenewal r device q.refreshToken tokens issued record ∧
              trace.writes = [⟨.store (.swap device (some q.refreshToken.text) record), swap⟩] ∧
              Settles device q.refreshToken record
                ⟨.store (.swap device (some q.refreshToken.text) record), swap⟩ trace result := by
  obtain ⟨look, inner, hlook, hsub, hwrites, hcalls, hrest⟩ :=
    refresh_yields hdevice huser htoken h
  rw [hwrites, hcalls]
  refine ⟨look, hlook, ?_⟩
  obtain ⟨rfl, e, rfl, ⟨cause, hcause, -⟩ | hdenied⟩ | ⟨r, hr, hauthorizes, hexchange⟩ := hrest
  · obtain ⟨x, hx⟩ := Moment.exists_ok_of_succeeds (hsound _ hlook)
    cases hx.symm.trans hcause
  · refine ⟨fun _ => ⟨rfl, rfl, e, rfl, hdenied⟩, fun r hr hauthorizes => ?_⟩
    exact absurd ⟨r, hr, hauthorizes⟩ (hdenied.not_authorizes huser)
  · refine ⟨fun hmismatch => absurd ⟨r, hr, hauthorizes⟩ hmismatch,
      fun r' hr' _ call tokens hanswers haccess => ?_⟩
    cases hr.symm.trans hr'
    exact exchangeFor_settles hexchange hsub hsound hanswers haccess htoken

def sampleRefresh : RefreshRequest := ⟨"d", "a", ⟨"r"⟩⟩

theorem fault?_sampleOwner : Identifier.fault? "a" = none := by decide

def sampleOwner : UserId := ⟨"a", fault?_sampleOwner⟩

def sampleSession : Record :=
  { Crowd.sampleRecord sampleOwner "t" with refreshToken := some ⟨"r"⟩ }

def sampleRefreshWorld (peer : Http.Peer) : World :=
  { Crowd.sampleWorld with
    store := .ofBackend (.memory (.ofRecords [sampleSession])) .empty
    peer := peer }

/-- While the provider is asked, the owner signs the device out. -/
def sampleInterference : List (World → World) :=
  [id, id, id, id, fun w => (w.runCommand (signOut "t" ⟨"d", "a", ⟨""⟩⟩)).2]

/-- A session that was ended while the provider was asked is open again. -/
theorem refresh_settles_signed_out :
    ∃ (trace : Trace) (answer : RefreshAnswer) (found record : Record) (swap : Moment),
      (Crowd.sampleService.refresh sampleRefresh).Yields trace (.ok answer) ∧ trace.IsSound ∧
        trace.writes = [swap] ∧ swap.before.record? Record.sample.device = some found ∧
        found.isSignedOut = true ∧ swap.after.record? Record.sample.device = some record ∧
        record.isSignedOut = false := by
  let run := (ExceptT.run (Crowd.sampleService.refresh sampleRefresh)).among sampleInterference
    (sampleRefreshWorld Crowd.samplePeer)
  let token : Secret := ⟨"h.eyJzdWIiOiJiIn0."⟩
  have hresult : run.2 = .ok ⟨token, ⟨"r"⟩, -1⟩ := by decide +kernel
  have hyields : (Crowd.sampleService.refresh sampleRefresh).Yields run.1
      (.ok ⟨token, ⟨"r"⟩, -1⟩) := hresult ▸ Program.yields_among _ _ _
  have hsound : run.1.IsSound := by decide +kernel
  have hanswers : Crowd.sampleService.client.Answers (.refreshToken "r") _ run.1
      (.ok ⟨token, none, none, none⟩) := .of_deliveries rfl (by decide +kernel)
  have hfound : run.1.writes.head?.bind (fun m => m.before.record? Record.sample.device) =
      some (sampleSession.signOut ⟨0, 0⟩) := by
    decide +kernel
  have hlooks : ∀ m ∈ run.1, (m.before.record? Record.sample.device).any
      (sampleRefresh.Authorizes ·) = true := by
    decide +kernel
  have hdevice : sampleRefresh.device = Record.sample.device.text := rfl
  have huser : sampleRefresh.user = sampleOwner.text := rfl
  obtain ⟨look, hlook, -, hsettles⟩ :=
    refresh_settles hdevice huser (by decide) hyields hsound
  obtain ⟨r, hr, hauthorizes⟩ := (Option.any_eq_true ..).mp (hlooks _ hlook)
  obtain ⟨-, issued, -, record, swap, hrenewal, hwrites, hsettles⟩ :=
    hsettles r hr (of_decide_eq_true hauthorizes) _ _ hanswers (by decide)
  rw [hwrites] at hfound
  obtain ⟨hafter, -⟩ := hsettles.stored _ rfl
  exact ⟨run.1, _, _, record, _, hyields, hsound, hwrites, hfound, rfl, hafter, by
    rw [Record.isSignedOut, hrenewal.signedOutAt_eq]
    rfl⟩

/-- How a renewal that the provider refuses ends the session of a device. -/
structure Ends (device : DeviceId) (now : Instant) (m : Moment) : Prop where
  action_eq : m.action = .store (.signOut device now)
  record_eq : m.after.record? device = (m.before.record? device).map (·.signOut now)
  others_eq : ∀ d, d ≠ device → m.after.record? d = m.before.record? d

theorem ends_of_apply {now : Instant} {met : World} {x : Option Record}
    (hx : (met.store.apply (.signOut device now)).1 = .ok x) :
    Ends device now ⟨.store (.signOut device now), met⟩ where
  action_eq := rfl
  record_eq := by rw [Moment.record?_after hx, Store.Table.get?_next_signOut, if_pos rfl]; rfl
  others_eq d hd := by rw [Moment.record?_after hx, Store.Table.get?_next_signOut, if_neg hd]; rfl

theorem exchangeFor_refused {current : Record} {token : Secret} {call : Http.Call} {e : Error}
    (h : (s.exchangeFor device current token).Yields trace (.error e))
    (hanswers : s.client.Answers (.refreshToken token.text) call trace (.error e))
    (hends : endsSession e = true) :
    trace.calls = [call] ∧ ∃ now m, Ends device now m ∧ trace.writes = [m] := by
  obtain ⟨e', hrenewing, he⟩ | ⟨before, tokens, rest, rfl, hrenewing, -⟩ := exchangeFor_yields h
  · cases he
    obtain ⟨hcalls, ⟨hkept, -⟩ | ⟨e', now, met, he, -, hwrites, ⟨x, hx, -⟩ | ⟨cause, hcause⟩⟩⟩ :=
      hrenewing.of_answers hanswers
    · cases (hkept e rfl).symm.trans hends
    · exact ⟨hcalls, now, _, ends_of_apply hx, hwrites⟩
    · cases hcause
      cases hends
  · obtain ⟨-, ⟨-, hsame, -⟩ | ⟨e', now, met, -, -, -, ⟨x, -, hsame⟩ | ⟨cause, hsame⟩⟩⟩ :=
      hrenewing.of_answers (hanswers.mono (List.subset_append_left before rest))
    all_goals cases hsame

/-- A refusal ends whatever session the device has by then: only the presented one exactly if the
record still carries the presented refresh token, or is signed out already. It does while others
put no record with another refresh token in place. Nobody is asked, and nothing ends, if the request
is not complete or the record it looks at does not authorize it. -/
theorem refresh_refused {call : Http.Call} {e : Error} (h : (s.refresh q).Yields trace (.error e))
    (hanswers : s.client.Answers (.refreshToken q.refreshToken.text) call trace (.error e))
    (hends : endsSession e = true) :
    (trace.calls = [] ∧ trace.writes = [] ∧ ∀ device, q.IsFor device →
      ∃ look, ⟨.store (.fetch device), look⟩ ∈ trace ∧
        ¬∃ r, look.record? device = some r ∧ q.Authorizes r) ∨
    ∃ (device : DeviceId) (look : World) (now : Instant) (m : Moment),
      q.device = device.text ∧ ⟨.store (.fetch device), look⟩ ∈ trace ∧
      (∃ r, look.record? device = some r ∧ q.Authorizes r) ∧
      trace.calls = [call] ∧ trace.writes = [m] ∧ Ends device now m ∧
      (m.EndsOnly device q.refreshToken ↔ ∀ r, m.before.record? device = some r →
        r.refreshToken = some q.refreshToken ∨ r.isSignedOut = true) ∧
      ∀ others : List Store.Operation, m.before.table = others.foldl Store.Table.next look.table →
        (∀ op ∈ others, ∀ r, op.Puts device r → r.refreshToken = some q.refreshToken) →
          m.EndsOnly device q.refreshToken := by
  obtain ⟨hnone, reason, he⟩ | ⟨device, user, hdevice, huser, htoken⟩ := refresh_cases s q
  · rw [he] at h
    obtain ⟨rfl, -⟩ := h.of_ofExcept
    exact .inl ⟨rfl, rfl, fun device hfor => absurd hfor (hnone device)⟩
  obtain ⟨look, inner, hlook, hsub, hwrites, hcalls, hrest⟩ :=
    refresh_yields hdevice huser htoken h
  rw [hwrites, hcalls]
  obtain ⟨rfl, e', he, ⟨cause, -, rfl⟩ | hdenied⟩ | ⟨r, hr, hauthorizes, hexchange⟩ := hrest
  · cases he
    cases hends
  · refine .inl ⟨rfl, rfl, fun device' hfor => ?_⟩
    obtain rfl : device' = device := Identifier.ext_text (hfor.1.symm.trans hdevice)
    exact ⟨look, hlook, hdenied.not_authorizes huser⟩
  obtain ⟨hasked, now, m, hm, hwritten⟩ :=
    exchangeFor_refused hexchange (hanswers.mono hsub) hends
  have hiff : m.EndsOnly device q.refreshToken ↔ _ := Moment.endsOnly_signOut_iff hm.record_eq
  refine .inr ⟨device, look, now, m, hdevice, hlook, ⟨r, hr, hauthorizes⟩, hasked, hwritten, hm,
    hiff, fun others htable hputs => hiff.mpr fun found hfound => .inl ?_⟩
  -- the record that was looked at carries the token, and what others did kept it so
  have hcarries : ∀ r', look.table.get? device = some r' →
      r'.refreshToken = some q.refreshToken := fun r' hr' => by
    cases hr.symm.trans hr'
    exact hauthorizes.2.2
  refine Store.Table.refreshToken_foldl hputs hcarries found ?_
  rw [← htable]
  exact hfound

def refusingPeer : Http.Peer := fun call =>
  if call.body = Text.utf8 "grant_type=refresh_token&refresh_token=r&client_id=" then
    .answered ⟨400, ⟨[]⟩, Text.utf8 "\x7b\"error\":\"invalid_grant\"\x7d"⟩
  else Crowd.samplePeer call

def sampleRefusal : Error :=
  .invalidGrant "token endpoint returned an OAuth error: invalid_grant"

/-- A session that its owner ended while the provider was asked stays as it is. -/
theorem refresh_refused_signed_out :
    ∃ (trace : Trace) (m : Moment),
      (Crowd.sampleService.refresh sampleRefresh).Yields trace (.error sampleRefusal) ∧
        trace.writes = [m] ∧
        m.before.record? Record.sample.device = some (sampleSession.signOut ⟨0, 0⟩) ∧
        m.EndsOnly Record.sample.device sampleRefresh.refreshToken := by
  let run := (ExceptT.run (Crowd.sampleService.refresh sampleRefresh)).among sampleInterference
    (sampleRefreshWorld refusingPeer)
  have hresult : run.2 = .error sampleRefusal := by decide +kernel
  have hyields : (Crowd.sampleService.refresh sampleRefresh).Yields run.1
      (.error sampleRefusal) := hresult ▸ Program.yields_among _ _ _
  have hanswers : Crowd.sampleService.client.Answers (.refreshToken "r") _ run.1
      (.error sampleRefusal) := .of_deliveries rfl (by decide +kernel)
  have hfound : run.1.writes.head?.bind (fun m => m.before.record? Record.sample.device) =
      some (sampleSession.signOut ⟨0, 0⟩) := by
    decide +kernel
  obtain ⟨hnone, -⟩ | ⟨device, look, now, m, hdevice, -, -, -, hwrites, -, hiff, -⟩ :=
    refresh_refused hyields hanswers rfl
  · exact absurd hnone (by decide +kernel)
  obtain rfl : device = Record.sample.device := Identifier.ext_text hdevice.symm
  rw [hwrites] at hfound
  have hended : ∀ r, m.before.record? Record.sample.device = some r →
      r.refreshToken = some sampleRefresh.refreshToken ∨ r.isSignedOut = true := fun r hr => by
    cases hfound.symm.trans hr
    exact .inr rfl
  exact ⟨run.1, m, hyields, hwrites, hfound, hiff.mpr hended⟩

/-- While the provider is asked, the device is signed off and somebody else signs it up. -/
def sampleReplacement : List (World → World) :=
  [id, id, id, id, fun w =>
    ((w.runCommand (signOff "t" ⟨"d", "a", ⟨""⟩⟩)).2.runCommand
      (Crowd.sampleService.signUp ⟨"d", ⟨"b"⟩, ""⟩)).2]

/-- A refusal signs out the new owner, who has nothing to do with the refused token. -/
theorem refusal_of_replaced_session :
    ∃ (trace : Trace) (call : Http.Call) (m : Moment) (found : Record),
      (Crowd.sampleService.refresh sampleRefresh).Yields trace (.error sampleRefusal) ∧
        Crowd.sampleService.client.Answers (.refreshToken "r") call trace
          (.error sampleRefusal) ∧
        trace.calls = [call] ∧
        endsSession sampleRefusal = true ∧ trace.IsSound ∧ m ∈ trace ∧
        m.before.record? Record.sample.device = some found ∧
        found.owner.text ≠ sampleRefresh.user ∧
        ¬m.EndsOnly Record.sample.device sampleRefresh.refreshToken := by
  let run := (ExceptT.run (Crowd.sampleService.refresh sampleRefresh)).among sampleReplacement
    (sampleRefreshWorld refusingPeer)
  have hresult : run.2 = .error sampleRefusal := by decide +kernel
  have hyields : (Crowd.sampleService.refresh sampleRefresh).Yields run.1
      (.error sampleRefusal) := hresult ▸ Program.yields_among _ _ _
  have hanswers : Crowd.sampleService.client.Answers (.refreshToken "r") _ run.1
      (.error sampleRefusal) := .of_deliveries rfl (by decide +kernel)
  have hsound : run.1.IsSound := by decide +kernel
  let found : Record := Crowd.sampleRecord ⟨"b", by decide⟩ "h.eyJzdWIiOiJiIn0."
  have hwritten : run.1.writes.head?.bind (fun m =>
      (m.before.record? Record.sample.device).bind fun r =>
        (m.after.record? Record.sample.device).map fun r' => (r, r')) =
      some (found, found.signOut ⟨0, 0⟩) := by
    decide +kernel
  obtain ⟨m, hm, hrecords⟩ := Option.bind_eq_some_iff.mp hwritten
  obtain ⟨r, hr, hafter⟩ := Option.bind_eq_some_iff.mp hrecords
  obtain ⟨r', hr', hpair⟩ := Option.map_eq_some_iff.mp hafter
  obtain ⟨rfl, rfl⟩ := Prod.mk.inj hpair
  have hmem : m ∈ run.1 := (List.mem_filter.mp (List.mem_of_head? hm)).1
  refine ⟨run.1, _, m, found, hyields, hanswers, by decide +kernel, rfl, hsound, hmem, hr,
    by decide, fun hends => ?_⟩
  have hkept := hends found hr (by decide)
  rw [hkept] at hr'
  exact absurd hr' (by decide)

end Service

end DeviceAuth
