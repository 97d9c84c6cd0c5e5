import DeviceAuth.Proofs.Service.Renewal
import DeviceAuth.Proofs.Trace

/-! The traces of a renewal: the look at the record, the question to the provider, and what follows
from its answer. -/
namespace DeviceAuth

namespace OAuth.Client

variable {c : Client} {trace : Trace} {result : Except Error Tokens}

theorem request_yields {grant : Grant} (h : (c.request grant).Yields trace result) :
    (∃ e, c.call grant = .error e ∧ trace = [] ∧ result = .error e) ∨
      ∃ call asked read, c.call grant = .ok call ∧
        trace = [⟨.send call, asked⟩, ⟨.now, read⟩] ∧
        result = c.ofDelivery grant.type (asked.peer call) read.clock := by
  unfold request at h
  obtain ⟨e, hcall, rfl, rfl⟩ | ⟨call, hcall, hsend⟩ := h.of_ofExcept_bind
  · exact .inl ⟨e, hcall, rfl, rfl⟩
  · obtain ⟨asked, rest, rfl, hread⟩ := hsend.of_perform_bind
    obtain ⟨read, rest, rfl, hend⟩ := hread.of_now_bind
    obtain ⟨rfl, rfl⟩ := hend.of_ofExcept
    exact .inr ⟨call, asked, read, hcall, rfl, rfl⟩

theorem request_of_returns {grant : Grant} {call : Http.Call} {delivery : Http.Delivery}
    (h : (c.request grant).Yields trace result) (hcall : c.call grant = .ok call)
    (hreturns : trace.Returns call delivery) :
    trace.calls = [call] ∧ ∃ now, trace.readings = [now] ∧
      result = c.ofDelivery grant.type delivery now := by
  obtain ⟨e, he, -⟩ | ⟨call', asked, read, hcall', rfl, rfl⟩ := request_yields h
  · cases he.symm.trans hcall
  · cases hcall'.symm.trans hcall
    refine ⟨rfl, read.clock, rfl, ?_⟩
    rw [hreturns asked List.mem_cons_self]

/-- The grant is asked for with the call, and whatever comes back amounts to the outcome, by every
reading of the clock. Nothing says that the call is made. -/
structure Answers (c : Client) (grant : Grant) (call : Http.Call) (trace : Trace)
    (outcome : Except Error Tokens) : Prop where
  callable : c.call grant = .ok call
  outcome_eq : ∀ asked, ⟨.send call, asked⟩ ∈ trace → ∀ now ∈ trace.readings,
    c.ofDelivery grant.type (asked.peer call) now = outcome

namespace Answers

variable {grant : Grant} {call : Http.Call} {outcome : Except Error Tokens}

theorem of_deliveries (hcall : c.call grant = .ok call)
    (h : ∀ delivery ∈ trace.deliveries, ∀ now ∈ trace.readings,
      c.ofDelivery grant.type delivery now = outcome) : c.Answers grant call trace outcome :=
  ⟨hcall, fun _ hasked => h _ (Trace.mem_deliveries hasked)⟩

theorem mono {inner : Trace} (h : c.Answers grant call trace outcome) (hsub : inner ⊆ trace) :
    c.Answers grant call inner outcome :=
  ⟨h.callable, fun asked hasked now hnow =>
    h.outcome_eq asked (hsub hasked) now (Trace.readings_subset hsub hnow)⟩

theorem request (h : c.Answers grant call trace outcome)
    (hrequest : (c.request grant).Yields trace result) :
    trace.calls = [call] ∧ trace.writes = [] ∧ result = outcome := by
  obtain ⟨e, he, -⟩ | ⟨call', asked, read, hcall, rfl, rfl⟩ := request_yields hrequest
  · cases he.symm.trans h.callable
  · cases hcall.symm.trans h.callable
    exact ⟨rfl, rfl, h.outcome_eq asked List.mem_cons_self _ (Trace.mem_readings (by simp))⟩

theorem granted {β : Type} {tokens : Tokens} {next : Tokens → Command β} {result : Except Error β}
    (h : c.Answers grant call trace (.ok tokens))
    (hyields : (c.request grant >>= next).Yields trace result) :
    ∃ asking rest, trace = asking ++ rest ∧ asking.calls = [call] ∧
      (next tokens).Yields rest result := by
  obtain ⟨e, hrequest, rfl⟩ | ⟨asking, tokens', rest, rfl, hrequest, hnext⟩ := hyields.of_bind
  · obtain ⟨-, -, hok⟩ := h.request hrequest
    cases hok
  · obtain ⟨hcalls, -, hok⟩ := (h.mono (List.subset_append_left asking rest)).request hrequest
    cases hok
    exact ⟨asking, rest, rfl, hcalls, hnext⟩

end Answers

theorem lifetime?_ok {seconds : Option Nat} {now : Instant} {span : Span}
    (h : lifetime? seconds now = .ok (some span)) :
    ∃ n : Nat, 0 < n ∧ span = .seconds n ∧ ∃ expiry, now.add? span = some expiry := by
  unfold lifetime? at h
  split at h
  · cases h
  rename_i n
  split at h
  · cases h
  split at h
  · cases h
  rename_i hzero
  split at h
  · cases h
  · rename_i hfits
    cases h
    exact ⟨n, Nat.pos_of_ne_zero hzero, rfl, Option.ne_none_iff_exists'.mp (by simpa using hfits)⟩

theorem accept_ok {t : TokenResponse} {now : Instant} {tokens : Tokens}
    (h : accept t now = .ok tokens) :
    (∀ span, tokens.lifetime = some span →
      ∃ n : Nat, 0 < n ∧ span = .seconds n ∧ ∃ expiry, now.add? span = some expiry) ∧
      ∀ token, tokens.refreshToken = some token → token.text ≠ "" := by
  obtain ⟨lifetime, hlifetime, htokens⟩ := Except.bind_ok h
  cases htokens
  refine ⟨?_, ?_⟩
  · rintro span rfl
    exact lifetime?_ok hlifetime
  · intro token htoken
    have hkept := (Option.filter_eq_some_iff.mp htoken).2
    exact fun htext => by simp [Secret.isEmpty, htext] at hkept

theorem ofDelivery_ok {grant : GrantType} {delivery : Http.Delivery} {now : Instant}
    {tokens : Tokens} (h : c.ofDelivery grant delivery now = .ok tokens) :
    ∃ t, accept t now = .ok tokens := by
  have hbody (r : Http.Response) (h : ofResponse.ofBody c grant r now = .ok tokens) :
      ∃ t, accept t now = .ok tokens := by
    unfold ofResponse.ofBody at h
    split at h
    · cases h
    split at h
    · exact ⟨_, h⟩
    · cases h
  cases delivery with
  | answered r =>
    change c.ofResponse grant r now = .ok tokens at h
    unfold ofResponse at h
    split at h
    · split at h
      · cases h
      split at h <;> cases h
    · split at h
      · split at h
        · exact hbody r h
        · cases h
      · exact hbody r h
  | unreachable | timedOut | dropped | cutOff _ | stalled _ => cases h

theorem accept_of_request {grant : Grant} {tokens : Tokens}
    (h : (c.request grant).Yields trace (.ok tokens)) :
    ∃ t, ∃ now ∈ trace.readings, accept t now = .ok tokens := by
  obtain ⟨e, -, -, he⟩ | ⟨call, asked, read, -, rfl, hresult⟩ := request_yields h
  · cases he
  · obtain ⟨t, haccept⟩ := ofDelivery_ok hresult.symm
    exact ⟨t, read.clock, Trace.mem_readings (by simp), haccept⟩

theorem call_error {grant : Grant} {e : Error} (h : c.call grant = .error e) :
    Service.endsSession e = false := by
  unfold call at h
  split at h
  · cases h
  split at h
  · cases h
    rfl
  · cases h
    rfl

end OAuth.Client

namespace Service

variable {s : Service} {q : RefreshRequest} {device : DeviceId} {user : UserId} {trace : Trace}

theorem refresh_eq (s : Service) (hdevice : q.device = device.text) (huser : q.user = user.text)
    (htoken : q.refreshToken.text ≠ "") :
    s.refresh q = Command.guarded device (s.exchange device user q.refreshToken) := by
  unfold refresh
  rw [hdevice, huser, required_text, required_text]
  exact if_neg (by simpa using htoken)

theorem refresh_cases (s : Service) (q : RefreshRequest) :
    ((∀ device, ¬q.IsFor device) ∧
        ∃ reason, s.refresh q = Command.ofExcept (.error (.invalidArgument reason))) ∨
      ∃ (device : DeviceId) (user : UserId), q.device = device.text ∧ q.user = user.text ∧
        q.refreshToken.text ≠ "" := by
  unfold refresh
  cases hd : required "device_id" .device q.device with
  | error e =>
    obtain ⟨⟨reason, rfl⟩, hdevice⟩ := required_error hd
    exact .inl ⟨fun device h => hdevice device h.1, reason, rfl⟩
  | ok device =>
    cases hu : required "user_id" .user q.user with
    | error e =>
      obtain ⟨⟨reason, rfl⟩, huser⟩ := required_error hu
      exact .inl ⟨fun _ ⟨_, ⟨user, h⟩, _⟩ => huser user h, reason, rfl⟩
    | ok user =>
      by_cases htoken : q.refreshToken.isEmpty = true
      · refine .inl ⟨fun _ h => h.2.2 (by simpa using htoken), ?_⟩
        exact ⟨"refresh_token is required", if_pos htoken⟩
      · exact .inr ⟨device, user, (required_ok hd).symm, (required_ok hu).symm, by
          simpa using htoken⟩

theorem ownedDevice_yields {result : Except Error Record}
    (h : (ownedDevice device user).Yields trace result) :
    ∃ look, trace = [⟨.store (.fetch device), look⟩] ∧
      ((∃ cause, (look.store.apply (.fetch device)).1 = .error cause ∧
          result = .error (.storage cause)) ∨
        result = checkOwner device user (look.record? device)) := by
  obtain ⟨look, rest, rfl, ⟨e, he, rfl, rfl⟩ | ⟨found, hfound, hend⟩⟩ := h.of_store_bind
  · exact ⟨look, rfl, .inl ⟨e, he, rfl⟩⟩
  · obtain ⟨rfl, rfl⟩ := hend.of_ofExcept
    have hrecord : found = look.record? device := (Store.answer_apply hfound).1
    exact ⟨look, rfl, .inr (hrecord ▸ rfl)⟩

inductive Renewing (s : Service) (device : DeviceId) (token : Secret) :
    Trace → Except Error OAuth.Tokens → Prop
  | unasked {e : Error} (hcall : s.client.call (.refreshToken token.text) = .error e) :
    Renewing s device token [] (.error e)
  | granted {call : Http.Call} {asked read : World} {tokens : OAuth.Tokens}
    (hcall : s.client.call (.refreshToken token.text) = .ok call)
    (h : s.client.ofDelivery .refreshToken (asked.peer call) read.clock = .ok tokens) :
    Renewing s device token [⟨.send call, asked⟩, ⟨.now, read⟩] (.ok tokens)
  | failed {call : Http.Call} {asked read : World} {e : Error}
    (hcall : s.client.call (.refreshToken token.text) = .ok call)
    (h : s.client.ofDelivery .refreshToken (asked.peer call) read.clock = .error e)
    (hends : endsSession e = false) :
    Renewing s device token [⟨.send call, asked⟩, ⟨.now, read⟩] (.error e)
  | refused {call : Http.Call} {asked read clock met : World} {e e' : Error}
    (hcall : s.client.call (.refreshToken token.text) = .ok call)
    (h : s.client.ofDelivery .refreshToken (asked.peer call) read.clock = .error e)
    (hends : endsSession e = true)
    (hwritten : (∃ x, (met.store.apply (.signOut device clock.clock)).1 = .ok x ∧ e' = e) ∨
      ∃ cause, (met.store.apply (.signOut device clock.clock)).1 = .error cause ∧
        e' = .storage cause) :
    Renewing s device token [⟨.send call, asked⟩, ⟨.now, read⟩, ⟨.now, clock⟩,
      ⟨.store (.signOut device clock.clock), met⟩] (.error e')

theorem renew_yields {token : Secret} {result : Except Error OAuth.Tokens}
    (h : (s.renew device token).Yields trace result) : s.Renewing device token trace result := by
  obtain ⟨tokens, hgranted, rfl⟩ | ⟨before, e, after, rfl, hrequest, hcatch⟩ := h.of_tryCatch
  · obtain ⟨e, -, -, he⟩ | ⟨call, asked, read, hcall, rfl, hresult⟩ :=
      OAuth.Client.request_yields hgranted
    · cases he
    · exact .granted hcall hresult.symm
  · by_cases hends : endsSession e = true
    · dsimp only at hcatch
      rw [if_pos hends] at hcatch
      obtain ⟨clock, rest, rfl, hsignOut⟩ := hcatch.of_now_bind
      obtain ⟨e', hcall, -, he'⟩ | ⟨call, asked, read, hcall, rfl, hresult⟩ :=
        OAuth.Client.request_yields hrequest
      · cases he'
        rw [OAuth.Client.call_error hcall] at hends
        cases hends
      obtain ⟨met, rest, rfl, ⟨cause, hcause, rfl, rfl⟩ | ⟨x, hx, hend⟩⟩ := hsignOut.of_store_bind
      · exact .refused hcall hresult.symm hends (.inr ⟨cause, hcause, rfl⟩)
      · obtain ⟨rfl, rfl⟩ := Command.Yields.of_ofExcept (e := .error e) hend
        exact .refused hcall hresult.symm hends (.inl ⟨x, hx, rfl⟩)
    · dsimp only at hcatch
      rw [if_neg hends] at hcatch
      obtain ⟨rfl, rfl⟩ := Command.Yields.of_ofExcept (e := .error e) hcatch
      rw [List.append_nil]
      obtain ⟨e', hcall, rfl, he'⟩ | ⟨call, asked, read, hcall, rfl, hresult⟩ :=
        OAuth.Client.request_yields hrequest
      · cases he'
        exact .unasked hcall
      · exact .failed hcall hresult.symm (by simpa using hends)

theorem accept_of_renew {token : Secret} {tokens : OAuth.Tokens}
    (h : (s.renew device token).Yields trace (.ok tokens)) :
    ∃ t now, OAuth.Client.accept t now = .ok tokens := by
  cases renew_yields h with
  | granted hcall hgranted =>
    obtain ⟨t, haccept⟩ := OAuth.Client.ofDelivery_ok hgranted
    exact ⟨t, _, haccept⟩

def replaceWith (device : DeviceId) (current : Record) (token : Secret) (tokens : OAuth.Tokens) :
    Command RefreshAnswer := do
  let issued ← Command.now
  let record ← build (renewal current device token tokens issued)
  let outcome ← Command.store (.swap device (some token.text) record)
  Command.ofExcept (checkSwap device outcome)
  let now ← Command.now
  return ⟨record.accessToken, record.refreshToken.getD .empty, record.remaining now⟩

theorem exchangeFor_eq (s : Service) (device : DeviceId) (current : Record) (token : Secret) :
    s.exchangeFor device current token =
      s.renew device token >>= replaceWith device current token := rfl

theorem exchange_yields {presented : Secret} {result : Except Error RefreshAnswer}
    (h : (s.exchange device user presented).Yields trace result) :
    ∃ look rest, trace = ⟨.store (.fetch device), look⟩ :: rest ∧
      ((rest = [] ∧ ∃ e, result = .error e ∧
          ((∃ cause, (look.store.apply (.fetch device)).1 = .error cause ∧ e = .storage cause) ∨
            Denied device user presented (look.record? device) e)) ∨
        ∃ r, look.record? device = some r ∧ r.owner = user ∧ r.refreshToken = some presented ∧
          (s.exchangeFor device r presented).Yields rest result) := by
  rw [exchange_eq] at h
  obtain ⟨e, howned, rfl⟩ | ⟨before, r, rest, rfl, howned, hcheck⟩ := h.of_bind
  · obtain ⟨look, rfl, ⟨cause, hcause, he⟩ | hchecked⟩ := ownedDevice_yields howned
    · exact ⟨look, [], rfl, .inl ⟨rfl, e, rfl, .inl ⟨cause, hcause, Except.error.inj he⟩⟩⟩
    · exact ⟨look, [], rfl,
        .inl ⟨rfl, e, rfl, .inr (denied_of_checkOwner hchecked.symm presented)⟩⟩
  obtain ⟨look, rfl, ⟨cause, -, he⟩ | hchecked⟩ := ownedDevice_yields howned
  · cases he
  obtain ⟨hr, howner⟩ := checkOwner_ok hchecked.symm
  rw [checkRefreshToken_eq] at hcheck
  split at hcheck
  · rename_i hpresented
    exact ⟨look, rest, rfl, .inr ⟨r, hr, howner, hpresented, hcheck⟩⟩
  · rename_i hother
    obtain ⟨rfl, rfl⟩ := Command.Yields.of_ofExcept (e := .error _) hcheck
    exact ⟨look, [], rfl, .inl ⟨rfl, _, rfl, .inr (.mismatch hr hother)⟩⟩

theorem exchangeFor_yields {current : Record} {token : Secret}
    {result : Except Error RefreshAnswer}
    (h : (s.exchangeFor device current token).Yields trace result) :
    (∃ e, s.Renewing device token trace (.error e) ∧ result = .error e) ∨
      ∃ before tokens rest, trace = before ++ rest ∧ s.Renewing device token before (.ok tokens) ∧
        (replaceWith device current token tokens).Yields rest result := by
  rw [exchangeFor_eq] at h
  obtain ⟨e, hrenew, rfl⟩ | ⟨before, tokens, rest, rfl, hrenew, hreplace⟩ := h.of_bind
  · exact .inl ⟨e, renew_yields hrenew, rfl⟩
  · exact .inr ⟨before, tokens, rest, rfl, renew_yields hrenew, hreplace⟩

theorem refresh_yields {result : Except Error RefreshAnswer} (hdevice : q.device = device.text)
    (huser : q.user = user.text) (htoken : q.refreshToken.text ≠ "")
    (h : (s.refresh q).Yields trace result) :
    ∃ look inner, ⟨.store (.fetch device), look⟩ ∈ trace ∧ inner ⊆ trace ∧
      trace.writes = inner.writes ∧ trace.calls = inner.calls ∧
      ((inner = [] ∧ ∃ e, result = .error e ∧
          ((∃ cause, (look.store.apply (.fetch device)).1 = .error cause ∧ e = .storage cause) ∨
            Denied device user q.refreshToken (look.record? device) e)) ∨
        ∃ r, look.record? device = some r ∧ q.Authorizes r ∧
          (s.exchangeFor device r q.refreshToken).Yields inner result) := by
  rw [refresh_eq s hdevice huser htoken] at h
  obtain ⟨guarded, hexchange, hsub, hcalls, hwrites⟩ := h.inner_of_guarded
  obtain ⟨look, inner, rfl, hinner⟩ := exchange_yields hexchange
  refine ⟨look, inner, hsub List.mem_cons_self, fun m hm => hsub (List.mem_cons_of_mem _ hm),
    hwrites, hcalls, ?_⟩
  obtain hnone | ⟨r, hr, howner, hpresented, hrest⟩ := hinner
  · exact .inl hnone
  · exact .inr ⟨r, hr, ⟨howner ▸ huser, htoken, hpresented⟩, hrest⟩

/-- A renewal asks the provider, and what the provider answers is what the asking comes to, unless
a refusal cannot be written. -/
theorem Renewing.of_answers {token : Secret} {call : Http.Call}
    {answer outcome : Except Error OAuth.Tokens} (h : s.Renewing device token trace outcome)
    (hanswers : s.client.Answers (.refreshToken token.text) call trace answer) :
    trace.calls = [call] ∧
      (((∀ e, answer = .error e → endsSession e = false) ∧ outcome = answer ∧
          trace.writes = []) ∨
        ∃ e now met, answer = .error e ∧ endsSession e = true ∧
          trace.writes = [⟨.store (.signOut device now), met⟩] ∧
          ((∃ x, (met.store.apply (.signOut device now)).1 = .ok x ∧ outcome = .error e) ∨
            ∃ cause, outcome = .error (.storage cause))) := by
  have hanswer {asked read : World} (hsend : ⟨.send call, asked⟩ ∈ trace)
      (hread : ⟨.now, read⟩ ∈ trace) :
      s.client.ofDelivery .refreshToken (asked.peer call) read.clock = answer :=
    hanswers.outcome_eq asked hsend _ (Trace.mem_readings hread)
  cases h with
  | unasked hcall => cases hcall.symm.trans hanswers.callable
  | granted hcall hgranted =>
    cases hcall.symm.trans hanswers.callable
    have hsame := hgranted.symm.trans (hanswer (by simp) (by simp))
    exact ⟨rfl, .inl ⟨fun e he => (nomatch hsame.trans he), hsame, rfl⟩⟩
  | failed hcall hfailed hends =>
    cases hcall.symm.trans hanswers.callable
    have hsame := hfailed.symm.trans (hanswer (by simp) (by simp))
    refine ⟨rfl, .inl ⟨fun e' he => ?_, hsame, rfl⟩⟩
    cases hsame.trans he
    exact hends
  | @refused _ asked read clock met e e' hcall hrefused hends hwritten =>
    cases hcall.symm.trans hanswers.callable
    have hsame := hrefused.symm.trans (hanswer List.mem_cons_self (by simp))
    refine ⟨rfl, .inr ⟨e, clock.clock, met, hsame.symm, hends, rfl, ?_⟩⟩
    obtain ⟨x, hx, rfl⟩ | ⟨cause, -, rfl⟩ := hwritten
    · exact .inl ⟨x, hx, rfl⟩
    · exact .inr ⟨cause, rfl⟩

theorem exchangeFor_granted {current : Record} {token : Secret} {call : Http.Call}
    {tokens : OAuth.Tokens} {result : Except Error RefreshAnswer}
    (h : (s.exchangeFor device current token).Yields trace result)
    (hanswers : s.client.Answers (.refreshToken token.text) call trace (.ok tokens)) :
    ∃ before rest, trace = before ++ rest ∧ before.calls = [call] ∧ before.writes = [] ∧
      (replaceWith device current token tokens).Yields rest result := by
  obtain ⟨e, hrenewing, -⟩ | ⟨before, tokens', rest, rfl, hrenewing, hreplace⟩ :=
    exchangeFor_yields h
  · obtain ⟨-, ⟨-, hsame, -⟩ | ⟨e', -, -, hanswer, -⟩⟩ := hrenewing.of_answers hanswers
    · cases hsame
    · cases hanswer
  · obtain ⟨hcalls, ⟨-, hsame, hnone⟩ | ⟨e', -, -, hanswer, -⟩⟩ :=
      hrenewing.of_answers (hanswers.mono (List.subset_append_left before rest))
    · cases hsame
      exact ⟨before, rest, rfl, hcalls, hnone, hreplace⟩
    · cases hanswer

end Service

end DeviceAuth
