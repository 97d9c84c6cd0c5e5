import DeviceAuth.Proofs.Http.RetryAfter
import DeviceAuth.Proofs.OAuth.Refusal
import DeviceAuth.Proofs.Service.Trace

/-! What is left of an answer of the token endpoint in the error that it leads to: the kind that its
status stands for, the status itself, and the wait that it asks for. -/
namespace DeviceAuth

namespace TransientError

def status? : TransientError → Option Nat
  | .tokenEndpoint _ status _ => status
  | .tokenResponse _ status => status
  | .unavailable _ => none

def retryAfter? : TransientError → Option Span
  | .tokenEndpoint _ _ retryAfter => retryAfter
  | .tokenResponse _ _ | .unavailable _ => none

end TransientError

def Http.Delivery.head? : Http.Delivery → Option Http.Response
  | .cutOff head | .stalled head => some head
  | .answered r => some r
  | .unreachable | .timedOut | .dropped => none

namespace OAuth

def statusKind : Nat → Error.Kind
  | 400 | 404 | 410 => .invalidGrant
  | 401 => .invalidClient
  | 403 => .insufficientScope
  | _ => .transient

theorem errorKind_ofStatus (status : Nat) :
    (Strategy.ofStatus (some status)).errorKind = statusKind status := by
  unfold Strategy.ofStatus statusKind
  split <;> simp_all [RefusalKind.errorKind]

/-- The body says nothing that is known: neither the code nor the description of an OAuth error, nor
the text of anything else. -/
structure IsSilent (body : List UInt8) : Prop where
  code : ∀ e, Json.decodeFirst ErrorResponse.decoder body = .ok e → Strategy.ofCode e.code = none
  description : ∀ e, Json.decodeFirst ErrorResponse.decoder body = .ok e →
    ∀ text, e.description = some text →
      Strategy.ofCode text = none ∧ Strategy.ofText text = none
  text : (∀ e, Json.decodeFirst ErrorResponse.decoder body ≠ .ok e) →
    Strategy.ofText (preview (Text.ofUtf8Lossy body)) = none

namespace Client

variable {c : Client} {grant : Grant} {call : Http.Call} {trace : Trace} {delivery : Http.Delivery}
  {now : Instant} {r : Http.Response}

section

variable (hstrategy : c.strategy = Strategy.default) (hsilent : IsSilent r.body)
include hstrategy hsilent

theorem kind_refused_of_silent {e : ErrorResponse}
    (hread : Json.decodeFirst ErrorResponse.decoder r.body = .ok e) (grant : GrantType)
    (now : Instant) : (c.refused grant e r now).kind = statusKind r.status := by
  rw [refused, RefusalKind.kind_toError, hstrategy, ← errorKind_ofStatus]
  congr 1
  cases hdescription : e.description with
  | none => simp [Strategy.default, hsilent.code e hread]
  | some text =>
    obtain ⟨hcode, htext⟩ := hsilent.description e hread text hdescription
    simp [Strategy.default, hsilent.code e hread, hcode, htext]

theorem kind_unreadable_of_silent {cause : Json.Error}
    (hread : Json.decodeFirst ErrorResponse.decoder r.body = .error cause) (grant : GrantType)
    (now : Instant) : (c.unreadable grant cause r now).kind = statusKind r.status := by
  have htext := hsilent.text fun e he => by rw [he] at hread; cases hread
  rw [kind_unreadable hstrategy, htext, Option.getD_none, errorKind_ofStatus]

end

/-- The status of a failure decides if its body says nothing, unless there is no body: that is a
passing failure with any status. -/
theorem kind_eq_statusKind_iff (hstrategy : c.strategy = Strategy.default)
    (hsilent : IsSilent r.body) (hcall : c.call grant = .ok call) {result : Except Error Tokens}
    (h : (c.request grant).Yields trace result) (hanswer : trace.Returns call (.answered r))
    (hstatus : r.status ≠ 200) :
    trace.calls = [call] ∧ ∃ e, result = .error e ∧
      (e.kind = statusKind r.status ↔ r.body ≠ [] ∨ statusKind r.status = .transient) := by
  obtain ⟨hcalls, now, -, hresult⟩ := request_of_returns h hcall hanswer
  refine ⟨hcalls, ?_⟩
  rw [hresult, ofDelivery, ofResponse, if_pos hstatus]
  -- without a body the strategy is not asked
  cases hbody : r.body with
  | nil =>
    refine ⟨_, if_pos rfl, ?_⟩
    simp [unexpected, Error.kind, eq_comm]
  | cons b rest =>
    rw [if_neg (by simp), ← hbody]
    cases hread : Json.decodeFirst ErrorResponse.decoder r.body with
    | ok e =>
      refine ⟨_, rfl, iff_of_true ?_ (.inl (by simp [hbody]))⟩
      exact kind_refused_of_silent hstrategy hsilent hread grant.type now
    | error cause =>
      refine ⟨_, rfl, iff_of_true ?_ (.inl (by simp [hbody]))⟩
      exact kind_unreadable_of_silent hstrategy hsilent hread grant.type now

def sampleWorld (r : Http.Response) : World :=
  ⟨.ofBackend (.memory .empty) .empty, .empty, ⟨0, 0⟩, fun _ => .answered r, ""⟩

/-- An OAuth error with a code of its own. -/
theorem kind_eq_statusKind_odd :
    ∃ e, ((sampleWorld (sampleResponse 403 "odd")).runCommand
        (sample.request .clientCredentials)).1 = .error e ∧ e.kind = .insufficientScope := by
  let w := sampleWorld (sampleResponse 403 "odd")
  have hread : Json.decodeFirst ErrorResponse.decoder (sampleResponse 403 "odd").body =
      .ok ⟨"odd", none, none⟩ := rfl
  have hsilent : IsSilent (sampleResponse 403 "odd").body := by
    refine ⟨fun e he => ?_, fun e he text htext => ?_, fun hnone => absurd hread (hnone _)⟩
    · cases hread.symm.trans he
      decide
    · cases hread.symm.trans he
      cases htext
  obtain ⟨-, e, he, hkind⟩ := kind_eq_statusKind_iff (c := sample) rfl hsilent rfl
    (Command.yields_runCommand w _) (w.returns_trace _ _) (by decide)
  exact ⟨e, he, hkind.mpr (.inl (by decide))⟩

/-- Without a body the wrong secret is a passing failure. -/
theorem kind_ne_statusKind_empty :
    IsSilent [] ∧ statusKind 401 = .invalidClient ∧
      ∃ e, ((sampleWorld ⟨401, ⟨[]⟩, []⟩).runCommand (sample.request .clientCredentials)).1 =
        .error e ∧ e.kind = .transient := by
  have hread : ∀ e, Json.decodeFirst ErrorResponse.decoder [] ≠ .ok e := nofun
  refine ⟨⟨fun e he => absurd he (hread e), fun e he => absurd he (hread e), fun _ => by decide⟩,
    rfl, _, rfl, rfl⟩

/-- The answer has a body that is to be read and cannot be. -/
inductive IsGarbled : Http.Delivery → Prop
  | failure {r : Http.Response} {cause : Json.Error} (hstatus : r.status ≠ 200)
      (hbody : r.body ≠ [])
      (hread : Json.decodeFirst ErrorResponse.decoder r.body = .error cause) :
      IsGarbled (.answered r)
  | success {r : Http.Response} {cause : Json.Error} (hstatus : r.status = 200)
      (hbody : r.body ≠ [])
      (hannounced : ∀ value, r.headers.get? "content-type" = some value →
        announcesJson value = true)
      (hread : Json.decodeFirst TokenResponse.decoder r.body = .error cause) :
      IsGarbled (.answered r)

/-- The failure knows the status of the answer, and the wait that it asks for unless the answer is
garbled. -/
structure Carries (delivery : Http.Delivery) (head : Http.Response) (now : Instant)
    (cause : TransientError) : Prop where
  status : cause.status? = some head.status
  retryAfter : ¬IsGarbled delivery → cause.retryAfter? = Http.retryAfter? head.headers now
  garbled : IsGarbled delivery → cause.retryAfter? = none

theorem refused_transient {grant : GrantType} {e : ErrorResponse} {cause : TransientError}
    (h : c.refused grant e r now = .transient cause) :
    cause.status? = some r.status ∧ cause.retryAfter? = Http.retryAfter? r.headers now := by
  unfold refused at h
  generalize c.strategy _ = kind at h
  cases kind <;> cases h
  exact ⟨rfl, rfl⟩

theorem unreadable_transient {grant : GrantType} {reason : Json.Error} {cause : TransientError}
    (h : c.unreadable grant reason r now = .transient cause) :
    cause.status? = some r.status ∧ cause.retryAfter? = none := by
  unfold unreadable at h
  dsimp only at h
  generalize c.strategy _ = kind at h
  cases kind <;> cases h
  exact ⟨rfl, rfl⟩

theorem accept_ne_transient (t : TokenResponse) (cause : TransientError) :
    accept t now ≠ .error (.transient cause) := by
  intro h
  cases hlifetime : lifetime? t.lifetime now with
  | ok lifetime => simp [accept, hlifetime, bind, Except.bind, pure, Except.pure] at h
  | error e =>
    have he : e = .transient cause := by
      simpa [accept, hlifetime, bind, Except.bind] using h
    subst he
    unfold lifetime? at hlifetime
    repeat' split at hlifetime
    all_goals cases hlifetime

theorem not_isGarbled_of_isEmpty (h : r.body.isEmpty = true) : ¬IsGarbled (.answered r) := by
  have hnil : r.body = [] := List.isEmpty_iff.mp h
  rintro (⟨-, hbody, -⟩ | ⟨-, hbody, -, -⟩) <;> exact hbody hnil

theorem Carries.of_not_garbled {head : Http.Response} {cause : TransientError}
    (hgarbled : ¬IsGarbled delivery)
    (h : cause.status? = some head.status ∧
      cause.retryAfter? = Http.retryAfter? head.headers now) : Carries delivery head now cause :=
  ⟨h.1, fun _ => h.2, fun hg => absurd hg hgarbled⟩

theorem Carries.of_garbled {head : Http.Response} {cause : TransientError}
    (hgarbled : IsGarbled delivery)
    (h : cause.status? = some head.status ∧ cause.retryAfter? = none) :
    Carries delivery head now cause :=
  ⟨h.1, fun hg => absurd hgarbled hg, fun _ => h.2⟩

theorem carries_of_ofBody {grant : GrantType} {cause : TransientError} (hstatus : r.status = 200)
    (hannounced : ∀ value, r.headers.get? "content-type" = some value →
      announcesJson value = true)
    (h : ofResponse.ofBody c grant r now = .error (.transient cause)) :
    Carries (.answered r) r now cause := by
  unfold ofResponse.ofBody at h
  split at h
  · rename_i hempty
    cases h
    exact .of_not_garbled (not_isGarbled_of_isEmpty hempty) ⟨rfl, rfl⟩
  · rename_i hsome
    have hbody : r.body ≠ [] := fun hnil => hsome (by rw [hnil, List.isEmpty_nil])
    cases hread : Json.decodeFirst TokenResponse.decoder r.body with
    | ok t =>
      rw [hread] at h
      exact absurd h (accept_ne_transient t cause)
    | error reason =>
      rw [hread] at h
      exact .of_garbled (.success hstatus hbody hannounced hread)
        (unreadable_transient (Except.error.inj h))

/-- A failure that may pass, told from an answer. -/
theorem carries_of_ofResponse {grant : GrantType} {cause : TransientError}
    (h : c.ofResponse grant r now = .error (.transient cause)) :
    Carries (.answered r) r now cause := by
  unfold ofResponse at h
  by_cases hstatus : r.status = 200
  · rw [if_neg (not_not_intro hstatus)] at h
    split at h
    · rename_i value hvalue
      split at h
      · rename_i hjson
        refine carries_of_ofBody hstatus (fun value' hvalue' => ?_) h
        cases hvalue.symm.trans hvalue'
        exact hjson
      · rename_i hother
        cases h
        refine .of_not_garbled ?_ ⟨rfl, rfl⟩
        rintro (⟨hfailed, -, -⟩ | ⟨-, -, hannounced, -⟩)
        · exact hfailed hstatus
        · exact hother (hannounced value hvalue)
    · rename_i hnone
      exact carries_of_ofBody hstatus (fun value hvalue => by cases hnone.symm.trans hvalue) h
  · rw [if_pos hstatus] at h
    split at h
    · rename_i hempty
      cases h
      exact .of_not_garbled (not_isGarbled_of_isEmpty hempty) ⟨rfl, rfl⟩
    · rename_i hsome
      have hbody : r.body ≠ [] := fun hnil => hsome (by rw [hnil, List.isEmpty_nil])
      cases hread : Json.decodeFirst ErrorResponse.decoder r.body with
      | ok e =>
        rw [hread] at h
        refine .of_not_garbled ?_ (refused_transient (Except.error.inj h))
        rintro (⟨-, -, hunread⟩ | ⟨hsuccess, -, -, -⟩)
        · cases hread.symm.trans hunread
        · exact hstatus hsuccess
      | error reason =>
        rw [hread] at h
        exact .of_garbled (.failure hstatus hbody hread)
          (unreadable_transient (Except.error.inj h))

theorem carries_of_ofDelivery {grant : GrantType} {cause : TransientError} {head : Http.Response}
    (h : c.ofDelivery grant delivery now = .error (.transient cause))
    (hhead : delivery.head? = some head) : Carries delivery head now cause := by
  cases delivery with
  | unreachable | timedOut | dropped => cases hhead
  | cutOff _ => cases h
  | stalled _ =>
    cases hhead
    cases h
    exact ⟨rfl, fun _ => rfl, nofun⟩
  | answered r =>
    cases hhead
    exact carries_of_ofResponse h

/-- A failure that may pass knows the status of the answer, and how long the answer asks to wait
exactly if the answer is not garbled. -/
theorem retryAfter?_eq_iff_of_transient {cause : TransientError} {head : Http.Response}
    (hcall : c.call grant = .ok call)
    (h : (c.request grant).Yields trace (.error (.transient cause)))
    (hreturns : trace.Returns call delivery) (hhead : delivery.head? = some head) :
    trace.calls = [call] ∧ cause.status? = some head.status ∧ ∃ now, trace.readings = [now] ∧
      ∀ wait, head.headers.Hints now wait →
        (cause.retryAfter? = some wait ↔ ¬IsGarbled delivery) := by
  obtain ⟨hcalls, now, hreadings, hresult⟩ := request_of_returns h hcall hreturns
  have hcarries := carries_of_ofDelivery hresult.symm hhead
  refine ⟨hcalls, hcarries.status, now, hreadings,
    fun wait hints => ⟨fun hwait hgarbled => ?_, fun hclear => ?_⟩⟩
  · rw [hcarries.garbled hgarbled] at hwait
    cases hwait
  · rw [hcarries.retryAfter hclear]
    exact Http.retryAfter?_eq_some_iff.mpr hints

def samplePostponed (wait : String) (body : List UInt8) : Http.Response :=
  ⟨503, ⟨[("retry-after", Text.utf8 wait)]⟩, body⟩

/-- An OAuth error and the date at which it will be over. -/
theorem retryAfter?_eq_date :
    let r := samplePostponed "Thu, 01 Jan 1970 00:00:30 GMT" (sampleResponse 503 "odd").body
    ∃ cause : TransientError,
      ((sampleWorld r).runCommand (sample.request (.refreshToken "r"))).1 =
        .error (.transient cause) ∧
      cause.status? = some 503 ∧ cause.retryAfter? = some (.seconds 30) := by
  intro r
  let w := sampleWorld r
  have hints : r.headers.Hints ⟨0, 0⟩ (Span.seconds 30) :=
    Http.retryAfter?_eq_some_iff.mp (by decide +kernel)
  have hread : Json.decodeFirst ErrorResponse.decoder r.body = .ok ⟨"odd", none, none⟩ := rfl
  have hclear : ¬IsGarbled (.answered r) := by
    rintro (⟨-, -, hunread⟩ | ⟨hsuccess, -, -, -⟩)
    · cases hread.symm.trans hunread
    · cases hsuccess
  have hyields := Command.yields_runCommand w (sample.request (.refreshToken "r"))
  obtain ⟨cause, hcause⟩ : ∃ cause, (w.runCommand (sample.request (.refreshToken "r"))).1 =
      .error (.transient cause) := ⟨_, rfl⟩
  obtain ⟨-, hstatus, now, hreadings, hwait⟩ := retryAfter?_eq_iff_of_transient (c := sample) rfl
    (hcause ▸ hyields) (w.returns_trace _ _) rfl
  cases hreadings
  exact ⟨cause, hcause, hstatus, (hwait _ hints).mpr hclear⟩

/-- A text in place of JSON, and the wait is lost. -/
theorem retryAfter?_eq_none_of_text :
    let r := samplePostponed "30" (Text.utf8 "upstream maintenance")
    r.headers.Hints ⟨0, 0⟩ (Span.seconds 30) ∧
      ∃ cause : TransientError,
        ((sampleWorld r).runCommand (sample.request (.refreshToken "r"))).1 =
          .error (.transient cause) ∧
        cause.retryAfter? = none :=
  ⟨Http.retryAfter?_eq_some_iff.mp (by decide +kernel), _, rfl, rfl⟩

end Client

end OAuth

end DeviceAuth
