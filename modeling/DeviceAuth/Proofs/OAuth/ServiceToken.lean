import DeviceAuth.OAuth.ServiceToken
import DeviceAuth.Proofs.Lifetime

/-! The schedule of a service's own token. What was fetched is read off the requests and off the
clock; the last fetch alone says what callers are told and when the provider is asked again. -/
namespace DeviceAuth

theorem Span.twoThirds_nanos {span : Span} (h : 0 ≤ span.nanos) :
    span.twoThirds.nanos = 2 * span.nanos / 3 := by
  have hnonneg : 0 ≤ span.nanos * 2 := by omega
  rw [twoThirds, Int.tdiv_eq_ediv_of_nonneg hnonneg, Int.mul_comm]

namespace OAuth

/-- What came of asking the provider for tokens, and the instant at which it was noted. -/
structure Fetch where
  outcome : Except Error Tokens
  noted : Instant
  deriving DecidableEq

namespace Fetch

def answer (f : Fetch) : Except Error Secret :=
  match f.outcome with
  | .ok tokens => .ok tokens.accessToken
  | .error e => .error (.transient (.unavailable e.message))

end Fetch

/-- The fetch in a trace, if the provider was asked: the answer is judged at one reading of the
clock and noted at the next. -/
def fetch? (c : Client) (trace : Trace) : Option Fetch :=
  match trace.deliveries, trace.readings.reverse with
  | [delivery], noted :: read :: _ =>
    some ⟨c.ofDelivery .clientCredentials delivery read, noted⟩
  | _, _ => none

def lastFetch? (c : Client) (history : List Trace) : Option Fetch := history.findSome? (fetch? c)

def Ordered (history : List Trace) : Prop :=
  (history.reverse.flatMap Trace.readings).Pairwise fun a b => a.nanos ≤ b.nanos

instance (history : List Trace) : Decidable (Ordered history) :=
  inferInstanceAs (Decidable (List.Pairwise _ _))

theorem Ordered.le {history : List Trace} {trace : Trace} (h : Ordered (trace :: history))
    {earlier later : Instant} (hearlier : ∃ x ∈ history, earlier ∈ x.readings)
    (hlater : later ∈ trace.readings) : earlier.nanos ≤ later.nanos := by
  unfold Ordered at h
  rw [List.reverse_cons, List.flatMap_append, List.pairwise_append] at h
  obtain ⟨x, hx, hread⟩ := hearlier
  exact h.2.2 _ (List.mem_flatMap.mpr ⟨x, List.mem_reverse.mpr hx, hread⟩) _ (by simpa using hlater)

theorem fetch?_of_silent {c : Client} {trace : Trace} (h : trace.deliveries = []) :
    fetch? c trace = none := by
  unfold fetch?
  rw [h]

theorem lastFetch?_of_some {c : Client} {history : List Trace} {trace : Trace} {f : Fetch}
    (h : fetch? c trace = some f) : lastFetch? c (trace :: history) = some f := by
  rw [lastFetch?, List.findSome?_cons, h]

theorem lastFetch?_of_none {c : Client} {history : List Trace} {trace : Trace}
    (h : fetch? c trace = none) : lastFetch? c (trace :: history) = lastFetch? c history := by
  rw [lastFetch?, List.findSome?_cons, h, lastFetch?]

theorem fetch?_of_request {c : Client} {asking : Trace} (before : Trace) (noted : World)
    {outcome : Except Error Tokens} (hcall : ∃ call, c.call .clientCredentials = .ok call)
    (hbefore : before.deliveries = [])
    (hasking : (c.request .clientCredentials).Yields asking outcome) :
    Trace.deliveries (before ++ asking ++ [⟨.now, noted⟩]) ≠ [] ∧
      fetch? c (before ++ asking ++ [⟨.now, noted⟩]) = some ⟨outcome, noted.clock⟩ := by
  obtain ⟨call, hcall⟩ := hcall
  obtain ⟨e, he, -⟩ | ⟨call', asked, read, -, rfl, rfl⟩ := Client.request_yields hasking
  · cases he.symm.trans hcall
  · have hdeliveries : Trace.deliveries
        (before ++ [⟨.send call', asked⟩, ⟨.now, read⟩] ++ [⟨.now, noted⟩]) =
          [asked.peer call'] := by
      rw [Trace.deliveries_append, Trace.deliveries_append, hbefore]
      rfl
    have hreadings : (Trace.readings
        (before ++ [⟨.send call', asked⟩, ⟨.now, read⟩] ++ [⟨.now, noted⟩])).reverse =
          noted.clock :: read.clock :: before.readings.reverse := by
      simp only [Trace.readings_append, List.reverse_append]
      rfl
    refine ⟨by rw [hdeliveries]; exact List.cons_ne_nil _ _, ?_⟩
    unfold fetch?
    rw [hdeliveries, hreadings]
    rfl

namespace ServiceToken

variable {c : Client} {history : List Trace} {trace asking : Trace} {t t' : ServiceToken}
  {f : Fetch} {tokens : Tokens} {outcome : Except Error Tokens} {lifetime : Span} {now : Instant}

theorem start_yields {result : Except Error ServiceToken} (h : (start c).Yields trace result) :
    (∃ e, (c.request .clientCredentials).Yields trace (.error e) ∧ result = .error e) ∨
      ∃ asking tokens noted, trace = asking ++ [⟨.now, noted⟩] ∧
        (c.request .clientCredentials).Yields asking (.ok tokens) ∧
        result = (ofTokens? tokens noted.clock).elim (.error .beyondCalendar) .ok := by
  unfold start at h
  obtain ⟨e, hasking, rfl⟩ | ⟨asking, tokens, rest, rfl, hasking, hrest⟩ := h.of_bind
  · exact .inl ⟨e, hasking, rfl⟩
  obtain ⟨noted, rest, rfl, hend⟩ := hrest.of_now_bind
  refine .inr ⟨asking, tokens, noted, ?_⟩
  cases hnoted : ofTokens? tokens noted.clock with
  | none =>
    rw [hnoted] at hend
    obtain ⟨rfl, rfl⟩ := Command.Yields.of_ofExcept (e := .error _) hend
    exact ⟨rfl, hasking, rfl⟩
  | some t =>
    rw [hnoted] at hend
    obtain ⟨rfl, rfl⟩ := Command.Yields.of_ofExcept (e := .ok _) hend
    exact ⟨rfl, hasking, rfl⟩

theorem tick_yields (hruns : t.stopped = false) (h : (t.tick c).Yields trace t') :
    ∃ looked rest, trace = ⟨.now, looked⟩ :: rest ∧
      (t.isDue looked.clock = false ∧ rest = [] ∧ t' = t ∨
        t.isDue looked.clock = true ∧ ∃ asking outcome noted, rest = asking ++ [⟨.now, noted⟩] ∧
          (c.request .clientCredentials).Yields asking outcome ∧
          t' = (ofResult? outcome noted.clock).getD { t with stopped := true }) := by
  unfold tick at h
  rw [if_neg (by simp [hruns])] at h
  obtain ⟨looked, rest, rfl, hrest⟩ := Program.Yields.of_step h
  refine ⟨looked, rest, rfl, ?_⟩
  change (if t.isDue looked.clock = true then
    (ExceptT.run (c.request .clientCredentials)).bind fun outcome =>
      Program.step .now fun now =>
        .done ((ofResult? outcome now).getD { t with stopped := true })
    else .done t : Program ServiceToken).Yields rest t' at hrest
  split at hrest
  · rename_i hdue
    obtain ⟨asking, outcome, after, rfl, hasking, hnoted⟩ := hrest.of_bind
    obtain ⟨noted, after, rfl, hend⟩ := hnoted.of_step
    cases hend
    exact .inr ⟨hdue, asking, outcome, noted, rfl, hasking, rfl⟩
  · rename_i hdue
    cases hrest
    exact .inl ⟨by simpa using hdue, rfl, rfl⟩

theorem of_ofTokens? (h : ofTokens? tokens now = some t) :
    t.current = .ok tokens.accessToken ∧ t.token.isSome ∧ t.stopped = false ∧
      t.refreshAt = tokens.lifetime.map fun lifetime =>
        ⟨now.nanos + lifetime.twoThirds.nanos, now.offset⟩ := by
  unfold ofTokens? at h
  cases hlifetime : tokens.lifetime with
  | none =>
    rw [hlifetime] at h
    cases h
    exact ⟨rfl, rfl, rfl, rfl⟩
  | some lifetime =>
    rw [hlifetime] at h
    obtain ⟨at_, hat, rfl⟩ := Option.map_eq_some_iff.mp h
    exact ⟨rfl, rfl, rfl, congrArg some (Instant.add?_eq_some_iff.mp hat).2⟩

theorem running_of_ofResult? (h : ofResult? outcome now = some t) : t.stopped = false := by
  cases outcome with
  | ok tokens => exact (of_ofTokens? h).2.2.1
  | error e =>
    cases h
    rfl

theorem exists_ofTokens? (hnow : now.inRange = true)
    (hfits : ∀ lifetime, tokens.lifetime = some lifetime →
      0 ≤ lifetime.nanos ∧ ∃ expiry, now.add? lifetime = some expiry) :
    ∃ t, ofTokens? tokens now = some t := by
  unfold ofTokens?
  cases hlifetime : tokens.lifetime with
  | none => exact ⟨_, rfl⟩
  | some lifetime =>
    obtain ⟨hnonneg, expiry, hadd⟩ := hfits lifetime hlifetime
    have hthirds := Span.twoThirds_nanos hnonneg
    obtain ⟨at_, hat⟩ :=
      Instant.exists_add?_of_le lifetime.twoThirds hnow (by omega) (by omega) hadd
    exact ⟨_, by simp [hat]; rfl⟩

/-- The token is what the last fetch has made it, and its client can ask again. -/
structure Reflects (c : Client) (history : List Trace) (t : ServiceToken) (f : Fetch) : Prop where
  last : lastFetch? c history = some f
  state : ofResult? f.outcome f.noted = some t
  lifetime_pos : ∀ tokens, f.outcome = .ok tokens → ∀ lifetime, tokens.lifetime = some lifetime →
    Span.nanosPerSecond ≤ lifetime.nanos
  callable : ∃ call, c.call .clientCredentials = .ok call

theorem lifetime_of_request (h : (c.request .clientCredentials).Yields asking (.ok tokens))
    (hlifetime : tokens.lifetime = some lifetime) :
    Span.nanosPerSecond ≤ lifetime.nanos ∧
      ∃ read ∈ asking.readings, ∃ expiry, read.add? lifetime = some expiry := by
  obtain ⟨answer, read, hread, haccept⟩ := Client.accept_of_request h
  obtain ⟨n, hpos, rfl, hexpiry⟩ := (Client.accept_ok haccept).1 lifetime hlifetime
  refine ⟨?_, read, hread, hexpiry⟩
  simp only [Span.seconds, Span.nanosPerSecond]
  omega

/-- One reading of the clock judges a lifetime and another counts from it; if they agree, two thirds
of it fit. -/
theorem exists_ofResult? (hasking : (c.request .clientCredentials).Yields asking outcome)
    (hstill : asking.IsStill now) (hnow : now.inRange = true) :
    ∃ t, ofResult? outcome now = some t := by
  cases outcome with
  | error e => exact ⟨_, rfl⟩
  | ok tokens =>
    refine exists_ofTokens? hnow fun lifetime hlifetime => ?_
    obtain ⟨hpos, read, hread, hexpiry⟩ := lifetime_of_request hasking hlifetime
    obtain rfl := hstill read hread
    simp only [Span.nanosPerSecond] at hpos
    exact ⟨by omega, hexpiry⟩

/-- At a tick that asks nobody nothing changes. Any other tick is a fetch, and does not stop the
task if it takes no time. -/
theorem Reflects.tick (h : Reflects c history t f) (htick : (t.tick c).Yields trace t') :
    ∃ now rest, trace.readings = now :: rest ∧
      (t.isDue now = false ∧ rest = [] ∧ trace.deliveries = [] ∧ fetch? c trace = none ∧ t' = t ∧
          Reflects c (trace :: history) t f ∨
        t.isDue now = true ∧ trace.deliveries ≠ [] ∧
          (trace.IsStill now → now.IsRepresentable → t'.stopped = false) ∧
          ∃ f', fetch? c trace = some f' ∧
            (t'.stopped = false → Reflects c (trace :: history) t' f')) := by
  obtain ⟨looked, rest, rfl,
      ⟨hdue, rfl, rfl⟩ | ⟨hdue, asking, outcome, noted, rfl, hasking, rfl⟩⟩ :=
    tick_yields (running_of_ofResult? h.state) htick
  · have hsilent : Trace.deliveries [⟨.now, looked⟩] = [] := rfl
    have hnone : fetch? c [⟨.now, looked⟩] = none := fetch?_of_silent hsilent
    exact ⟨looked.clock, [], rfl, .inl ⟨hdue, rfl, hsilent, hnone, rfl,
      (lastFetch?_of_none hnone).trans h.last, h.state, h.lifetime_pos, h.callable⟩⟩
  · obtain ⟨hasked, hfetch⟩ :=
      fetch?_of_request [⟨.now, looked⟩] noted h.callable rfl hasking
    refine ⟨looked.clock, _, rfl, .inr ⟨hdue, hasked, fun hstill hnow => ?_, _, hfetch,
      fun hruns => ?_⟩⟩
    · have hnoted : noted.clock = looked.clock := hstill.clock_eq (by simp)
      obtain ⟨t', ht'⟩ :=
        exists_ofResult? hasking (hstill.mono fun m hm => by simp [hm]) hnow.1
      rw [hnoted, ht']
      exact running_of_ofResult? ht'
    · cases hstate : ofResult? outcome noted.clock with
      | none =>
        rw [hstate] at hruns
        cases hruns
      | some t' =>
        refine ⟨lastFetch?_of_some hfetch, hstate, fun tokens hok lifetime hlifetime => ?_,
          h.callable⟩
        obtain rfl : outcome = .ok tokens := hok
        exact (lifetime_of_request hasking hlifetime).1

def sampleWorld (nanos : Int) (peer : Http.Peer) : World :=
  { Crowd.sampleWorld with clock := ⟨nanos, 0⟩, peer := peer }

def sampleToken : ServiceToken := ⟨some Service.sampleToken, some ⟨1333333333, 0⟩, none, false⟩

variable {gap : Span} {at_ : Instant}

end ServiceToken

end OAuth

end DeviceAuth
