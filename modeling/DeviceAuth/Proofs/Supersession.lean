import DeviceAuth.Proofs.Contention
import DeviceAuth.Proofs.Integrity

/-! Tokens that have been replaced. The tokens of a device's record are those that were issued last,
so any other is turned away until it is issued again. -/
namespace DeviceAuth

variable {α β : Type}

namespace World

variable {w : World}

theorem runCommand_bind_eq_ok {c : Command α} {f : α → Command β} {b : β}
    (h : (w.runCommand (c >>= f)).1 = .ok b) :
    ∃ a, (w.runCommand c).1 = .ok a ∧
      w.runCommand (c >>= f) = (w.runCommand c).2.runCommand (f a) := by
  rw [runCommand_bind] at h ⊢
  rcases hc : w.runCommand c with ⟨e | a, w'⟩
  · rw [hc] at h
    cases h
  · exact ⟨a, rfl, rfl⟩

theorem record?_runCommand_store {op : Store.Operation} {x : op.Result}
    (h : (w.runCommand (.store op)).1 = .ok x) (d : DeviceId) :
    (w.runCommand (.store op)).2.record? d = (w.table.next op).get? d :=
  congrArg (Store.Table.get? · d) (Store.answer_apply (Except.mapError_ok h)).2

theorem runCommand_guarded_eq (w : World) (device : DeviceId) (body : Command α) :
    ∃ taken released, w.runCommand (.guarded device body) =
      (({ w with guards := taken }.runCommand body).1,
        { ({ w with guards := taken }.runCommand body).2 with guards := released }) :=
  ⟨_, _, runCommand_guarded w device body⟩

theorem trace_guarded (w : World) (device : DeviceId) (body : Command α) :
    ∃ guards w₁ w₂ guard, w.trace (ExceptT.run (Command.guarded device body)) =
      ⟨.lookupGuard device, w⟩ :: ⟨.acquire guard, w₁⟩ ::
        { w with guards := guards }.trace (ExceptT.run body) ++ [⟨.release guard, w₂⟩] := by
  let looked : World := { w with guards := (w.guards.lookup device).2 }
  let guards := looked.guards.acquire (w.guards.lookup device).1
  let taken : World := { w with guards := guards }
  refine ⟨guards, looked, (taken.run (ExceptT.run body)).2, (w.guards.lookup device).1, ?_⟩
  exact congrArg (fun rest => ⟨.lookupGuard device, w⟩ ::
    ⟨.acquire (w.guards.lookup device).1, looked⟩ :: rest) (trace_bind taken (ExceptT.run body) _)

/-- The device has no record with a certain property. -/
def Avoids (w : World) (device : DeviceId) (P : Record → Prop) : Prop :=
  ∀ r, w.record? device = some r → ¬P r

variable {device : DeviceId} {P : Record → Prop}

theorem avoids_answer (hP : ∀ r now, P (r.signOut now) → P r) {a : Action} (ha : a.IsFree)
    (hw : w.Avoids device P) : (answer a w).2.Avoids device P := by
  intro r hr
  rcases record?_answer_cases a w device with hsame | ⟨put, hput, -⟩ | ⟨old, now, hold, hafter⟩ |
    ⟨-, -, hafter⟩
  · exact hw r (hsame.symm.trans hr)
  -- a free action puts no record in place
  · cases a with
    | store op =>
      cases op with
      | save _ | swap _ _ _ => cases ha
      | _ => cases hput
    | _ => cases hput
  · cases hafter.symm.trans hr
    exact fun hout => hw old hold (hP old now hout)
  · cases hafter.symm.trans hr

theorem avoids_run (hP : ∀ r now, P (r.signOut now) → P r) {p : Program α}
    (hp : p.All Action.IsFree) (hw : w.Avoids device P) : (w.run p).2.Avoids device P :=
  run_of_all (I := fun w' => w'.Avoids device P) (fun _ _ ha hw' => avoids_answer hP ha hw') hp hw

end World

namespace Service

/-- The task gives a device tokens. -/
def IssuesFor (device : DeviceId) : (task : Task) → task.Request → Prop
  | .signUp, q => q.device = device.text
  | .refresh, q => q.device = device.text
  | .signIn, _ | .signOut, _ | .signOff, _ | .listDevices, _ | .deleteDevices, _ => False

/-- The access token and the refresh token that an answer hands out. -/
def issued? : (task : Task) → task.Answer → Option (Secret × Secret)
  | .signUp, a => some (a.accessToken, a.refreshToken)
  | .refresh, a => some (a.accessToken, a.refreshToken)
  | .signIn, _ | .signOut, _ | .signOff, _ | .listDevices, _ | .deleteDevices, _ => none

end Service

/-- A call that is carried out with nothing else going on, and the world that it meets. -/
structure Turn where
  call : Call
  before : World

namespace Turn

variable (s : Service) (device : DeviceId) (t : Turn)

def run : Except Error t.call.task.Answer × World :=
  t.before.runCommand (s.perform t.call.bearer t.call.task t.call.request)

/-- The call gives the device tokens, which are in its record then. -/
def Stores (P : Record → Prop) : Prop :=
  Service.IssuesFor device t.call.task t.call.request ∧
    ∃ r, (t.run s).2.record? device = some r ∧ P r

/-- The call succeeds in giving the device tokens. -/
def Issues (access refresh : Secret) : Prop :=
  Service.IssuesFor device t.call.task t.call.request ∧
    ∃ answer, (t.run s).1 = .ok answer ∧
      Service.issued? t.call.task answer = some (access, refresh)

end Turn

/-- Calls one after the other, the last of them first. Everything but the records may also change
by itself. -/
inductive Course (s : Service) (start : World) : List Turn → World → Prop
  | start : Course s start [] start
  | turn {history : List Turn} {w : World} (h : Course s start history w) (call : Call) :
    Course s start (⟨call, w⟩ :: history) (Turn.run s ⟨call, w⟩).2
  | elsewhere {history : List Turn} {w w' : World} (h : Course s start history w)
    (htable : w'.table = w.table) : Course s start history w'

namespace Service

variable {s : Service} {device : DeviceId} {w : World}

theorem avoids_perform {P : Record → Prop} (hs : ∀ bearer, (s.verifier bearer).All Action.IsRead)
    (hP : ∀ r now, P (r.signOut now) → P r) (t : Turn) (hbefore : t.before.Avoids device P)
    (hstores : ¬t.Stores s device P) : (t.run s).2.Avoids device P := by
  obtain ⟨⟨bearer, task, q⟩, w⟩ := t
  have hfree (hall : (s.perform bearer task q).All Action.IsFree) :
      (w.runCommand (s.perform bearer task q)).2.Avoids device P :=
    World.avoids_run hP hall hbefore
  -- tokens that are given to another device leave the record as it is
  have hissue (hchange : (w.runCommand (s.perform bearer task q)).2.record? device ≠
      w.record? device → IssuesFor device task q) :
      (w.runCommand (s.perform bearer task q)).2.Avoids device P := by
    intro r hr hcarries
    by_cases hsame : (w.runCommand (s.perform bearer task q)).2.record? device = w.record? device
    · exact hbefore r (hsame.symm.trans hr) hcarries
    · exact hstores ⟨hchange hsame, r, hr, hcarries⟩
  have hread : ∀ a : Action, a.IsRead → a.IsFree := fun _ => Action.IsRead.isFree
  cases task with
  | signUp => exact hissue fun h => (record?_signUp h).1
  | refresh => exact hissue fun h => (record?_refresh h).1
  | signIn => exact hfree ((signIn_reads bearer q).mono hread)
  | signOut => exact hfree (signOut_free bearer q)
  | signOff => exact hfree (signOff_free bearer q)
  | listDevices => exact hfree ((listDevices_reads q (hs bearer)).mono hread)
  | deleteDevices => exact hfree (deleteDevices_free q ((hs bearer).mono hread))

theorem course_keeps {I : World → Prop} (helsewhere : ∀ w w', w'.table = w.table → I w → I w')
    {start : World} {later earlier : List Turn} {t : Turn}
    (h : Course s start (later ++ t :: earlier) w) (ht : I (t.run s).2)
    (hlater : ∀ x ∈ later, I x.before → I (x.run s).2) : I w := by
  generalize hhistory : later ++ t :: earlier = history at h
  induction h generalizing later with
  | start => simp at hhistory
  | elsewhere h htable ih => exact helsewhere _ _ htable (ih hlater hhistory)
  | turn h call ih =>
    cases later with
    | nil =>
      cases hhistory
      exact ht
    | cons x later =>
      obtain ⟨rfl, hrest⟩ := List.cons.inj hhistory
      have hbefore := ih (fun y hy => hlater y (List.mem_cons_of_mem _ hy)) hrest
      exact hlater _ List.mem_cons_self hbefore

theorem avoids_course {P : Record → Prop} (hs : ∀ bearer, (s.verifier bearer).All Action.IsRead)
    (hP : ∀ r now, P (r.signOut now) → P r) {start : World} {later earlier : List Turn} {t : Turn}
    (h : Course s start (later ++ t :: earlier) w) (ht : (t.run s).2.Avoids device P)
    (hlater : ∀ x ∈ later, ¬x.Stores s device P) : w.Avoids device P := by
  refine course_keeps (I := fun w => w.Avoids device P) (fun w w' htable hw r hr => ?_) h ht
    fun x hx hbefore => avoids_perform hs hP x hbefore (hlater x hx)
  rw [World.record?, htable] at hr
  exact hw r hr

/-- The record that a sign-up saves is made from the tokens at that instant, and the answer from
the record. -/
theorem register_ok {owner : UserId} {tokens : OAuth.Tokens} {answer : SignUpAnswer}
    (h : (w.runCommand (s.register device owner tokens)).1 = .ok answer) :
    ∃ record, Record.Draft.build ⟨device, owner, s.provider, tokens.accessToken,
        tokens.refreshToken, w.clock, none, tokens.lifetime⟩ = .ok record ∧
      (w.runCommand (s.register device owner tokens)).2.record? device = some record ∧
      answer = ⟨record.accessToken, record.owner.text, record.refreshToken.getD .empty,
        record.remaining w.clock, s.client.config.redirectUrl⟩ := by
  unfold register at h ⊢
  obtain ⟨found, -, hrun⟩ := World.runCommand_bind_eq_ok h
  rw [hrun] at h ⊢
  obtain ⟨_, -, hrun⟩ := World.runCommand_bind_eq_ok h
  rw [hrun] at h ⊢
  obtain ⟨issued, hissued, hrun⟩ := World.runCommand_bind_eq_ok h
  cases hissued
  rw [hrun] at h ⊢
  obtain ⟨record, hbuild, hrun⟩ := World.runCommand_bind_eq_ok h
  rw [hrun] at h ⊢
  obtain ⟨now, hnow, hrun⟩ := World.runCommand_bind_eq_ok h
  cases hnow
  rw [hrun] at h ⊢
  obtain ⟨x, hsave, hrun⟩ := World.runCommand_bind_eq_ok h
  rw [hrun] at h ⊢
  cases h
  have hdraft := build_ok hbuild
  obtain ⟨rfl, -⟩ := Record.Draft.build_ok hdraft
  exact ⟨record, hdraft, (World.record?_runCommand_store hsave _).trans
    (Store.Table.get?_next_save _ record), rfl⟩

theorem checkSwap_ok {outcome : Store.SwapOutcome} (h : checkSwap device outcome = .ok ()) :
    outcome = .updated := by
  cases outcome with
  | updated => rfl
  | missing | refreshMismatch => cases h

theorem replaceWith_ok {current : Record} {token : Secret} {tokens : OAuth.Tokens}
    {answer : RefreshAnswer}
    (h : (w.runCommand (replaceWith device current token tokens)).1 = .ok answer) :
    ∃ record, (renewal current device token tokens w.clock).build = .ok record ∧
      (w.runCommand (replaceWith device current token tokens)).2.record? device = some record ∧
      answer = ⟨record.accessToken, record.refreshToken.getD .empty, record.remaining w.clock⟩ := by
  unfold replaceWith at h ⊢
  obtain ⟨issued, hissued, hrun⟩ := World.runCommand_bind_eq_ok h
  cases hissued
  rw [hrun] at h ⊢
  obtain ⟨record, hbuild, hrun⟩ := World.runCommand_bind_eq_ok h
  rw [hrun] at h ⊢
  obtain ⟨outcome, hswap, hrun⟩ := World.runCommand_bind_eq_ok h
  rw [hrun] at h ⊢
  obtain ⟨_, hcheck, hrun⟩ := World.runCommand_bind_eq_ok h
  rw [hrun] at h ⊢
  obtain ⟨now, hnow, hrun⟩ := World.runCommand_bind_eq_ok h
  cases hnow
  rw [hrun] at h ⊢
  cases h
  have houtcome := (Store.answer_apply (Except.mapError_ok hswap)).1
  have hupdated := houtcome.symm.trans (checkSwap_ok hcheck)
  exact ⟨record, build_ok hbuild, (World.record?_runCommand_store hswap _).trans
    (Store.Table.get?_next_swap record hupdated), rfl⟩

/-- A record is drafted from tokens that the provider issues at an instant. -/
structure IsIssue (now : Instant) (draft : Record.Draft) : Prop where
  issuedAt_eq : draft.issuedAt = now
  expiresAt_eq : draft.expiresAt = none
  lifetime : ∀ span, draft.lifetime = some span → ∃ n : Nat, 0 < n ∧ span = .seconds n

theorem isIssue_of_accept {now read : Instant} {t : OAuth.TokenResponse} {tokens : OAuth.Tokens}
    (h : OAuth.Client.accept t read = .ok tokens) {draft : Record.Draft}
    (hissuedAt : draft.issuedAt = now) (hexpiresAt : draft.expiresAt = none)
    (hlifetime : draft.lifetime = tokens.lifetime) : IsIssue now draft := by
  refine ⟨hissuedAt, hexpiresAt, fun span hspan => ?_⟩
  obtain ⟨n, hpos, hseconds, -⟩ := (OAuth.Client.accept_ok h).1 span (hlifetime ▸ hspan)
  exact ⟨n, hpos, hseconds⟩

/-- What a task that gives tokens answers from their record. -/
def AnswersFrom (now : Instant) (r : Record) : (task : Task) → task.Request → task.Answer → Prop
  | .signUp, _, a => ∃ uri, a =
    ⟨r.accessToken, r.owner.text, r.refreshToken.getD .empty, r.remaining now, uri⟩
  | .refresh, q, a => q.user = r.owner.text ∧
    a = ⟨r.accessToken, r.refreshToken.getD .empty, r.remaining now⟩
  | .signIn, _, _ | .signOut, _, _ | .signOff, _, _ | .listDevices, _, _
  | .deleteDevices, _, _ => False

theorem signUp_issued {q : SignUpRequest} {answer : SignUpAnswer} (hdevice : q.device = device.text)
    (hok : (w.runCommand (s.signUp q)).1 = .ok answer) :
    ∃ draft record, IsIssue w.clock draft ∧ draft.build = .ok record ∧
      (w.runCommand (s.signUp q)).2.record? device = some record ∧
      AnswersFrom w.clock record .signUp q answer := by
  obtain ⟨e, he⟩ | ⟨d, tokens, owner, hd, hrequest, -, hrun⟩ := runCommand_signUp s q w
  · rw [he] at hok
    cases hok
  obtain rfl : d = device := Identifier.ext_text (hd.symm.trans hdevice)
  obtain ⟨t, read, -, haccept⟩ :=
    OAuth.Client.accept_of_request (hrequest ▸ Command.yields_runCommand w _)
  obtain ⟨taken, released, hguarded⟩ := w.runCommand_guarded_eq d (s.register d owner tokens)
  rw [hrun, hguarded] at hok ⊢
  obtain ⟨record, hbuild, hrecord, hanswer⟩ := register_ok hok
  exact ⟨_, record, isIssue_of_accept haccept rfl rfl rfl, hbuild, hrecord, _, hanswer⟩

theorem refresh_issued {q : RefreshRequest} {answer : RefreshAnswer}
    (hdevice : q.device = device.text) (hok : (w.runCommand (s.refresh q)).1 = .ok answer) :
    ∃ draft record, IsIssue w.clock draft ∧ draft.build = .ok record ∧
      (w.runCommand (s.refresh q)).2.record? device = some record ∧
      AnswersFrom w.clock record .refresh q answer := by
  obtain ⟨e, he⟩ | ⟨d, user, hd, huser, -, hrun⟩ := runCommand_refresh s q w
  · rw [he] at hok
    cases hok
  obtain rfl : d = device := Identifier.ext_text (hd.symm.trans hdevice)
  obtain ⟨taken, released, hguarded⟩ :=
    w.runCommand_guarded_eq d (s.exchange d user q.refreshToken)
  rw [hrun, hguarded] at hok ⊢
  obtain ⟨e, he⟩ | ⟨r, -, howner, -, hexchange⟩ :=
    runCommand_exchange s d user q.refreshToken { w with guards := taken }
  · rw [he] at hok
    cases hok
  rw [hexchange, exchangeFor_eq] at hok ⊢
  obtain ⟨tokens, hrenew, hreplace⟩ := World.runCommand_bind_eq_ok hok
  obtain ⟨t, read, haccept⟩ := accept_of_renew (hrenew ▸ Command.yields_runCommand _ _)
  rw [hreplace] at hok ⊢
  obtain ⟨record, hbuild, hrecord, hanswer⟩ := replaceWith_ok hok
  have hissued := World.clock_run { w with guards := taken }
    (ExceptT.run (s.renew d q.refreshToken))
  have howner' : record.owner = user := (Record.Draft.build_ok hbuild).2.1.trans howner
  refine ⟨_, record, isIssue_of_accept haccept hissued rfl rfl, hbuild, hrecord, ?_, ?_⟩
  · rw [howner', huser]
  · rw [hanswer]
    exact congrArg (fun now => RefreshAnswer.mk _ _ (record.remaining now)) hissued

/-- A call that succeeds in giving a device tokens leaves their record, and answers from it. -/
theorem exists_issued {t : Turn} {answer : t.call.task.Answer}
    (hfor : IssuesFor device t.call.task t.call.request) (hok : (t.run s).1 = .ok answer) :
    ∃ draft record, IsIssue t.before.clock draft ∧ draft.build = .ok record ∧
      (t.run s).2.record? device = some record ∧
      AnswersFrom t.before.clock record t.call.task t.call.request answer := by
  obtain ⟨⟨bearer, task, q⟩, w⟩ := t
  cases task with
  | signIn | signOut | signOff | listDevices | deleteDevices => cases hfor
  | signUp => exact signUp_issued hfor hok
  | refresh => exact refresh_issued hfor hok

/-- The record holds what an answer hands out, where an empty text stands for no refresh token. -/
def Holds (w : World) (device : DeviceId) (access refresh : Secret) : Prop :=
  ∃ r, w.record? device = some r ∧ r.accessToken = access ∧ r.refreshToken.getD .empty = refresh

theorem holds_of_issues {t : Turn} {access refresh : Secret}
    (h : t.Issues s device access refresh) : Holds (t.run s).2 device access refresh := by
  obtain ⟨hfor, answer, hok, hissued⟩ := h
  obtain ⟨-, record, -, -, hrecord, hanswer⟩ := exists_issued hfor hok
  refine ⟨record, hrecord, ?_⟩
  obtain ⟨⟨bearer, task, q⟩, w⟩ := t
  cases task with
  | signIn | signOut | signOff | listDevices | deleteDevices => cases hfor
  | signUp =>
    obtain ⟨uri, rfl⟩ := hanswer
    cases hissued
    exact ⟨rfl, rfl⟩
  | refresh =>
    obtain ⟨-, rfl⟩ := hanswer
    cases hissued
    exact ⟨rfl, rfl⟩

end Service

/-- The command fails with an error, if only the store lets a record be read; in any case it fails,
asks nobody and leaves the store as it is. -/
structure World.Rejects (w : World) (c : Command α) (e : Error) : Prop where
  failed : ∃ e', (w.runCommand c).1 = .error e' ∧
    (e' = e ∨ Store.Operation.Kind.fetch ∈ w.store.refused ∧ ∃ cause, e' = .storage cause)
  store_eq : (w.runCommand c).2.store = w.store
  unasked : Trace.deliveries (w.trace (ExceptT.run c)) = []

namespace World.Rejects

variable {w : World} {c : Command α} {e : Error}

theorem bind (h : w.Rejects c e) (f : α → Command β) : w.Rejects (c >>= f) e := by
  obtain ⟨e', he', hcause⟩ := h.failed
  have hrun : w.runCommand (c >>= f) = (.error e', (w.runCommand c).2) := by
    rw [runCommand_bind]
    rcases hc : w.runCommand c with ⟨x, w'⟩
    rw [hc] at he'
    cases he'
    rfl
  have htrace : w.trace (ExceptT.run (c >>= f)) = w.trace (ExceptT.run c) := by
    refine (trace_bind w (ExceptT.run c) _).trans ?_
    rw [show (w.run (ExceptT.run c)).1 = .error e' from he']
    exact List.append_nil _
  exact ⟨⟨e', by rw [hrun], hcause⟩, by rw [hrun, h.store_eq], by rw [htrace, h.unasked]⟩

theorem of_ofExcept (w : World) (e : Error) : w.Rejects (.ofExcept (.error e) : Command α) e :=
  ⟨⟨e, rfl, .inl rfl⟩, rfl, rfl⟩

theorem after {f : α → Command β} {a : α} (hc : w.runCommand c = (.ok a, w))
    (hquiet : Trace.deliveries (w.trace (ExceptT.run c)) = []) (h : w.Rejects (f a) e) :
    w.Rejects (c >>= f) e := by
  have hrun := w.runCommand_bind_ok (f := f) hc
  have htrace : w.trace (ExceptT.run (c >>= f)) =
      w.trace (ExceptT.run c) ++ w.trace (ExceptT.run (f a)) := by
    refine (trace_bind w (ExceptT.run c) _).trans ?_
    rw [show w.run (ExceptT.run c) = (.ok a, w) from hc]
    rfl
  refine ⟨by rw [hrun]; exact h.failed, by rw [hrun]; exact h.store_eq, ?_⟩
  rw [htrace, Trace.deliveries_append, hquiet, h.unasked, List.append_nil]

theorem guarded {device : DeviceId} (h : ∀ guards, { w with guards := guards }.Rejects c e) :
    w.Rejects (.guarded device c) e := by
  obtain ⟨taken, released, hrun⟩ := w.runCommand_guarded_eq device c
  obtain ⟨⟨e', he', hcause⟩, hstore, -⟩ := h taken
  refine ⟨⟨e', by rw [hrun, he'], hcause⟩, by rw [hrun]; exact hstore, ?_⟩
  obtain ⟨guards, w₁, w₂, guard, htrace⟩ := w.trace_guarded device c
  rw [htrace, List.cons_append, List.cons_append, Trace.deliveries, List.filterMap_cons_none rfl,
    List.filterMap_cons_none rfl, List.filterMap_append]
  exact congrArg (· ++ []) (h guards).unasked

end World.Rejects

namespace Store

theorem fetch_cases (s : Store) (device : DeviceId) :
    (.fetch ∈ s.refused ∧ ∃ cause, (s.apply (.fetch device)).1 = .error cause) ∨
      (s.apply (.fetch device)).1 = .ok (s.table.get? device) := by
  by_cases hrefused : (Operation.fetch device).kind ∈ s.refused
  · exact .inl ⟨hrefused, _, by rw [apply, if_pos hrefused]⟩
  · exact .inr (by rw [apply_of_reads rfl hrefused]; rfl)

end Store

namespace Service

variable {s : Service} {device : DeviceId} {user : UserId} {w : World}

theorem runCommand_ownedDevice (device : DeviceId) (user : UserId) (w : World) :
    (.fetch ∈ w.store.refused ∧ ∃ cause, w.runCommand (ownedDevice device user) =
        (.error (.storage cause), w)) ∨
      w.runCommand (ownedDevice device user) =
        (checkOwner device user (w.record? device), w) := by
  have hw : (w.runCommand (ownedDevice device user)).2 = w :=
    World.run_of_isRead (ownedDevice_reads device user) w
  have hresult : (w.runCommand (ownedDevice device user)).1 =
      ((w.store.apply (.fetch device)).1.mapError .storage >>= checkOwner device user) := by
    unfold ownedDevice
    rw [World.runCommand_bind, World.runCommand_store]
    cases (w.store.apply (.fetch device)).1 <;> rfl
  obtain ⟨hrefused, cause, hcause⟩ | hok := w.store.fetch_cases device
  · refine .inl ⟨hrefused, cause, Prod.ext (hresult.trans ?_) hw⟩
    rw [hcause]
    rfl
  · refine .inr (Prod.ext (hresult.trans ?_) hw)
    rw [hok]
    rfl

theorem checkOwner_owner (device : DeviceId) (r : Record) :
    checkOwner device r.owner (some r) = .ok r := if_pos (decide_eq_true rfl)

theorem runCommand_ownedDevice_of_owner {r : Record} (hfetch : .fetch ∉ w.store.refused)
    (hr : w.record? device = some r) :
    w.runCommand (ownedDevice device r.owner) = (.ok r, w) := by
  obtain ⟨hrefused, -⟩ | hrun := runCommand_ownedDevice device r.owner w
  · exact absurd hrefused hfetch
  · rw [hrun, hr, checkOwner_owner]

theorem ownedDevice_unasked (device : DeviceId) (user : UserId) (w : World) :
    Trace.deliveries (w.trace (ExceptT.run (ownedDevice device user))) = [] := by
  obtain ⟨look, htrace, -⟩ := ownedDevice_yields (Command.yields_runCommand w _)
  rw [htrace]
  rfl

theorem rejects_ownedDevice {e : Error}
    (h : checkOwner device user (w.record? device) = .error e) :
    w.Rejects (ownedDevice device user) e := by
  obtain ⟨hrefused, cause, hrun⟩ | hrun := runCommand_ownedDevice device user w
  · exact ⟨⟨_, by rw [hrun], .inr ⟨hrefused, cause, rfl⟩⟩, by rw [hrun],
      ownedDevice_unasked device user w⟩
  · exact ⟨⟨e, by rw [hrun, h], .inl rfl⟩, by rw [hrun], ownedDevice_unasked device user w⟩

theorem rejects_ownedDevice_bind {f : Record → Command α} {r : Record} {e : Error}
    (hr : w.record? device = some r) (howner : r.owner = user) (hf : w.Rejects (f r) e) :
    w.Rejects (ownedDevice device user >>= f) e := by
  have hcheck : checkOwner device user (w.record? device) = .ok r := by
    rw [hr, ← howner, checkOwner_owner]
  obtain ⟨hrefused, cause, hrun⟩ | hrun := runCommand_ownedDevice device user w
  · have hread : w.Rejects (ownedDevice device user) e :=
      ⟨⟨_, by rw [hrun], .inr ⟨hrefused, cause, rfl⟩⟩, by rw [hrun],
        ownedDevice_unasked device user w⟩
    exact hread.bind f
  · exact .after (hcheck ▸ hrun) (ownedDevice_unasked device user w) hf

theorem authorizeSession_eq {bearer : String} {q : SessionRequest}
    (hdevice : q.device = device.text) (huser : q.user = user.text)
    (hpresented : q.presented bearer ≠ "") :
    authorizeSession bearer q = (do
      let record ← ownedDevice device user
      if !record.accessToken.agrees (q.presented bearer) then
        throw (.unauthenticated ("access token does not match device " ++ device.text))
      return record) := by
  unfold authorizeSession
  rw [hdevice, huser, required_text, required_text]
  exact if_neg hpresented

theorem runCommand_authorizeSession {bearer : String} {q : SessionRequest} {r : Record}
    (hfetch : .fetch ∉ w.store.refused) (hdevice : q.device = device.text)
    (hr : w.record? device = some r) (huser : q.user = r.owner.text)
    (hpresented : q.presented bearer ≠ "") :
    w.runCommand (authorizeSession bearer q) =
      (if r.accessToken.text = q.presented bearer then .ok r
        else .error (.unauthenticated ("access token does not match device " ++ device.text)),
        w) := by
  rw [authorizeSession_eq hdevice huser hpresented,
    World.runCommand_bind_ok w (runCommand_ownedDevice_of_owner hfetch hr)]
  by_cases htoken : r.accessToken.text = q.presented bearer
  · rw [if_pos htoken, Secret.agrees_iff.mpr htoken]
    rfl
  · rw [if_neg htoken, Bool.eq_false_iff.mpr (mt Secret.agrees_iff.mp htoken)]
    rfl

structure RejectsSession (w : World) (bearer : String) (q : SessionRequest) (e : Error) : Prop where
  signIn : w.Rejects (signIn bearer q) e
  signOut : w.Rejects (signOut bearer q) e
  signOff : w.Rejects (signOff bearer q) e

theorem RejectsSession.of_authorizeSession {bearer : String} {q : SessionRequest} {e : Error}
    (h : w.Rejects (authorizeSession bearer q) e) : RejectsSession w bearer q e :=
  ⟨h.bind _, h.bind _, h.bind _⟩

theorem rejectsSession_of_mismatch {bearer : String} {q : SessionRequest} {r : Record}
    (hdevice : q.device = device.text) (hr : w.record? device = some r)
    (huser : q.user = r.owner.text) (hpresented : q.presented bearer ≠ "")
    (hmismatch : r.accessToken.text ≠ q.presented bearer) :
    RejectsSession w bearer q
      (.unauthenticated ("access token does not match device " ++ device.text)) := by
  have hdiffers : r.accessToken.agrees (q.presented bearer) = false :=
    Bool.eq_false_iff.mpr fun h => hmismatch (Secret.agrees_iff.mp h)
  refine .of_authorizeSession ?_
  rw [authorizeSession_eq hdevice huser hpresented]
  refine rejects_ownedDevice_bind hr rfl ?_
  rw [hdiffers]
  exact .of_ofExcept w _

theorem rejectsSession_of_unregistered {bearer : String} {q : SessionRequest}
    (hdevice : q.device = device.text) (hr : w.record? device = none) (huser : q.user = user.text)
    (hpresented : q.presented bearer ≠ "") :
    RejectsSession w bearer q
      (.unauthenticated ("device " ++ device.text ++ " is not registered")) := by
  refine .of_authorizeSession ?_
  rw [authorizeSession_eq hdevice huser hpresented]
  refine (rejects_ownedDevice ?_).bind _
  rw [hr]
  rfl

theorem rejects_refresh_of_mismatch {q : RefreshRequest} {r : Record}
    (hdevice : q.device = device.text) (hr : w.record? device = some r)
    (huser : q.user = r.owner.text) (hpresented : q.refreshToken.text ≠ "")
    (hmismatch : r.refreshToken ≠ some q.refreshToken) :
    w.Rejects (s.refresh q)
      (.invalidGrant ("refresh token does not match device " ++ device.text)) := by
  have hcheck : checkRefreshToken r device q.refreshToken =
      .error (.invalidGrant ("refresh token does not match device " ++ device.text)) := by
    cases htoken : checkRefreshToken r device q.refreshToken with
    | ok token =>
      obtain ⟨hfound, rfl⟩ := checkRefreshToken_ok htoken
      exact absurd hfound hmismatch
    | error e =>
      unfold checkRefreshToken at htoken
      split at htoken
      · cases htoken
      · exact htoken.symm
  rw [refresh_eq s hdevice huser hpresented]
  refine .guarded fun guards => ?_
  rw [exchange_eq]
  refine rejects_ownedDevice_bind hr rfl ?_
  rw [hcheck]
  exact World.Rejects.bind (.of_ofExcept _ _) _

theorem rejects_refresh_of_unregistered {q : RefreshRequest} (hdevice : q.device = device.text)
    (hr : w.record? device = none) (huser : q.user = user.text)
    (hpresented : q.refreshToken.text ≠ "") :
    w.Rejects (s.refresh q)
      (.unauthenticated ("device " ++ device.text ++ " is not registered")) := by
  rw [refresh_eq s hdevice huser hpresented]
  refine .guarded fun guards => ?_
  rw [exchange_eq]
  refine (rejects_ownedDevice ?_).bind _
  change checkOwner device user (w.record? device) = _
  rw [hr]
  rfl

/-- The tokens issued last for a device are the only ones that are good for anything: whatever other
token is presented, and was not issued again since, the owner is rejected, and nobody is asked. Once
the device is removed everybody is. -/
theorem rejects_superseded (hs : ∀ bearer, (s.verifier bearer).All Action.IsRead) {start : World}
    {later earlier : List Turn} {t : Turn} {access refresh : Secret}
    (h : Course s start (later ++ t :: earlier) w) (hissues : t.Issues s device access refresh) :
    (∀ (bearer : String) (q : SessionRequest), q.device = device.text →
      q.presented bearer ≠ "" → q.presented bearer ≠ access.text →
      (∀ x ∈ later, ¬x.Stores s device (·.accessToken.text = q.presented bearer)) →
        (∀ r, w.record? device = some r → q.user = r.owner.text → RejectsSession w bearer q
          (.unauthenticated ("access token does not match device " ++ device.text))) ∧
        (∀ user : UserId, w.record? device = none → q.user = user.text → RejectsSession w bearer q
          (.unauthenticated ("device " ++ device.text ++ " is not registered")))) ∧
    ∀ q : RefreshRequest, q.device = device.text → q.refreshToken.text ≠ "" →
      q.refreshToken ≠ refresh →
      (∀ x ∈ later, ¬x.Stores s device (·.refreshToken = some q.refreshToken)) →
        (∀ r, w.record? device = some r → q.user = r.owner.text → w.Rejects (s.refresh q)
          (.invalidGrant ("refresh token does not match device " ++ device.text))) ∧
        (∀ user : UserId, w.record? device = none → q.user = user.text → w.Rejects (s.refresh q)
          (.unauthenticated ("device " ++ device.text ++ " is not registered"))) := by
  obtain ⟨issued, hissued, haccess, hrefresh⟩ := holds_of_issues hissues
  have hissuedOnly (r : Record) (hr : (t.run s).2.record? device = some r) : issued = r :=
    Option.some.inj (hissued.symm.trans hr)
  refine ⟨fun bearer q hdevice hpresented hother hlater => ⟨fun r hr huser => ?_, ?_⟩,
    fun q hdevice hpresented hother hlater => ⟨fun r hr huser => ?_, ?_⟩⟩
  · have hafter : (t.run s).2.Avoids device (·.accessToken.text = q.presented bearer) := by
      intro r' hr' hsame
      obtain rfl := hissuedOnly r' hr'
      exact hother (hsame.symm.trans (congrArg Secret.text haccess))
    have havoids := avoids_course hs (fun _ _ hout => hout) h hafter hlater
    exact rejectsSession_of_mismatch hdevice hr huser hpresented (havoids r hr)
  · exact fun user hr huser => rejectsSession_of_unregistered hdevice hr huser hpresented
  · have hafter : (t.run s).2.Avoids device (·.refreshToken = some q.refreshToken) := by
      intro r' hr' hsame
      obtain rfl := hissuedOnly r' hr'
      rw [hsame] at hrefresh
      exact hother hrefresh
    have havoids := avoids_course hs (fun _ _ hout => hout) h hafter hlater
    exact rejects_refresh_of_mismatch hdevice hr huser hpresented (havoids r hr)
  · exact fun user hr huser => rejects_refresh_of_unregistered hdevice hr huser hpresented

def sampleToken : Secret := ⟨"h.eyJzdWIiOiJhIn0."⟩

def sampleSignOut : Call := ⟨sampleToken.text, .signOut, ⟨"d", "a", .empty⟩⟩

/-- The owner signs up again and signs out; the tokens from before are of no use any more. -/
theorem rejects_superseded_sign_up :
    ∃ (start w : World) (before after : Record) (history : List Turn),
      Course Crowd.sampleService start history w ∧
        start.record? Record.sample.device = some before ∧
        w.record? Record.sample.device = some after ∧
        before.accessToken.text = "t" ∧ before.refreshToken = some sampleRefresh.refreshToken ∧
        RejectsSession w "t" ⟨"d", "a", .empty⟩
          (.unauthenticated "access token does not match device d") ∧
        w.Rejects (Crowd.sampleService.refresh sampleRefresh)
          (.invalidGrant "refresh token does not match device d") := by
  let start := sampleRefreshWorld Crowd.samplePeer
  let signUp : Turn := ⟨Crowd.sampleSignUp "a", start⟩
  let signOut : Turn := ⟨sampleSignOut, (signUp.run Crowd.sampleService).2⟩
  let w := (signOut.run Crowd.sampleService).2
  let after : Record := (Crowd.sampleRecord ⟨"a", by decide⟩ sampleToken.text).signOut ⟨0, 0⟩
  have hcourse : Course Crowd.sampleService start ([signOut] ++ signUp :: []) w :=
    .turn (.turn .start (Crowd.sampleSignUp "a")) sampleSignOut
  have hok : (start.runCommand (Crowd.sampleService.signUp ⟨"d", ⟨"a"⟩, ""⟩)).1 =
      .ok ⟨sampleToken, "a", .empty, -1, ""⟩ := by
    decide +kernel
  have hissues : signUp.Issues Crowd.sampleService Record.sample.device sampleToken .empty :=
    ⟨rfl, _, hok, rfl⟩
  have hafter : w.record? Record.sample.device = some after := by
    decide +kernel
  have hlater (P : Record → Prop) : ∀ x ∈ [signOut],
      ¬x.Stores Crowd.sampleService Record.sample.device P := by
    rintro x hx ⟨hfor, -⟩
    rw [List.mem_singleton.mp hx] at hfor
    cases hfor
  obtain ⟨hsession, hrefresh⟩ := rejects_superseded Verifier.ofStore_reads hcourse hissues
  obtain ⟨hsession, -⟩ :=
    hsession "t" ⟨"d", "a", .empty⟩ rfl (by decide) (by decide) (hlater _)
  obtain ⟨hrefresh, -⟩ := hrefresh sampleRefresh rfl (by decide) (by decide) (hlater _)
  exact ⟨start, w, sampleSession, after, _, hcourse, rfl, hafter, rfl, rfl,
    hsession after hafter rfl, hrefresh after hafter rfl⟩

end Service

end DeviceAuth
