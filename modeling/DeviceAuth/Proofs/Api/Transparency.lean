import DeviceAuth.Proofs.Api.Relay
import DeviceAuth.Proofs.Api.Wire
import DeviceAuth.Proofs.Service.Answer

/-! Calling the service from afar. A client whose requests are answered by a server does what the
service does when it is called directly, action by action, and comes to the same result, except that
an error is one that was relayed. -/
namespace DeviceAuth

/-- The program with a server for a network: whatever it sends, the server answers, and what the
server does for that takes the place of sending. -/
def Program.servedBy [Url.Idna] {α : Type} (s : Api.Server) : Program α → Program α
  | .done a => .done a
  | .step (.send call) next =>
    (s.handle call.request).bind fun r => (next (.answered r)).servedBy s
  | .step action next => .step action fun answer => (next answer).servedBy s

namespace Api

open Service (Task)

variable {s : Server} {c : Client} {bearer : String}

namespace Server

def reply (task : Task) : Except Error task.Answer → Http.Response
  | .ok a => jsonResponse 200 (task.answerJson a)
  | .error e => errorResponse e

theorem readBody_posted {task : Task} {q : task.Request}
    (hlength : (Text.utf8 (task.requestJson q).compact).length ≤ maxBodyLength) :
    readBody task.requestDecoder (Client.posted bearer task q) = .ok q := by
  have hget : (Client.posted bearer task q).headers.get? "content-type" =
      some (Text.utf8 "application/json") := rfl
  have hjson : Http.MediaType.isJson (Client.posted bearer task q).headers = true := by
    rw [Http.MediaType.isJson, hget]
    decide
  have hdecode : Json.decode task.requestDecoder (Client.posted bearer task q).body = .ok q := by
    rw [Client.posted, Json.decode_compact _ (task.isExact_requestJson q)]
    exact task.requestDecoder_reading q 124
  have hfits : ¬maxBodyLength < (Client.posted bearer task q).body.length :=
    Nat.not_lt_of_le hlength
  rw [readBody, hjson, hdecode, if_neg hfits]
  rfl

theorem handle_posted [Url.Idna] (s : Server) (hbearer : IsToken bearer) {task : Task}
    {q : task.Request}
    (hlength : (Text.utf8 (task.requestJson q).compact).length ≤ maxBodyLength) :
    s.handle (Client.posted bearer task q) =
      (ExceptT.run (s.service.perform bearer task q)).bind fun result =>
        .done (reply task result) := by
  have hroute : Route.ofPath? (Client.posted bearer task q).path = some (.task task) :=
    Route.ofPath?_path (.task task)
  have htoken : Api.bearer (Client.posted bearer task q).headers = .ok bearer :=
    bearer_authorizationValue hbearer _
  have hserve : s.handleRoute (.task task) (Client.posted bearer task q) =
      respond (s.performTask bearer task (Client.posted bearer task q)) := by
    simp only [handleRoute, Route.isGuarded, if_true, htoken]
    rfl
  rw [handle, hroute]
  dsimp only
  rw [hserve, respond, performTask, readBody_posted hlength]
  refine (Program.bind_assoc _ _ _).trans ?_
  refine (Program.bind_assoc (ExceptT.run (s.service.perform bearer task q)) _ _).trans ?_
  congr 1
  funext result
  cases result <;> rfl

end Server

namespace Client

open Server (reply)

theorem ofResponse_reply_ok {task : Task} {a : task.Answer} (h : task.Fits a) :
    ofResponse task.answerDecoder (reply task (.ok a)) = .ok a := by
  have hdecode : Json.decodeFirst task.answerDecoder (reply task (.ok a)).body = .ok a := by
    rw [reply, jsonResponse, Json.decodeFirst_compact _ (task.isExact_answerJson h)]
    exact task.answerDecoder_reading h 124
  rw [ofResponse, hdecode]
  rfl

theorem ofResponse_reply_error (task : Task) (e : Error) :
    ofResponse task.answerDecoder (reply task (.error e)) = .error (relayed e) := by
  have hfailed : (errorResponse e).isSuccess = false := by
    cases e <;> rfl
  rw [ofResponse, reply, hfailed]
  rfl

end Client

/-- The program of a client is that of the service, which is followed by nothing but a reply. -/
theorem servedBy_perform [Url.Idna] (s : Server) (hbase : IsOrigin c.base)
    (htoken : c.token = pure ⟨bearer⟩) (hbearer : IsToken bearer) {task : Task} {q : task.Request}
    (hlength : (Text.utf8 (task.requestJson q).compact).length ≤ Server.maxBodyLength) :
    (ExceptT.run (c.perform task q)).servedBy s =
      (ExceptT.run (s.service.perform bearer task q)).bind fun result =>
        .done (Client.ofResponse task.answerDecoder (Server.reply task result)) := by
  rw [Client.run_perform hbase htoken hbearer, Program.servedBy, Client.request_taskCall,
    s.handle_posted hbearer hlength, Program.bind_assoc]
  rfl

/-- A result says on the side of a client what it says on the side of the service. -/
inductive Conveys {α : Type} : Except Error α → Except Error α → Prop where
  | ok (a : α) : Conveys (.ok a) (.ok a)
  | error {e e' : Error} (h : e'.kind = e.kind.relayed) : Conveys (.error e) (.error e')

theorem Conveys.eq_ok {α : Type} {a : α} {result : Except Error α} (h : Conveys (.ok a) result) :
    result = .ok a := by
  cases h
  rfl

theorem Conveys.exists_error {α : Type} {e : Error} {result : Except Error α}
    (h : Conveys (.error e) result) : ∃ e', result = .error e' ∧ e'.kind = e.kind.relayed := by
  cases h with
  | error hkind => exact ⟨_, rfl, hkind⟩

/-- A client of a server does to the world what a direct call of the service does, in the same
steps, and comes to the same answer, or to an error of the kind that is relayed. -/
theorem conveys_perform [Url.Idna] (s : Server) (hbase : IsOrigin c.base)
    (htoken : c.token = pure ⟨bearer⟩)
    (hbearer : IsToken bearer) (task : Task) (q : task.Request)
    (hlength : (Text.utf8 (task.requestJson q).compact).length ≤ Server.maxBodyLength)
    {w : World} (hw : w.IsRepresentable) :
    let remote := (ExceptT.run (c.perform task q)).servedBy s
    let direct := ExceptT.run (s.service.perform bearer task q)
    (w.run remote).2 = (w.run direct).2 ∧ w.trace remote = w.trace direct ∧
      Conveys (w.run direct).1 (w.run remote).1 := by
  dsimp only
  rw [servedBy_perform s hbase htoken hbearer hlength, World.run_bind, World.trace_bind]
  refine ⟨rfl, List.append_nil _, ?_⟩
  change Conveys _ (Client.ofResponse task.answerDecoder (Server.reply task
    (w.run (ExceptT.run (s.service.perform bearer task q))).1))
  cases hresult : (w.run (ExceptT.run (s.service.perform bearer task q))).1 with
  | ok a =>
    rw [Client.ofResponse_reply_ok (Service.fits_perform hw hresult)]
    exact .ok a
  | error e =>
    rw [Client.ofResponse_reply_error]
    exact .error (kind_relayed e)

def sampleServer : Server := ⟨Crowd.sampleService, .empty, .empty⟩

def sampleClient : Client :=
  ⟨⟨"http", "", "", none, none, .segments [], none, none⟩, pure ⟨"t"⟩⟩

/-- A token arrives as it was issued; that the store did not answer arrives as a passing failure. -/
theorem conveys_perform_sign_up :
    let w := Service.sampleIssue.before
    let unread := { w with store := { w.store with refused := [.fetch] } }
    let signUp := (ExceptT.run
      (sampleClient.perform .signUp ⟨"d", ⟨"a"⟩, ""⟩)).servedBy sampleServer
    (w.run signUp).1 = .ok ⟨Service.sampleToken, "a", .empty, 2, ""⟩ ∧
      ∃ e, (unread.run signUp).1 = .error e ∧ e.kind = .transient := by
  intro w unread signUp
  let direct := Crowd.sampleService.signUp ⟨"d", ⟨"a"⟩, ""⟩
  have hclock : Instant.IsRepresentable ⟨0, 0⟩ := ⟨by decide, by decide, by decide⟩
  have hrecord : (Crowd.sampleRecord ⟨"a", by decide⟩ "t").IsRepresentable := ⟨hclock, nofun, nofun⟩
  have htable : w.table.IsRepresentable := by
    intro r hr
    rcases Store.Table.mem_records_insert hr with rfl | hr
    · exact hrecord
    · cases hr
  have hconveys (w : World) (hw : w.IsRepresentable) :
      Conveys (w.runCommand direct).1 (w.run signUp).1 :=
    (conveys_perform sampleServer ⟨rfl, rfl, rfl, [], rfl⟩ rfl
      ⟨by decide, Text.visible_of_all rfl, by decide, by decide⟩ .signUp ⟨"d", ⟨"a"⟩, ""⟩
      (by decide) hw).2.2
  have hissued : (w.runCommand direct).1 = .ok ⟨Service.sampleToken, "a", .empty, 2, ""⟩ := by
    decide +kernel
  have hunread : (unread.runCommand direct).1 = .error (.storage (.backend "fetch rejected")) := by
    decide +kernel
  have hok := hconveys w ⟨hclock, htable⟩
  have hfailed := hconveys unread ⟨hclock, htable⟩
  rw [hissued] at hok
  rw [hunread] at hfailed
  exact ⟨hok.eq_ok, hfailed.exists_error⟩

end Api

end DeviceAuth
