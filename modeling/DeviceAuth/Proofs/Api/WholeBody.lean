import DeviceAuth.Proofs.Api.WellKnown
import DeviceAuth.Proofs.Json.Document
import DeviceAuth.Proofs.Locality

/-! What a client takes for an answer. It reads a document at the start of a body and leaves what
follows alone, so a body that goes on behind its document counts as the document; the body of a
failed call is read to its end. -/
namespace DeviceAuth

namespace Api

open Json (IsDocument IsSpaces)

inductive Question where
  | perform (task : Service.Task) (q : task.Request)
  | authorizeUrl (audience : Audience)
  | wellKnown

namespace Question

abbrev Answer : Question → Type
  | .perform task _ => task.Answer
  | .authorizeUrl _ => AuthorizeUrlAnswer
  | .wellKnown => WellKnown

def decoder : (question : Question) → Json.Decoder question.Answer
  | .perform task _ => task.answerDecoder
  | .authorizeUrl _ => AuthorizeUrlAnswer.decoder
  | .wellKnown => WellKnown.decoder

/-- What is read is looked at once more. -/
def Admits : (question : Question) → question.Answer → Prop
  | .perform _ _, _ | .authorizeUrl _, _ => True
  | .wellKnown, d => d.validate = .ok ()

/-- The error says what a body that cannot be used is to the one who asked. -/
def Refuses : Question → Error → Prop
  | .perform _ _, e | .authorizeUrl _, e => ∃ reason, e = .transient (.unavailable reason)
  | .wellKnown, e => ∃ cause, e = .config (.wellKnown cause)

def outcome : (question : Question) → Http.Call → Http.Delivery → Except Error question.Answer
  | .perform task _, call, delivery => Client.ofDelivery task.answerDecoder call.url delivery
  | .authorizeUrl _, call, delivery =>
    Client.ofDelivery AuthorizeUrlAnswer.decoder call.url delivery
  | .wellKnown, _, delivery =>
    (WellKnown.ofDelivery delivery).mapError fun e => .config (.wellKnown e)

end Question

namespace Client

variable {α : Type}

def ask (c : Client) : (question : Question) → Command question.Answer
  | .perform task q => c.perform task q
  | .authorizeUrl audience => c.authorizeUrl audience
  | .wellKnown => c.wellKnown

def callFor (c : Client) : Question → Command Http.Call
  | .perform task q => do
    let url ← Command.ofExcept (c.endpoint (.task task))
    let token ← c.token
    Command.ofExcept (call "POST" url token (some (task.requestJson q)))
  | .authorizeUrl audience => do
    let url ← Command.ofExcept (c.endpoint .authorizeUrl)
    let token ← c.token
    Command.ofExcept
      (call "GET" (url.appendPairs [(Audience.key, audience.name)]) token none)
  | .wellKnown => Command.ofExcept <|
    match c.base.atPath WellKnown.path with
    | .error e => .error (.config (.wellKnown (.url e)))
    | .ok url =>
      if url.isHttp then .ok ⟨"GET", url.withoutUserinfo, ⟨Http.basicFields url⟩, []⟩
      else .error (.config (.wellKnown .transport))

theorem ask_eq (c : Client) (question : Question) :
    c.ask question = (do
      let call ← c.callFor question
      let delivery ← Command.ofProgram (Program.perform (.send call))
      Command.ofExcept (question.outcome call delivery)) := by
  cases question with
  | perform task q => simp only [ask, perform, send, callFor, bind_assoc]; rfl
  | authorizeUrl audience => simp only [ask, authorizeUrl, send, callFor, bind_assoc]; rfl
  | wellKnown =>
    simp only [ask, wellKnown, WellKnown.fetch, callFor]
    cases c.base.atPath WellKnown.path with
    | error e => rfl
    | ok url =>
      dsimp only
      split <;> rfl

theorem runCommand_ask (c : Client) (question : Question) (w : World) :
    (w.runCommand (c.ask question)).1 =
      (w.runCommand (c.callFor question)).1.bind fun call =>
        question.outcome call (w.peer call) := by
  have hpeer : (w.runCommand (c.callFor question)).2.peer = w.peer := World.peer_run w _
  rw [ask_eq, World.runCommand_bind]
  split
  · rename_i call w' hcall
    rw [hcall] at hpeer ⊢
    rw [World.runCommand_bind_ok w' (World.runCommand_perform w' _)]
    exact congrArg (fun peer => question.outcome call (peer call)) hpeer
  · rename_i e w' hcall
    rw [hcall]
    rfl

theorem ofResponse_eq_ok_iff {d : Json.Decoder α} {r : Http.Response} {a : α}
    (hsuccess : r.isSuccess = true) :
    ofResponse d r = .ok a ↔ Json.decodeFirst d r.body = .ok a := by
  rw [ofResponse, if_pos hsuccess, Except.mapError_eq_ok_iff]

theorem exists_answered_of_ofDelivery {d : Json.Decoder α} {url : Url}
    {delivery : Http.Delivery} {a : α} (h : ofDelivery d url delivery = .ok a) :
    ∃ r, delivery = .answered r ∧ r.isSuccess = true := by
  cases delivery with
  | answered r =>
    refine ⟨r, rfl, ?_⟩
    by_contra hfailed
    rw [ofDelivery, ofResponse, if_neg hfailed] at h
    cases h
  | _ => cases h

theorem unavailable_of_ofResponse {d : Json.Decoder α} {r : Http.Response} {e : Error}
    (hsuccess : r.isSuccess = true) (h : ofResponse d r = .error e) :
    ∃ reason, e = .transient (.unavailable reason) := by
  rw [ofResponse, if_pos hsuccess] at h
  obtain ⟨cause, -, rfl⟩ := Except.mapError_error h
  exact ⟨_, rfl⟩

/-- A question is answered with success. -/
def Gets (c : Client) (question : Question) (w : World) (r : Http.Response) : Prop :=
  r.isSuccess = true ∧
    ∃ call, (w.runCommand (c.callFor question)).1 = .ok call ∧ w.peer call = .answered r

end Client

namespace Question

variable {question : Question} {call : Http.Call} {r : Http.Response} {a : question.Answer}
  {e : Error}

theorem takesBrackets_decoder (question : Question) : question.decoder.TakesBrackets := by
  cases question with
  | perform task q => cases task <;> exact Json.Decoder.Shape.takesBrackets_decoder _
  | authorizeUrl audience => exact Json.Decoder.Shape.takesBrackets_decoder _
  | wellKnown => exact Json.Decoder.Shape.takesBrackets_decoder _

theorem outcome_answered_eq_ok_iff (hsuccess : r.isSuccess = true) :
    question.outcome call (.answered r) = .ok a ↔
      Json.decodeFirst question.decoder r.body = .ok a ∧ question.Admits a := by
  cases question with
  | perform task q =>
    exact (Client.ofResponse_eq_ok_iff hsuccess).trans (and_iff_left trivial).symm
  | authorizeUrl audience =>
    exact (Client.ofResponse_eq_ok_iff hsuccess).trans (and_iff_left trivial).symm
  | wellKnown =>
    exact Except.mapError_eq_ok_iff.trans (WellKnown.ofResponse_eq_ok_iff hsuccess)

theorem exists_answered_of_outcome {delivery : Http.Delivery}
    (h : question.outcome call delivery = .ok a) :
    ∃ r, delivery = .answered r ∧ r.isSuccess = true := by
  cases question with
  | perform task q => exact Client.exists_answered_of_ofDelivery h
  | authorizeUrl audience => exact Client.exists_answered_of_ofDelivery h
  | wellKnown => exact WellKnown.exists_answered_of_ofDelivery (Except.mapError_ok h)

theorem refuses_of_outcome (hsuccess : r.isSuccess = true)
    (h : question.outcome call (.answered r) = .error e) : question.Refuses e := by
  cases question with
  | perform task q => exact Client.unavailable_of_ofResponse hsuccess h
  | authorizeUrl audience => exact Client.unavailable_of_ofResponse hsuccess h
  | wellKnown =>
    obtain ⟨cause, -, rfl⟩ := Except.mapError_error h
    exact ⟨cause, rfl⟩

/-- The answer that a body gives if nothing but a document is in it. -/
structure Reads (question : Question) (body : List UInt8) (a : question.Answer) : Prop where
  isDocument : IsDocument body
  decode : Json.decode question.decoder body = .ok a
  admits : question.Admits a

/-- The body begins with a document that answers the question, and goes on behind it. -/
def Overlooks (question : Question) (body : List UInt8) : Prop :=
  ∃ doc rest a, body = doc ++ rest ∧ question.Reads doc a ∧ ¬IsSpaces rest

end Question

namespace Client

variable {c : Client} {question : Question} {w : World} {r : Http.Response}

theorem failure_of_not_isDocument (h : ¬IsDocument r.body) :
    failure r = ErrorBody.toError
      ⟨"", String.ofList ((Text.ofUtf8Lossy r.body).toList.take quotedLength)⟩ r.status := by
  have hd : ErrorBody.decoder.TakesBrackets := Json.Decoder.Shape.takesBrackets_decoder _
  rw [failure]
  split
  · rename_i b hb
    exact absurd ((Json.decode_eq_ok_iff_isDocument hd).mp hb).2 h
  · rfl

theorem gets_perform {bearer : String} (hbase : IsOrigin c.base) (htoken : c.token = pure ⟨bearer⟩)
    (hbearer : IsToken bearer) {task : Service.Task} {q : task.Request}
    (hanswer : w.peer (taskCall c.base bearer task q) = .answered r)
    (hsuccess : r.isSuccess = true) : c.Gets (.perform task q) w r := by
  have hrun : ExceptT.run (c.callFor (.perform task q)) =
      .done (.ok (taskCall c.base bearer task q)) := by
    rw [callFor, endpoint_task hbase]
    show ExceptT.run (c.token >>= _) = _
    rw [htoken]
    exact congrArg Program.done (call_task hbase hbearer task q)
  refine ⟨hsuccess, _, ?_, hanswer⟩
  rw [World.runCommand, hrun]
  rfl

theorem gets_wellKnown (hhttp : c.base.isHttp = true) (hpath : ∃ list, c.base.path = .segments list)
    (hanswer : w.peer (WellKnown.documentCall c.base) = .answered r)
    (hsuccess : r.isSuccess = true) : c.Gets .wellKnown w r := by
  have hdocument : (WellKnown.documentUrl c.base).isHttp = true := hhttp
  refine ⟨hsuccess, _, ?_, hanswer⟩
  rw [callFor, WellKnown.atPath_path hhttp hpath]
  simp only [hdocument, if_true]
  rfl

theorem exists_runCommand_ask_eq (h : c.Gets question w r) :
    ∃ call, (w.runCommand (c.ask question)).1 = question.outcome call (.answered r) := by
  obtain ⟨-, call, hcall, hanswer⟩ := h
  refine ⟨call, ?_⟩
  rw [runCommand_ask, hcall, ← hanswer]
  rfl

/-- Nothing but an answer makes a question succeed. -/
theorem exists_gets_of_ok {a : question.Answer} (h : (w.runCommand (c.ask question)).1 = .ok a) :
    ∃ r, c.Gets question w r := by
  rw [runCommand_ask] at h
  obtain ⟨call, hcall, h⟩ := Except.bind_ok h
  obtain ⟨r, hanswer, hsuccess⟩ := Question.exists_answered_of_outcome h
  exact ⟨r, hsuccess, call, hcall, hanswer⟩

theorem ask_eq_ok_iff (h : c.Gets question w r) {a : question.Answer} :
    (w.runCommand (c.ask question)).1 = .ok a ↔
      ∃ doc rest, r.body = doc ++ rest ∧ question.Reads doc a := by
  obtain ⟨call, hrun⟩ := exists_runCommand_ask_eq h
  rw [hrun, Question.outcome_answered_eq_ok_iff h.1,
    Json.decodeFirst_eq_ok_iff question.takesBrackets_decoder]
  constructor
  · rintro ⟨⟨doc, rest, hbody, hdocument, hdecode⟩, hadmits⟩
    exact ⟨doc, rest, hbody, hdocument, hdecode, hadmits⟩
  · rintro ⟨doc, rest, hbody, hdocument, hdecode, hadmits⟩
    exact ⟨⟨doc, rest, hbody, hdocument, hdecode⟩, hadmits⟩

/-- A client that is answered with success takes for its answer what the body begins with. So what
it succeeds with is a document unless the body goes on behind one, and where it fails, it says that
the body is of no use. -/
theorem isDocument_of_ask_iff (h : c.Gets question w r) :
    let result := (w.runCommand (c.ask question)).1
    ((∀ a, result = .ok a → IsDocument r.body) ↔ ¬question.Overlooks r.body) ∧
      (∀ a, result = .ok a ↔ ∃ doc rest, r.body = doc ++ rest ∧ question.Reads doc a) ∧
      ∀ e, result = .error e → question.Refuses e := by
  intro result
  have hd := question.takesBrackets_decoder
  refine ⟨⟨fun hwhole => ?_, fun hbody a ha => ?_⟩, fun a => ask_eq_ok_iff h, fun e he => ?_⟩
  · rintro ⟨doc, rest, a, hbody, hreads, hrest⟩
    have hdocument := hwhole a ((ask_eq_ok_iff h).mpr ⟨doc, rest, hbody, hreads⟩)
    rw [hbody] at hdocument
    exact hrest ((Json.isDocument_append_iff hd hreads.decode).mp hdocument)
  · obtain ⟨doc, rest, hsplit, hreads⟩ := (ask_eq_ok_iff h).mp ha
    rw [hsplit, Json.isDocument_append_iff hd hreads.decode]
    by_contra hrest
    exact hbody ⟨doc, rest, a, hsplit, hreads, hrest⟩
  · obtain ⟨call, hrun⟩ := exists_runCommand_ask_eq h
    exact Question.refuses_of_outcome h.1 (hrun.symm.trans he)

def sampleWorld (body : List UInt8) : World :=
  ⟨.ofBackend (.memory .empty) .empty, .empty, ⟨0, 0⟩, fun _ => .answered ⟨200, ⟨[]⟩, body⟩, ""⟩

abbrev sampleQuestion : Question := .perform .signOut ⟨"d", "a", .empty⟩

theorem gets_sampleQuestion (body : List UInt8) :
    sampleClient.Gets sampleQuestion (sampleWorld body) ⟨200, ⟨[]⟩, body⟩ :=
  gets_perform ⟨rfl, rfl, rfl, [], rfl⟩ rfl
    ⟨by decide, Text.visible_of_all rfl, by decide, by decide⟩ rfl rfl

/-- An empty object with a line break is one document; with a letter behind it, the letter is
overlooked. -/
theorem isDocument_of_ask_empty_object :
    let whole := Text.utf8 "\x7b\x7d\n"
    let more := Text.utf8 "\x7b\x7d x"
    IsDocument whole ∧ ¬sampleQuestion.Overlooks whole ∧ sampleQuestion.Overlooks more := by
  intro whole more
  have hwhole : IsDocument whole := by
    rw [Json.isDocument_iff]
    decide +kernel
  have hmore : ¬IsDocument more := by
    rw [Json.isDocument_iff]
    decide +kernel
  have hdone : ((sampleWorld more).runCommand (sampleClient.ask sampleQuestion)).1 = .ok {} := by
    decide +kernel
  refine ⟨hwhole, (isDocument_of_ask_iff (gets_sampleQuestion whole)).1.mp fun _ _ => hwhole, ?_⟩
  by_contra hmissed
  exact hmore ((isDocument_of_ask_iff (gets_sampleQuestion more)).1.mpr hmissed _ hdone)

/-- What is signed out is taken for done, and a document for fetched, with a body that is no
document. -/
theorem ask_eq_ok_of_not_isDocument :
    let acknowledged := Text.utf8 "\x7b\x7d x"
    let published := Text.utf8 WellKnown.sample.toJson.compact ++ [0x7D]
    (sampleClient.Gets sampleQuestion (sampleWorld acknowledged) ⟨200, ⟨[]⟩, acknowledged⟩ ∧
        ((sampleWorld acknowledged).runCommand (sampleClient.ask sampleQuestion)).1 = .ok {} ∧
        ¬IsDocument acknowledged) ∧
      sampleClient.Gets .wellKnown (sampleWorld published) ⟨200, ⟨[]⟩, published⟩ ∧
        ((sampleWorld published).runCommand (sampleClient.ask .wellKnown)).1 =
          .ok WellKnown.sample ∧
        ¬IsDocument published := by
  intro acknowledged published
  simp only [Json.isDocument_iff]
  refine ⟨⟨gets_sampleQuestion _, ?_, ?_⟩, gets_wellKnown rfl ⟨[], rfl⟩ rfl rfl, ?_, ?_⟩
  all_goals decide +kernel

end Client

end Api

end DeviceAuth
