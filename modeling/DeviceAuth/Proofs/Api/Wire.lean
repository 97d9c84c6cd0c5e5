import DeviceAuth.Api.Client
import DeviceAuth.Proofs.Api.Server
import DeviceAuth.Proofs.Service.Message

/-! What a client sends is what the server reads: the route in the path, the token in the header,
and the request in the body. -/
namespace DeviceAuth

def Text.IsVisible (c : Char) : Prop := 32 ≤ c.toNat ∧ c.toNat < 127

namespace Text

variable {s : String}

theorem visible_of_all (h : s.toList.all (fun c => 32 ≤ c.toNat && c.toNat < 127) = true) :
    ∀ c ∈ s.toList, IsVisible c := by
  simpa [IsVisible] using h

theorem utf8_of_visible (h : ∀ c ∈ s.toList, IsVisible c) :
    utf8 s = s.toList.map fun c => UInt8.ofNat c.toNat := by
  rw [utf8_eq_encoded]
  exact encoded_ascii fun c hc => Nat.lt_succ_of_lt (h c hc).2

theorem toNat_byte {c : Char} (h : IsVisible c) : (UInt8.ofNat c.toNat).toNat = c.toNat :=
  toNat_byteOf (Nat.lt_succ_of_lt h.2)

theorem eq_space_of_isBlank {c : Char} (h : IsVisible c) (hblank : isBlank c = true) : c = ' ' := by
  obtain ⟨hlow, hhigh⟩ := h
  have hspace : c.toNat = 32 := by
    simp only [isBlank, Bool.or_eq_true, Bool.and_eq_true, decide_eq_true_eq, beq_iff_eq,
      UInt32.le_iff_toNat_le, ← UInt32.toNat_inj, Char.toNat_val, UInt32.reduceToNat] at hblank
    omega
  exact Char.toNat_inj.mp hspace

theorem trimList_eq_self {p : Char → Bool} {cs : List Char} (hstart : ∀ c ∈ cs.head?, p c = false)
    (hstop : ∀ c ∈ cs.getLast?, p c = false) : trimList p cs = cs := by
  have hdrop {cs : List Char} (h : ∀ c ∈ cs.head?, p c = false) : cs.dropWhile p = cs := by
    cases cs with
    | nil => rfl
    | cons c cs => simp [h c rfl]
  rw [trimList, hdrop hstart, hdrop, List.reverse_reverse]
  rwa [List.head?_reverse]

end Text

namespace Http.Headers

variable {s : String}

theorem textOf?_utf8 (h : ∀ c ∈ s.toList, Text.IsVisible c) :
    textOf? (Text.utf8 s) = some s := by
  have hall : ((Text.utf8 s).all fun b => (32 ≤ b && b < 127) || b == 9) = true := by
    rw [Text.utf8_of_visible h, List.all_map, List.all_eq_true]
    intro c hc
    have hbyte := Text.toNat_byte (h c hc)
    obtain ⟨hlow, hhigh⟩ := h c hc
    simp only [Function.comp, Bool.or_eq_true, Bool.and_eq_true, decide_eq_true_eq,
      UInt8.le_iff_toNat_le, UInt8.lt_iff_toNat_lt, hbyte]
    exact .inl ⟨hlow, hhigh⟩
  rw [textOf?, if_pos hall, Text.utf8_of_visible h, List.map_map]
  have hmap : s.toList.map ((fun b : UInt8 => Char.ofNat b.toNat) ∘
      fun c => UInt8.ofNat c.toNat) = s.toList := by
    refine (List.map_congr_left fun c hc => ?_).trans (List.map_id _)
    rw [Function.comp, Text.toNat_byte (h c hc), Char.ofNat_toNat]
    rfl
  rw [hmap, String.ofList_toList]

theorem canHold_utf8 (h : ∀ c ∈ s.toList, Text.IsVisible c) : canHold (Text.utf8 s) = true := by
  rw [canHold, Text.utf8_of_visible h, List.all_map, List.all_eq_true]
  intro c hc
  have hbyte := Text.toNat_byte (h c hc)
  obtain ⟨hlow, hhigh⟩ := h c hc
  simp only [Function.comp, Bool.or_eq_true, Bool.and_eq_true, decide_eq_true_eq,
    UInt8.le_iff_toNat_le, ne_eq, ← UInt8.toNat_inj, hbyte]
  exact .inl ⟨hlow, Nat.ne_of_lt hhigh⟩

end Http.Headers

namespace Api

/-- A token that can be sent as it is: printable, and with no blank at either end. -/
structure IsToken (bearer : String) : Prop where
  nonempty : bearer ≠ ""
  visible : ∀ c ∈ bearer.toList, Text.IsVisible c
  start : bearer.toList.head? ≠ some ' '
  stop : bearer.toList.getLast? ≠ some ' '

/-- A URL of which nothing but the scheme, the host and the port is used. -/
structure IsOrigin (base : Url) : Prop where
  isHttp : base.isHttp = true
  username : base.username = ""
  password : base.password = ""
  path : ∃ list, base.path = .segments list

variable {bearer : String} {base : Url}

theorem IsToken.trim_eq (h : IsToken bearer) : Text.trim bearer = bearer := by
  rw [Text.trim, Text.trimList_eq_self, String.ofList_toList]
  · intro c hc
    refine Bool.eq_false_iff.mpr fun hblank => h.start ?_
    exact Text.eq_space_of_isBlank (h.visible c (List.mem_of_mem_head? hc)) hblank ▸ hc
  · intro c hc
    refine Bool.eq_false_iff.mpr fun hblank => h.stop ?_
    exact Text.eq_space_of_isBlank (h.visible c (List.mem_of_getLast? hc)) hblank ▸ hc

theorem visible_authorization (h : IsToken bearer) :
    ∀ c ∈ ("Bearer " ++ bearer).toList, Text.IsVisible c := by
  intro c hc
  rw [String.toList_append] at hc
  rcases List.mem_append.mp hc with hc | hc
  · exact Text.visible_of_all rfl c hc
  · exact h.visible c hc

theorem bearer_authorizationValue (h : IsToken bearer) (fields : List (String × List UInt8)) :
    Api.bearer ⟨("authorization", Client.authorizationValue ⟨bearer⟩) :: fields⟩ = .ok bearer := by
  have hget : Http.Headers.get? ⟨("authorization", Client.authorizationValue ⟨bearer⟩) :: fields⟩
      "authorization" = some (Client.authorizationValue ⟨bearer⟩) := rfl
  have htext : Http.Headers.textOf? (Client.authorizationValue ⟨bearer⟩) =
      some ("Bearer" ++ " " ++ bearer) :=
    Http.Headers.textOf?_utf8 (visible_authorization h)
  simp only [Api.bearer, hget, htext]
  rw [bearerOfText_scheme (by decide), h.trim_eq, if_neg (by decide), if_neg h.nonempty]

namespace Client

variable {c : Client}

def posted (bearer : String) (task : Service.Task) (q : task.Request) : Http.Request :=
  ⟨"POST", (Route.task task).path, none,
    ⟨[("authorization", authorizationValue ⟨bearer⟩),
      ("content-type", Text.utf8 "application/json")]⟩,
    Text.utf8 (task.requestJson q).compact⟩

def taskUrl (base : Url) (task : Service.Task) : Url :=
  { base with
    path := .segments ["api", "v1", Route.taskName task]
    query := none
    fragment := none }

theorem endpoint_task (hbase : IsOrigin c.base) (task : Service.Task) :
    c.endpoint (.task task) = .ok (taskUrl c.base task) := by
  obtain ⟨list, hpath⟩ := hbase.path
  have hsegments : Url.pathSegments c.base.scheme (Route.task task).path.toList =
      ["api", "v1", Route.taskName task] := by
    have hscheme : c.base.scheme = "http" ∨ c.base.scheme = "https" := by
      simpa [Url.isHttp] using hbase.isHttp
    rcases hscheme with hscheme | hscheme <;> rw [hscheme] <;> cases task <;> decide
  rw [endpoint, Url.atPath, hpath]
  dsimp only
  rw [hsegments]
  rfl

theorem pathText_taskUrl (base : Url) (task : Service.Task) :
    (taskUrl base task).withoutUserinfo.pathText = (Route.task task).path := by
  have htext : Url.Path.text (.segments ["api", "v1", Route.taskName task]) =
      (Route.task task).path := by
    cases task <;> decide
  unfold Url.pathText
  split
  · rename_i hpath
    simp [taskUrl, Url.withoutUserinfo] at hpath
  · exact htext

def taskCall (base : Url) (bearer : String) (task : Service.Task) (q : task.Request) : Http.Call :=
  ⟨"POST", (taskUrl base task).withoutUserinfo, (posted bearer task q).headers,
    (posted bearer task q).body⟩

theorem request_taskCall (base : Url) (bearer : String) (task : Service.Task) (q : task.Request) :
    (taskCall base bearer task q).request = posted bearer task q := by
  rw [Http.Call.request, taskCall, pathText_taskUrl]
  rfl

theorem call_task (hbase : IsOrigin base) (hbearer : IsToken bearer) (task : Service.Task)
    (q : task.Request) :
    call "POST" (taskUrl base task) ⟨bearer⟩ (some (task.requestJson q)) =
      .ok (taskCall base bearer task q) := by
  have hhold : Http.Headers.canHold (authorizationValue ⟨bearer⟩) = true :=
    Http.Headers.canHold_utf8 (visible_authorization hbearer)
  have hhttp : (taskUrl base task).isHttp = true := hbase.isHttp
  have hheaders : headers (taskUrl base task) ⟨bearer⟩ (some (task.requestJson q)) =
      (posted bearer task q).headers := by
    rw [headers, Http.basicFields, if_pos ⟨hbase.username, hbase.password⟩]
    rfl
  rw [call, hhold, hhttp, hheaders]
  rfl

theorem run_perform (hbase : IsOrigin c.base) (htoken : c.token = pure ⟨bearer⟩)
    (hbearer : IsToken bearer) (task : Service.Task) (q : task.Request) :
    ExceptT.run (c.perform task q) =
      .step (.send (taskCall c.base bearer task q)) fun delivery =>
        .done (ofDelivery task.answerDecoder (taskCall c.base bearer task q).url delivery) := by
  rw [perform, endpoint_task hbase]
  show ExceptT.run (c.token >>= _) = _
  rw [htoken]
  show ExceptT.run (Command.ofExcept (call "POST" (taskUrl c.base task) ⟨bearer⟩
    (some (task.requestJson q))) >>= _) = _
  rw [call_task hbase hbearer]
  rfl

end Client

end Api

end DeviceAuth
