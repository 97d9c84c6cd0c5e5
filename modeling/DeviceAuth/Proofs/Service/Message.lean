import DeviceAuth.Proofs.Record
import DeviceAuth.Service.Task

/-! Requests and answers are read as they were written, whatever their texts hold, as long as a
number of seconds is one of 64 bits. -/
namespace DeviceAuth

namespace Json

@[simp] theorem isExact_string (s : String) : (Json.string s).IsExact := .string s

@[simp] theorem isExact_strings (items : List String) : (Json.strings items).IsExact := by
  refine .array fun v hv => ?_
  obtain ⟨text, -, rfl⟩ := List.mem_map.mp hv
  exact .string text

@[simp] theorem isExact_object_iff {members : List (String × Json)} :
    (Json.object members).IsExact ↔ ∀ m ∈ members, m.2.IsExact :=
  ⟨fun h => by cases h; assumption, .object⟩

theorem Decoder.strings_reading (levels : Nat) (items : List String) :
    list string (levels + 2) (Json.strings items).reading = .ok items :=
  list_reading fun text _ => string_reading (levels + 1) text

end Json

namespace Service

open Json.Decoder (string_reading strings_reading)
open Json.Decoder.Shape (decoder_object fromMembers_cons)

def FitsSeconds (n : Int) : Prop := Decimal.signedStart 64 ≤ n ∧ n ≤ Decimal.signedEnd 64 - 1

theorem isExact_seconds {n : Int} (h : FitsSeconds n) : (Json.int n).IsExact := by
  obtain ⟨hlow, hhigh⟩ := h
  exact .number (Json.Number.isExact_ofInt hlow (le_trans hhigh (by decide)))

theorem secondsDecoder_reading {n : Int} (h : FitsSeconds n) (levels : Nat) :
    secondsDecoder levels (Json.int n).reading = .ok n := by
  obtain ⟨hlow, hhigh⟩ := h
  have hexact := Json.Number.isExact_ofInt hlow (le_trans hhigh (by decide))
  exact Json.Decoder.integer_reading levels hexact hlow hhigh

theorem SignUpRequest.decoder_reading (q : SignUpRequest) (levels : Nat) :
    decoder (levels + 2) q.toJson.reading = .ok q := by
  have hdevice := string_reading (levels + 1) q.device
  have hcode := q.code.decoder_reading (levels + 1)
  have hprovider := string_reading (levels + 1) q.provider
  let s : Members := ⟨some q.device, some q.code, some q.provider⟩
  refine (decoder_object (s := s) ?_).trans rfl
  simp only [List.map_cons, List.map_nil]
  rw [fromMembers_cons hdevice rfl rfl, fromMembers_cons hcode rfl rfl,
    fromMembers_cons hprovider rfl rfl]
  rfl

theorem SessionRequest.decoder_reading (q : SessionRequest) (levels : Nat) :
    decoder (levels + 2) q.toJson.reading = .ok q := by
  have hdevice := string_reading (levels + 1) q.device
  have huser := string_reading (levels + 1) q.user
  have haccess := q.accessToken.decoder_reading (levels + 1)
  let s : Members := ⟨some q.device, some q.user, some q.accessToken⟩
  refine (decoder_object (s := s) ?_).trans rfl
  simp only [List.map_cons, List.map_nil]
  rw [fromMembers_cons hdevice rfl rfl, fromMembers_cons huser rfl rfl,
    fromMembers_cons haccess rfl rfl]
  rfl

theorem RefreshRequest.decoder_reading (q : RefreshRequest) (levels : Nat) :
    decoder (levels + 2) q.toJson.reading = .ok q := by
  have hdevice := string_reading (levels + 1) q.device
  have huser := string_reading (levels + 1) q.user
  have hrefresh := q.refreshToken.decoder_reading (levels + 1)
  let s : Members := ⟨some q.device, some q.user, some q.refreshToken⟩
  refine (decoder_object (s := s) ?_).trans rfl
  simp only [List.map_cons, List.map_nil]
  rw [fromMembers_cons hdevice rfl rfl, fromMembers_cons huser rfl rfl,
    fromMembers_cons hrefresh rfl rfl]
  rfl

theorem ListRequest.decoder_reading (q : ListRequest) (levels : Nat) :
    decoder (levels + 4) q.toJson.reading = .ok q := by
  have husers := strings_reading (levels + 1) q.users
  have hdevices := strings_reading (levels + 1) q.devices
  let s : Members := ⟨some q.users, some q.devices⟩
  refine (decoder_object (s := s) ?_).trans rfl
  simp only [List.map_cons, List.map_nil]
  rw [fromMembers_cons husers rfl rfl, fromMembers_cons hdevices rfl rfl]
  rfl

theorem DeleteRequest.decoder_reading (q : DeleteRequest) (levels : Nat) :
    decoder (levels + 4) q.toJson.reading = .ok q := by
  have hdevices := strings_reading (levels + 1) q.devices
  refine (decoder_object (s := some q.devices) ?_).trans rfl
  simp only [List.map_cons, List.map_nil]
  rw [fromMembers_cons hdevices rfl rfl]
  rfl

theorem SignUpAnswer.decoder_reading {a : SignUpAnswer} (h : FitsSeconds a.expiresIn)
    (levels : Nat) : decoder (levels + 2) a.toJson.reading = .ok a := by
  have haccess := a.accessToken.decoder_reading (levels + 1)
  have huser := string_reading (levels + 1) a.user
  have hrefresh := a.refreshToken.decoder_reading (levels + 1)
  have hexpires := secondsDecoder_reading h (levels + 1)
  have hredirect := string_reading (levels + 1) a.redirectUri
  let s : Members := ⟨some a.accessToken, some a.user, some a.refreshToken, some a.expiresIn,
    some a.redirectUri⟩
  refine (decoder_object (s := s) ?_).trans rfl
  simp only [List.map_cons, List.map_nil]
  rw [fromMembers_cons haccess rfl rfl, fromMembers_cons huser rfl rfl,
    fromMembers_cons hrefresh rfl rfl, fromMembers_cons hexpires rfl rfl,
    fromMembers_cons hredirect rfl rfl]
  rfl

theorem SignInAnswer.decoder_reading {a : SignInAnswer} (h : FitsSeconds a.expiresIn)
    (levels : Nat) : decoder (levels + 2) a.toJson.reading = .ok a := by
  have hexpires := secondsDecoder_reading h (levels + 1)
  refine (decoder_object (s := some a.expiresIn) ?_).trans rfl
  simp only [List.map_cons, List.map_nil]
  rw [fromMembers_cons hexpires rfl rfl]
  rfl

theorem Acknowledgement.decoder_reading (name : String) (a : Acknowledgement) (levels : Nat) :
    decoder name (levels + 2) a.toJson.reading = .ok a :=
  decoder_object rfl

theorem RefreshAnswer.decoder_reading {a : RefreshAnswer} (h : FitsSeconds a.expiresIn)
    (levels : Nat) : decoder (levels + 2) a.toJson.reading = .ok a := by
  have haccess := a.accessToken.decoder_reading (levels + 1)
  have hrefresh := a.refreshToken.decoder_reading (levels + 1)
  have hexpires := secondsDecoder_reading h (levels + 1)
  let s : Members := ⟨some a.accessToken, some a.refreshToken, some a.expiresIn⟩
  refine (decoder_object (s := s) ?_).trans rfl
  simp only [List.map_cons, List.map_nil]
  rw [fromMembers_cons haccess rfl rfl, fromMembers_cons hrefresh rfl rfl,
    fromMembers_cons hexpires rfl rfl]
  rfl

theorem UserDevice.decoder_reading (d : UserDevice) (levels : Nat) :
    decoder (levels + 2) d.toJson.reading = .ok d := by
  have hdevice := string_reading (levels + 1) d.device
  have huser := string_reading (levels + 1) d.user
  let s : Members := ⟨some d.device, some d.user⟩
  refine (decoder_object (s := s) ?_).trans rfl
  simp only [List.map_cons, List.map_nil]
  rw [fromMembers_cons hdevice rfl rfl, fromMembers_cons huser rfl rfl]
  rfl

theorem ListAnswer.decoder_reading (a : ListAnswer) (levels : Nat) :
    decoder (levels + 4) a.toJson.reading = .ok a := by
  have hdevices : Json.Decoder.list UserDevice.decoder (levels + 3)
      (Json.array (a.devices.map UserDevice.toJson)).reading = .ok a.devices :=
    Json.Decoder.list_reading fun d _ => d.decoder_reading levels
  refine (decoder_object (s := some a.devices) ?_).trans rfl
  simp only [List.map_cons, List.map_nil]
  rw [fromMembers_cons hdevices rfl rfl]
  rfl

theorem DeleteAnswer.decoder_reading (a : DeleteAnswer) (levels : Nat) :
    decoder (levels + 4) a.toJson.reading = .ok a := by
  have hdevices := strings_reading (levels + 1) a.devices
  refine (decoder_object (s := some a.devices) ?_).trans rfl
  simp only [List.map_cons, List.map_nil]
  rw [fromMembers_cons hdevices rfl rfl]
  rfl

namespace Task

theorem isExact_requestJson (task : Task) (q : task.Request) : (task.requestJson q).IsExact := by
  cases task <;> simp [requestJson, SignUpRequest.toJson, SessionRequest.toJson,
    RefreshRequest.toJson, ListRequest.toJson, DeleteRequest.toJson, Secret.isExact_toJson]

theorem requestDecoder_reading (task : Task) (q : task.Request) (levels : Nat) :
    task.requestDecoder (levels + 4) (task.requestJson q).reading = .ok q := by
  cases task with
  | signUp => exact SignUpRequest.decoder_reading q (levels + 2)
  | signIn | signOut | signOff => exact SessionRequest.decoder_reading q (levels + 2)
  | refresh => exact RefreshRequest.decoder_reading q (levels + 2)
  | listDevices => exact ListRequest.decoder_reading q levels
  | deleteDevices => exact DeleteRequest.decoder_reading q levels

def Fits : (task : Task) → task.Answer → Prop
  | .signUp, a => FitsSeconds a.expiresIn
  | .signIn, a => FitsSeconds a.expiresIn
  | .refresh, a => FitsSeconds a.expiresIn
  | .signOut, _ | .signOff, _ | .listDevices, _ | .deleteDevices, _ => True

theorem isExact_answerJson (task : Task) {a : task.Answer} (h : task.Fits a) :
    (task.answerJson a).IsExact := by
  cases task with
  | signUp => simp [answerJson, SignUpAnswer.toJson, Secret.isExact_toJson, isExact_seconds h]
  | signIn => simp [answerJson, SignInAnswer.toJson, isExact_seconds h]
  | signOut | signOff => simp [answerJson, Acknowledgement.toJson]
  | refresh => simp [answerJson, RefreshAnswer.toJson, Secret.isExact_toJson, isExact_seconds h]
  | listDevices =>
    simp only [answerJson, ListAnswer.toJson, Json.isExact_object_iff, List.mem_singleton,
      forall_eq]
    refine .array fun v hv => ?_
    obtain ⟨d, -, rfl⟩ := List.mem_map.mp hv
    simp [UserDevice.toJson]
  | deleteDevices => simp [answerJson, DeleteAnswer.toJson]

theorem answerDecoder_reading (task : Task) {a : task.Answer} (h : task.Fits a) (levels : Nat) :
    task.answerDecoder (levels + 4) (task.answerJson a).reading = .ok a := by
  cases task with
  | signUp => exact SignUpAnswer.decoder_reading h (levels + 2)
  | signIn => exact SignInAnswer.decoder_reading h (levels + 2)
  | signOut => exact Acknowledgement.decoder_reading "SignOutResponse" a (levels + 2)
  | signOff => exact Acknowledgement.decoder_reading "SignOffResponse" a (levels + 2)
  | refresh => exact RefreshAnswer.decoder_reading h (levels + 2)
  | listDevices => exact ListAnswer.decoder_reading a levels
  | deleteDevices => exact DeleteAnswer.decoder_reading a levels

end Task

end Service

end DeviceAuth
