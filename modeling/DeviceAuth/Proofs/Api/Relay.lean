import DeviceAuth.Api.Client
import DeviceAuth.Proofs.Api.Server
import Mathlib.Logic.Function.Iterate

/-! Errors on their way to a client. The answer to a failed call names the kind of its error and
holds the whole message; who reads the answer takes that message for the reason. The kind arrives
as it was sent, and the reason is wrapped into the words of its kind once more at every hop. -/
namespace DeviceAuth

namespace Error

/-- What a kind of error is taken for on the other side. -/
def Kind.relayed : Kind → Kind
  | .storage | .transport => .transient
  | kind => kind

/-- The kinds of errors that give a reason, each with the words that its message begins with. -/
inductive Worded : (String → Error) → String → Prop where
  | insufficientScope : Worded .insufficientScope "Token lacks the required scopes: "
  | invalidGrant : Worded .invalidGrant "Provider rejected the grant: "
  | invalidClient : Worded .invalidClient "Client authentication failed: "
  | invalidArgument : Worded .invalidArgument "Invalid argument: "
  | unauthenticated : Worded .unauthenticated "Unauthenticated: "
  | permissionDenied : Worded .permissionDenied "Permission denied: "
  | notFound : Worded .notFound "Not found: "

/-- A reason with the words of its kind before it and a period behind it, a number of times. -/
def nested (words : String) : Nat → String → String
  | 0, reason => reason
  | n + 1, reason => words ++ nested words n reason ++ "."

theorem length_nested (words : String) (n : Nat) (reason : String) :
    (nested words n reason).length = n * (words.length + 1) + reason.length := by
  induction n with
  | zero => simp [nested]
  | succ n ih =>
    have hperiod : ".".length = 1 := rfl
    rw [nested, String.length_append, String.length_append, ih, hperiod, Nat.succ_mul]
    omega

variable {make : String → Error} {words : String}

theorem Worded.message_eq (h : Worded make words) (reason : String) :
    (make reason).message = words ++ reason ++ "." := by
  cases h <;> rfl

theorem Worded.kind_eq (h : Worded make words) (reason reason' : String) :
    (make reason).kind = (make reason').kind := by
  cases h <;> rfl

theorem Worded.injective (h : Worded make words) : Function.Injective make := by
  intro reason reason' hsame
  cases h <;> injection hsame

end Error

namespace Api

open Error

def relayed (e : Error) : Error := Client.failure (errorResponse e)

theorem relayed_eq (e : Error) :
    relayed e = ErrorBody.toError ⟨e.kind.name, e.message⟩ e.httpStatus := by
  rw [relayed, Client.failure, decode_errorResponse]
  rfl

theorem kind_relayed (e : Error) : (relayed e).kind = e.kind.relayed := by
  rw [relayed_eq]
  cases e <;> rfl

theorem relayed_of_worded {make : String → Error} {words : String} (h : Worded make words)
    (reason : String) : relayed (make reason) = make (words ++ reason ++ ".") := by
  rw [relayed_eq, h.message_eq]
  cases h <;> rfl

/-- Over any number of hops an error keeps its kind, and its reason grows by the words of the kind
at each of them: it is the error that was sent only where there is no hop at all. -/
theorem iterate_relayed {make : String → Error} {words : String} (h : Worded make words)
    (reason : String) (n : Nat) :
    relayed^[n] (make reason) = make (nested words n reason) ∧
      (relayed^[n] (make reason)).kind = (make reason).kind ∧
      (relayed^[n] (make reason)).message = nested words (n + 1) reason ∧
      (relayed^[n] (make reason) = make reason ↔ n = 0) := by
  have hnested : relayed^[n] (make reason) = make (nested words n reason) := by
    induction n with
    | zero => rfl
    | succ n ih => rw [Function.iterate_succ_apply', ih, relayed_of_worded h, nested]
  refine ⟨hnested, hnested ▸ h.kind_eq _ _, hnested ▸ h.message_eq _, fun hsame => ?_, ?_⟩
  · rw [hnested] at hsame
    have hlength := congrArg String.length (h.injective hsame)
    rw [length_nested, Nat.mul_succ] at hlength
    omega
  · rintro rfl
    rfl

/-- Through a server in the middle, a missing route is reported in words that say so three times. -/
theorem iterate_relayed_twice :
    relayed^[2] (.notFound "no route for /x") =
      .notFound "Not found: Not found: no route for /x.." ∧
    (relayed^[2] (.notFound "no route for /x")).message =
      "Not found: Not found: Not found: no route for /x..." := by
  obtain ⟨hnested, -, hmessage, -⟩ := iterate_relayed .notFound "no route for /x" 2
  exact ⟨hnested, hmessage⟩

/-- A refused argument is not the error that the service came to, but one about its message. -/
theorem relayed_ne_of_refused_argument :
    relayed (.invalidArgument "device_id is required") =
        .invalidArgument "Invalid argument: device_id is required." ∧
      relayed (.invalidArgument "device_id is required") ≠
        .invalidArgument "device_id is required" := by
  have hrelayed := relayed_of_worded .invalidArgument "device_id is required"
  refine ⟨hrelayed, ?_⟩
  rw [hrelayed]
  decide

end Api

end DeviceAuth
