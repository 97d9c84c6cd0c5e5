import DeviceAuth.Json.Decode
import DeviceAuth.OAuth.Config
import DeviceAuth.Url.Query

/-! The question for an authorization URL: for which client, as a query pair, and the answer with
the URL and the state that it carries. -/
namespace DeviceAuth.Api

/-- The client that a URL is for: a device that is brought in, or a console. -/
inductive Audience where
  | device
  | console
  deriving DecidableEq, Repr

namespace Audience

def name : Audience → String
  | .device => "device"
  | .console => "sdk"

def all : List Audience := [.device, .console]

def ofName? (s : String) : Option Audience := all.find? (·.name = s)

def key : String := "client"

/-- Reads the pairs of a query in order. The key may be given once; other keys do not count. -/
def ofPairs (seen : Option Audience) : List (String × String) → Except String (Option Audience)
  | [] => .ok seen
  | (k, v) :: rest =>
    if k ≠ key then ofPairs seen rest
    else if seen.isSome then .error (Json.Mismatch.duplicate key).message
    else match ofName? v with
      | none => .error (key ++ ": " ++ (Json.Mismatch.variant v (all.map name)).message)
      | some audience => ofPairs (some audience) rest

def ofQuery (query : Option String) : Except String Audience :=
  let pairs := match query with
    | none => []
    | some text => Encoding.Form.decode (Text.utf8 text)
  (ofPairs none pairs).map fun found => found.getD .device

end Audience

structure AuthorizeUrlAnswer where
  url : String
  state : String
  deriving DecidableEq

namespace AuthorizeUrlAnswer

def toJson (a : AuthorizeUrlAnswer) : Json :=
  .object [("url", .string a.url), ("state", .string a.state)]

structure Members where
  url : Option String := none
  state : Option String := none

open Json.Decoder in
def decoder : Json.Decoder AuthorizeUrlAnswer :=
  Shape.decoder {
    name := "AuthorizeUrlResponse"
    fields := [
      .of "url" string (·.url) fun a s => { s with url := some a },
      .of "state" string (·.state) fun a s => { s with state := some a }]
    start := ({} : Members)
    defaults := false
    listed := true
    other := skip
    finish := fun s => do return ⟨← required "url" s.url, ← required "state" s.state⟩ }

end AuthorizeUrlAnswer

end DeviceAuth.Api
