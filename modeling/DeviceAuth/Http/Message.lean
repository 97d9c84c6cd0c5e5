import DeviceAuth.Text.Ascii
import DeviceAuth.Text.Utf8
import DeviceAuth.Url.Basic

/-! HTTP messages and what may become of a request that is sent out. -/
namespace DeviceAuth.Http

/-- Fields in order; the case of a name does not count. -/
structure Headers where
  fields : List (String × List UInt8)
  deriving DecidableEq, Repr

namespace Headers

def get? (h : Headers) (name : String) : Option (List UInt8) :=
  (h.fields.find? fun (n, _) => Text.equalsIgnoringCase n name).map (·.2)

def textOf? (value : List UInt8) : Option String :=
  if value.all fun b => (32 ≤ b && b < 127) || b == 9 then
    some (String.ofList (value.map fun b => Char.ofNat b.toNat))
  else none

def canHold (value : List UInt8) : Bool :=
  value.all fun b => (32 ≤ b && b ≠ 127) || b == 9

end Headers

structure Request where
  method : String
  path : String
  query : Option String
  headers : Headers
  body : List UInt8
  deriving DecidableEq, Repr

def splitTarget (target : String) : String × Option String :=
  let cs := target.toList.takeWhile (· ≠ '#')
  match Text.splitFirst '?' cs with
  | none => (String.ofList cs, none)
  | some (path, query) => (String.ofList path, some (String.ofList query))

structure Call where
  method : String
  url : Url
  headers : Headers
  body : List UInt8
  deriving DecidableEq, Repr

def Call.request (c : Call) : Request :=
  ⟨c.method, c.url.pathText, c.url.query, c.headers, c.body⟩

structure Response where
  status : Nat
  headers : Headers
  body : List UInt8
  deriving DecidableEq, Repr

def Response.isSuccess (r : Response) : Bool := 200 ≤ r.status && r.status < 300

/-- What comes back: nothing because no connection was made or time ran out, a connection that
broke, perhaps behind the head of an answer, a head whose body did not come in time, or an answer.
-/
inductive Delivery where
  | unreachable
  | timedOut
  | dropped
  | cutOff (head : Response)
  | stalled (head : Response)
  | answered (r : Response)
  deriving DecidableEq, Repr

def defaultTimeout : Nat := 10

abbrev Peer := Call → Delivery

def phrases : List (Nat × String) := [
  (100, "Continue"), (101, "Switching Protocols"), (102, "Processing"), (103, "Early Hints"),
  (200, "OK"), (201, "Created"), (202, "Accepted"), (203, "Non Authoritative Information"),
  (204, "No Content"), (205, "Reset Content"), (206, "Partial Content"), (207, "Multi-Status"),
  (208, "Already Reported"), (226, "IM Used"), (300, "Multiple Choices"),
  (301, "Moved Permanently"), (302, "Found"), (303, "See Other"), (304, "Not Modified"),
  (305, "Use Proxy"), (307, "Temporary Redirect"), (308, "Permanent Redirect"),
  (400, "Bad Request"), (401, "Unauthorized"), (402, "Payment Required"), (403, "Forbidden"),
  (404, "Not Found"), (405, "Method Not Allowed"), (406, "Not Acceptable"),
  (407, "Proxy Authentication Required"), (408, "Request Timeout"), (409, "Conflict"),
  (410, "Gone"), (411, "Length Required"), (412, "Precondition Failed"),
  (413, "Payload Too Large"), (414, "URI Too Long"), (415, "Unsupported Media Type"),
  (416, "Range Not Satisfiable"), (417, "Expectation Failed"), (418, "I'm a teapot"),
  (421, "Misdirected Request"), (422, "Unprocessable Entity"), (423, "Locked"),
  (424, "Failed Dependency"), (425, "Too Early"), (426, "Upgrade Required"),
  (428, "Precondition Required"), (429, "Too Many Requests"),
  (431, "Request Header Fields Too Large"), (451, "Unavailable For Legal Reasons"),
  (500, "Internal Server Error"), (501, "Not Implemented"), (502, "Bad Gateway"),
  (503, "Service Unavailable"), (504, "Gateway Timeout"), (505, "HTTP Version Not Supported"),
  (506, "Variant Also Negotiates"), (507, "Insufficient Storage"), (508, "Loop Detected"),
  (510, "Not Extended"), (511, "Network Authentication Required")]

def statusText (code : Nat) : String :=
  toString code ++ " " ++ ((phrases.find? (·.1 = code)).map (·.2)).getD "<unknown status code>"

end DeviceAuth.Http
