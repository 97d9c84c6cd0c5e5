import DeviceAuth.Encoding.Base64
import DeviceAuth.Encoding.Percent
import DeviceAuth.Http.Message

/-! User name and password of a URL, as they are sent. -/
namespace DeviceAuth.Http

def basicFields (url : Url) : List (String × List UInt8) :=
  if url.username = "" ∧ url.password = "" then []
  else
    let plain (s : String) : List UInt8 := Encoding.percentDecode (Text.utf8 s)
    let pair := plain url.username ++ Text.utf8 ":" ++ plain url.password
    [("authorization",
      Text.utf8 ("Basic " ++ String.ofList (Encoding.Base64.standard.encodePadded pair)))]

end DeviceAuth.Http
