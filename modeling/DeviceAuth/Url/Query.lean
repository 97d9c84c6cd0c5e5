import DeviceAuth.Url.Parse

/-! Query pairs of a URL, in form encoding. Appending leaves the query that is there as it stands.
-/
namespace DeviceAuth.Url

def appendPairs (u : Url) (pairs : List (String × String)) : Url :=
  let added := String.ofList (Encoding.Form.encode pairs)
  let query := match u.query with
    | none | some "" => added
    | some old => old ++ "&" ++ added
  { u with query := some query }

def pairs (u : Url) : List (String × String) :=
  match u.query with
  | none => []
  | some query => Encoding.Form.decode (Text.utf8 query)

/-- The directory or file a file URL names; none if it names a host. -/
def filePath? (u : Url) : Option String :=
  match u.host, u.path with
  | none, .segments list | some (.domain ""), .segments list
  | some (.domain "localhost"), .segments list =>
    some (String.join (list.map fun s =>
      "/" ++ Text.ofUtf8Lossy (Encoding.percentDecode (Text.utf8 s))))
  | _, _ => none

end DeviceAuth.Url
