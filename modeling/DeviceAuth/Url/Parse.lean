import DeviceAuth.Text.Blank
import DeviceAuth.Url.Host

/-! Reading a URL. The text is cut at its delimiters from left to right: scheme, authority, path,
query, fragment; dot segments are resolved on the way. -/
namespace DeviceAuth.Url

def keepsVisible (others : List Char) (c : Char) : Bool :=
  0x20 < c.val && c.val < 0x7F && !others.contains c

/-- The characters that may stand unescaped in each part. -/
def keptInFragment : Char → Bool := keepsVisible ['"', '<', '>', '\x60']
def keptInPath : Char → Bool := keepsVisible ['"', '<', '>', '\x60', '#', '?', '\x7b', '\x7d']
def keptInUserinfo : Char → Bool :=
  keepsVisible ['"', '<', '>', '\x60', '#', '?', '\x7b', '\x7d', '/', ':', ';', '=', '@', '[', '\\',
    ']', '^', '|']
def keptInQuery : Char → Bool := keepsVisible ['"', '#', '<', '>']
def keptInSpecialQuery : Char → Bool := keepsVisible ['"', '#', '<', '>', '\'']
def keptInOpaque (c : Char) : Bool := 0x1F < c.val && c.val < 0x7F

def encoded (keep : Char → Bool) (cs : List Char) : String :=
  String.ofList (Encoding.percentEncode keep cs)

/-- Controls and blanks around a URL, and tabs and line breaks inside it, do not count. -/
def cleaned (s : String) : List Char :=
  (Text.trimList (fun c => c.val ≤ 0x20) s.toList).filter
    fun c => c ≠ '\t' ∧ c ≠ '\n' ∧ c ≠ '\r'

def isSchemeChar (c : Char) : Bool :=
  c.isAlphanum || c == '+' || c == '-' || c == '.'

def splitScheme (cs : List Char) : Option (String × List Char) :=
  match cs with
  | [] => none
  | first :: _ =>
    match cs.dropWhile isSchemeChar with
    | ':' :: rest =>
      if first.isAlpha then
        some (String.ofList ((cs.takeWhile isSchemeChar).map Char.toLower), rest)
      else none
    | _ => none

def splitTail (cs : List Char) : List Char × Option (List Char) × Option (List Char) :=
  let (front, fragment) := match Text.splitFirst '#' cs with
    | none => (cs, none)
    | some (front, fragment) => (front, some fragment)
  match Text.splitFirst '?' front with
  | none => (front, none, fragment)
  | some (front, query) => (front, some query, fragment)

def isSlash (special : Bool) (c : Char) : Bool :=
  c == '/' || (special && c == '\\')

def isDriveLetter : List Char → Bool
  | [c, d] => c.isAlpha && (d == ':' || d == '|')
  | _ => false

def isSingleDot (segment : List Char) : Bool :=
  let s := String.ofList (segment.map Char.toLower)
  s == "." || s == "%2e"

def isDoubleDot (segment : List Char) : Bool :=
  let s := String.ofList (segment.map Char.toLower)
  s == ".." || s == ".%2e" || s == "%2e." || s == "%2e%2e"

/-- Drops the last of the segments, which are in reverse; a lone drive letter of a file stays. -/
def shorten (file : Bool) : List String → List String
  | [drive] => if file && isDriveLetter drive.toList then [drive] else []
  | _ :: rest => rest
  | [] => []

/-- Resolves dot segments; the segments so far are in reverse. -/
def resolve (file : Bool) (path : List String) : List (List Char) → List String
  | [] => path.reverse
  | segment :: rest =>
    let last := rest.isEmpty
    if isDoubleDot segment then
      let path := shorten file path
      resolve file (if last then "" :: path else path) rest
    else if isSingleDot segment then resolve file (if last then "" :: path else path) rest
    else
      let text := if file && path.isEmpty && isDriveLetter segment then
          String.ofList [segment.headD 'C', ':']
        else encoded keptInPath segment
      resolve file (text :: path) rest

/-- The segments of a path; a slash at its start is no segment. -/
def pathSegments (scheme : String) (cs : List Char) : List String :=
  let special := isSpecial scheme
  let file := scheme == "file"
  let cs := match cs with
    | c :: rest => if isSlash special c then rest else c :: rest
    | [] => []
  let segments := resolve file [] (cs.splitOnP (isSlash special))
  if file then
    match segments.dropWhile (· = "") with
    | [] => [""]
    | rest => rest
  else segments

def port? (scheme : String) (cs : List Char) : Except ParseError (Option Nat) :=
  let digits := cs.takeWhile (· ≠ '\\')
  if digits.isEmpty then .ok none
  else match Text.digits? digits with
    | none => .error .invalidPort
    | some n =>
      if n > 65535 then .error .invalidPort
      else .ok (if defaultPort? scheme = some n then none else some n)

/-- Host and port text; colons in brackets belong to the host. -/
def splitPort : Bool → List Char → List Char × Option (List Char)
  | _, [] => ([], none)
  | inside, c :: rest =>
    if c = ':' ∧ !inside then ([], some rest)
    else
      let inside := if c = '[' then true else if c = ']' then false else inside
      let (host, port) := splitPort inside rest
      (c :: host, port)

def splitLastAt (cs : List Char) : Option (List Char × List Char) :=
  (Text.splitFirst '@' cs.reverse).map fun (after, before) => (before.reverse, after.reverse)

structure Authority where
  username : String
  password : String
  host : Host
  port : Option Nat

def parseAuthority [Idna] (scheme : String) (cs : List Char) : Except ParseError Authority := do
  let (userinfo, server) ← match splitLastAt cs with
    | none => pure ([], cs)
    | some (_, []) => throw .emptyHost
    | some (userinfo, server) => pure (userinfo, server)
  let (username, password) := (Text.splitFirst ':' userinfo).getD (userinfo, [])
  let (hostText, portText) := splitPort false server
  let host ←
    if isSpecial scheme then
      if hostText.isEmpty then throw ParseError.emptyHost else parseHost hostText
    else parseOpaqueHost hostText
  if hostText.isEmpty ∧ (portText.isSome ∨ !userinfo.isEmpty) then throw .emptyHost
  let port ← match portText with
    | none => pure none
    | some digits => port? scheme digits
  return ⟨encoded keptInUserinfo username, encoded keptInUserinfo password, host, port⟩

def plain (scheme : String) (host : Option Host) (path : Path) : Url :=
  ⟨scheme, "", "", host, none, path, none, none⟩

/-- The text of a file URL behind `file:`. The host `localhost` and a drive letter count as none. -/
def parseFile [Idna] (cs : List Char) : Except ParseError Url :=
  let anonymous : Option Host := some (.domain "")
  match cs with
  | a :: b :: rest =>
    if isSlash true a && isSlash true b then
      let hostText := rest.takeWhile (!isSlash true ·)
      if isDriveLetter hostText then
        .ok (plain "file" anonymous (.segments (pathSegments "file" rest)))
      else do
        let path := Path.segments (pathSegments "file" (rest.dropWhile (!isSlash true ·)))
        if hostText.isEmpty then return plain "file" anonymous path
        match ← parseHost hostText with
        | .domain "localhost" => return plain "file" anonymous path
        | host => return plain "file" (some host) path
    else .ok (plain "file" anonymous (.segments (pathSegments "file" cs)))
  | cs => .ok (plain "file" anonymous (.segments (pathSegments "file" cs)))

def withAuthority [Idna] (scheme : String) (cs : List Char) : Except ParseError Url := do
  let special := isSpecial scheme
  let a ← parseAuthority scheme (cs.takeWhile (!isSlash special ·))
  let rest := cs.dropWhile (!isSlash special ·)
  let path := if rest.isEmpty ∧ !special then [] else pathSegments scheme rest
  return ⟨scheme, a.username, a.password, some a.host, a.port, .segments path, none, none⟩

def parseFront [Idna] (scheme : String) (cs : List Char) : Except ParseError Url :=
  if scheme == "file" then parseFile cs
  else if isSpecial scheme then withAuthority scheme (cs.dropWhile (isSlash true))
  else match cs with
    | '/' :: '/' :: rest => withAuthority scheme rest
    | '/' :: rest => .ok (plain scheme none (.segments (pathSegments scheme ('/' :: rest))))
    | _ => .ok (plain scheme none (.opaquePath (encoded keptInOpaque cs)))

def parse [Idna] (s : String) : Except ParseError Url :=
  match splitScheme (cleaned s) with
  | none => .error .relativeWithoutBase
  | some (scheme, rest) => do
    let (front, query, fragment) := splitTail rest
    let url ← parseFront scheme front
    let keep := if isSpecial scheme then keptInSpecialQuery else keptInQuery
    return { url with
      query := query.map (encoded keep)
      fragment := fragment.map (encoded keptInFragment) }

def atPath (base : Url) (path : String) : Except ParseError Url :=
  match base.path with
  | .opaquePath _ => .error .relativeToOpaque
  | .segments _ => .ok { base with
      path := .segments (pathSegments base.scheme path.toList), query := none, fragment := none }

def withoutUserinfo (u : Url) : Url := { u with username := "", password := "" }

end DeviceAuth.Url
