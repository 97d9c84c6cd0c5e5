import DeviceAuth.Http.Message

/-! Media types: `type/subtype` with parameters behind semicolons. A body is JSON if the type is
`application` and the subtype is `json` or ends in `+json`. -/
namespace DeviceAuth.Http.MediaType

def isToken (c : Char) : Bool :=
  c.isAlphanum || "!#$%&'*+-.^_`|~".toList.contains c

inductive Place where
  | nameStart
  | name
  | valueStart
  | value
  | quotedStart
  | quoted
  | afterQuoted

/-- Whether the parameters are well formed from here on. Blanks may stand before a name and behind a
quoted value; a quoted value is not empty. -/
def parameters : Place → List Char → Bool
  | .nameStart, [] => true
  | .nameStart, c :: rest =>
    if c = ' ' then parameters .nameStart rest else isToken c && parameters .name rest
  | .name, [] => false
  | .name, c :: rest =>
    if c = '=' then parameters .valueStart rest else isToken c && parameters .name rest
  | .valueStart, [] => true
  | .valueStart, c :: rest =>
    if c = '"' then parameters .quotedStart rest else isToken c && parameters .value rest
  | .value, [] => true
  | .value, c :: rest =>
    if c = ';' then parameters .nameStart rest else isToken c && parameters .value rest
  | .quotedStart, [] => false
  | .quotedStart, c :: rest => 31 < c.val && c.val ≠ 127 && parameters .quoted rest
  | .quoted, [] => false
  | .quoted, c :: rest =>
    if c = '"' then parameters .afterQuoted rest
    else 31 < c.val && c.val ≠ 127 && parameters .quoted rest
  | .afterQuoted, [] => true
  | .afterQuoted, c :: rest =>
    if c = ';' then parameters .nameStart rest else c = ' ' && parameters .afterQuoted rest

/-- The text before and behind the last plus that is not the first character. -/
def splitSuffix (subtype : List Char) : List Char × Option (List Char) :=
  match Text.splitFirst '+' subtype.reverse with
  | some (after, before) =>
    if before.isEmpty then (subtype, none) else (before.reverse, some after.reverse)
  | none => (subtype, none)

def isJsonText (s : String) : Bool :=
  match Text.splitFirst '/' (Text.lower s).toList with
  | none => false
  | some (type, rest) =>
    let (subtype, params) := match Text.splitFirst ';' rest with
      | none => (rest, none)
      | some (subtype, params) => (subtype, some params)
    let (main, suffix) := splitSuffix subtype
    String.ofList type == "application" && subtype.all isToken && !subtype.isEmpty &&
      params.all (parameters .nameStart) &&
      (String.ofList main == "json" || suffix.map String.ofList == some "json")

def isJson (h : Headers) : Bool :=
  match (h.get? "content-type").bind Headers.textOf? with
  | none => false
  | some s => isJsonText s

end DeviceAuth.Http.MediaType
