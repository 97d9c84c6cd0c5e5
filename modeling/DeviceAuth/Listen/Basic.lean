import DeviceAuth.Listen.Pem
import DeviceAuth.Store.Disk
import DeviceAuth.Text.Blank
import DeviceAuth.Url.Parse

/-! How connections are secured: not at all, with a certificate from files, or with one that is
issued automatically. Automatic issuance is only checked for, it is not available. -/
namespace DeviceAuth.Listen

open Store (Disk FilePath.join)

structure AcmeConfig where
  caPool : String
  directoryUrl : String
  domains : List String
  email : String
  /-- Seconds between two looks at the certificate. -/
  tick : Nat
  useSystemPool : Bool
  deriving DecidableEq, Repr

/-- Files of a certificate and its key. With a CA pool, clients have to show certificates too. -/
structure FileConfig where
  caPool : String
  directory : String
  certificateName : String
  keyName : String
  useSystemPool : Bool
  deriving DecidableEq, Repr

inductive Config where
  | acme (c : AcmeConfig)
  | file (c : FileConfig)
  | plain
  deriving DecidableEq, Repr

inductive Error where
  | unreadable (path : String)
  | noCertificate (path : String)
  | noPrivateKey (path : String)
  | unusable
  | invalidAcme (reason : String)
  | acmeUnavailable (directoryUrl : String)
  deriving DecidableEq, Repr

/-- Material that cannot be used has no words of its own. -/
def Error.message : Error → String
  | .unreadable path => "Failed to read " ++ path ++ "."
  | .noCertificate path => "No certificate found in " ++ path ++ "."
  | .noPrivateKey path => "No private key found in " ++ path ++ "."
  | .unusable => ""
  | .invalidAcme reason => "ACME settings are invalid: " ++ reason ++ "."
  | .acmeUnavailable url =>
    "ACME certificate issuance from " ++ url ++
      " is not available; use LISTEN_TYPE=file or none."

namespace AcmeConfig

def fault? [Url.Idna] (c : AcmeConfig) : Option String :=
  match Url.parse c.directoryUrl with
  | .error e => some ("directory URL `" ++ c.directoryUrl ++ "`: " ++ e.message)
  | .ok url =>
    if !url.isHttp then some ("directory URL `" ++ url.text ++ "` must be http(s)")
    else if c.domains.all fun d => Text.trim d = "" then some "at least one domain is required"
    else if !c.email.toList.contains '@' then
      some ("registration email `" ++ c.email ++ "` is not an address")
    else if c.tick = 0 then some "tick frequency must be positive"
    else none

def validate [Url.Idna] (c : AcmeConfig) : Except Error Unit :=
  match c.fault? with
  | some reason => .error (.invalidAcme reason)
  | none => .ok ()

end AcmeConfig

namespace FileConfig

def certificatePath (c : FileConfig) : String := FilePath.join c.directory c.certificateName

def keyPath (c : FileConfig) : String := FilePath.join c.directory c.keyName

end FileConfig

def readPem (d : Disk) (path : String) : Except Error (List Pem.Section × Bool) :=
  match d.read path with
  | .error _ => .error (.unreadable path)
  | .ok bytes => .ok (Pem.sections bytes)

/-- All certificates of a file; every section of it has to be whole. -/
def readCertificates (d : Disk) (path : String) : Except Error (List Pem.Section) := do
  let (sections, broken) ← readPem d path
  if broken then throw (.unreadable path)
  let certificates := sections.filter (·.kind = .certificate)
  if certificates.isEmpty then throw (.noCertificate path)
  return certificates

/-- The first key of a file; what comes behind it is not looked at. -/
def readKey (d : Disk) (path : String) : Except Error Pem.Section := do
  let (sections, broken) ← readPem d path
  match sections.find? (·.isKey) with
  | some key => return key
  | none => throw (if broken then .unreadable path else .noPrivateKey path)

structure Material where
  chain : List Pem.Section
  key : Pem.Section
  /-- Who may sign the certificates of clients. -/
  clientRoots : Option (List Pem.Section)
  deriving DecidableEq

def protocols : List String := ["http/1.1"]

def usable (sections : List Pem.Section) : Except Error Unit :=
  if sections.all (·.isWellFormed) then .ok () else .error .unusable

def FileConfig.load (c : FileConfig) (d : Disk) : Except Error Material := do
  let chain ← readCertificates d c.certificatePath
  let key ← readKey d c.keyPath
  let roots ← if c.caPool = "" then pure none
    else do
      let roots ← readCertificates d c.caPool
      usable roots
      pure (some roots)
  usable (key :: chain.take 1)
  return ⟨chain, key, roots⟩

def Config.load [Url.Idna] (c : Config) (d : Disk) : Except Error (Option Material) :=
  match c with
  | .plain => .ok none
  | .file c => (c.load d).map some
  | .acme c => do
    c.validate
    throw (.acmeUnavailable c.directoryUrl)

end DeviceAuth.Listen
