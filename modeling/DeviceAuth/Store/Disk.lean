import DeviceAuth.Store.FilePath
import DeviceAuth.Text.Utf8

/-! A tree of directories and files, and the few ways a store touches it. Each action happens whole
or not at all and says why it failed. -/
namespace DeviceAuth.Store

inductive DiskFault where
  | notFound
  | busy
  | exists
  | notDirectory
  | isDirectory
  | nameTooLong
  | nulByte
  deriving DecidableEq, Repr

def DiskFault.message : DiskFault → String
  | .notFound => "No such file or directory (os error 2)"
  | .busy => "Device or resource busy (os error 16)"
  | .exists => "File exists (os error 17)"
  | .notDirectory => "Not a directory (os error 20)"
  | .isDirectory => "Is a directory (os error 21)"
  | .nameTooLong => "File name too long (os error 36)"
  | .nulByte => "file name contained an unexpected NUL byte"

inductive DiskEntry where
  | file (bytes : List UInt8)
  | directory
  deriving DecidableEq

/-- A place in the tree: the names on the way from the root. -/
abbrev Location := List String

structure Disk where
  entries : List (Location × DiskEntry)

namespace Disk

def empty : Disk := ⟨[]⟩

def get? (d : Disk) (l : Location) : Option DiskEntry :=
  if l = [] then some .directory else (d.entries.find? (·.1 = l)).map (·.2)

def put (d : Disk) (l : Location) (e : DiskEntry) : Disk :=
  ⟨(l, e) :: d.entries.filter (·.1 ≠ l)⟩

def delete (d : Disk) (l : Location) : Disk :=
  ⟨d.entries.filter (·.1 ≠ l)⟩

def maxNameLength : Nat := 255

def checkName (name : String) : Except DiskFault Unit :=
  if Text.utf8Length name > maxNameLength then .error .nameTooLong else .ok ()

/-- Goes down the components; all but the last have to be directories. -/
def walk (d : Disk) : Location → List String → Except DiskFault Location
  | l, [] => .ok l
  | l, name :: rest => do
    match d.get? l with
    | none => throw .notFound
    | some (.file _) => throw .notDirectory
    | some .directory => pure ()
    checkName name
    walk d (if name = ".." then l.dropLast else l ++ [name]) rest

/-- The place of a path. No file is at a path that can only be a directory's. -/
def locate (d : Disk) (path : String) : Except DiskFault Location := do
  if path.toList.contains '\x00' then throw .nulByte
  let l ← d.walk [] (FilePath.components path)
  match d.get? l with
  | some (.file _) => if FilePath.namesDirectory path then throw .notDirectory else return l
  | _ => return l

def find? (d : Disk) (path : String) : Option DiskEntry :=
  match d.locate path with
  | .ok l => d.get? l
  | .error _ => none

def read (d : Disk) (path : String) : Except DiskFault (List UInt8) := do
  match d.get? (← d.locate path) with
  | none => throw .notFound
  | some .directory => throw .isDirectory
  | some (.file bytes) => return bytes

def makeDirectories (d : Disk) : Location → List String → Except DiskFault Disk
  | _, [] => .ok d
  | l, name :: rest => do
    checkName name
    let l := if name = ".." then l.dropLast else l ++ [name]
    match d.get? l with
    | some .directory => makeDirectories d l rest
    | some (.file _) => throw (if rest.isEmpty then .exists else .notDirectory)
    | none => makeDirectories (d.put l .directory) l rest

inductive Action where
  | makeDirectories (path : String)
  | create (path : String)
  | append (path : String) (bytes : List UInt8)
  | sync (path : String)
  | rename (source target : String)

def obstacle? (d : Disk) (path : String) (l : Location) : Option DiskFault :=
  match FilePath.ending path, d.get? l with
  | "", _ => some .notDirectory
  | ".", none => some .notFound
  | ".", _ | "..", _ => some .busy
  | _, some .directory => some .isDirectory
  | _, _ => none

/-- Creating empties a file that exists; renaming takes the place of the file at the target. Only
files are renamed. -/
def act (d : Disk) : Action → Except DiskFault Disk
  | .makeDirectories path =>
    if path.toList.contains '\x00' then .error .nulByte
    else makeDirectories d [] (FilePath.components path)
  | .create path => do
    let l ← d.locate path
    match d.get? l with
    | some .directory => throw .isDirectory
    | _ => return d.put l (.file [])
  | .append path bytes => do
    let l ← d.locate path
    match d.get? l with
    | some (.file old) => return d.put l (.file (old ++ bytes))
    | some .directory => throw .isDirectory
    | none => throw .notFound
  | .sync path => do
    let _ ← d.locate path
    return d
  | .rename source target => do
    let s ← d.locate source
    let t ← d.locate target
    match d.get? s with
    | none => throw .notFound
    | some .directory => throw .isDirectory
    | some (.file bytes) =>
      if let some fault := d.obstacle? target t then throw fault
      return if s = t then d else (d.delete s).put t (.file bytes)

def names (d : Disk) (l : Location) : List String :=
  ((d.entries.filterMap fun (k, _) =>
    if k.dropLast = l ∧ k ≠ [] then k.getLast? else none).mergeSort fun a b => !(b < a))

def filePaths (d : Disk) : List String :=
  (d.entries.filterMap fun (k, e) =>
    match e with
    | .file _ => some (String.join (k.map ("/" ++ ·)))
    | .directory => none).mergeSort fun a b => !(b < a)

end Disk

end DeviceAuth.Store
