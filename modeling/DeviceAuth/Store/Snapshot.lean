import DeviceAuth.Json.Write
import DeviceAuth.Store.Disk
import DeviceAuth.Store.Table

/-! A store that keeps its records in a file. The snapshot lists every record by device. It is
written to a temporary file beside the snapshot, which then takes the snapshot's place. -/
namespace DeviceAuth.Store

/-- The records in memory, and where their snapshot is. -/
structure FileStore where
  path : String
  table : Table

namespace FileStore

def snapshotText (t : Table) : String :=
  Json.spread (.array ((Table.sortByDevice t.records).map Record.toJson))

def temporaryPath (path : String) : String :=
  FilePath.withExtension path "tmp"

/-- The directory of a path has to be there. -/
def directoryStage (path : String) : List (Disk.Action × String) :=
  match FilePath.parent? path with
  | none => []
  | some parent => [(.makeDirectories parent, "Failed to create store directory " ++ parent)]

/-- What is done to the disk to write a snapshot, and what is said of each action that fails. -/
def stages (path : String) (bytes : List UInt8) : List (Disk.Action × String) :=
  let temporary := temporaryPath path
  directoryStage path ++ [
    (.create temporary, "Failed to create " ++ temporary),
    (.append temporary bytes, "Failed to write " ++ temporary),
    (.sync temporary, "Failed to sync " ++ temporary),
    (.rename temporary path, "Failed to replace " ++ path)]

def perform : List (Disk.Action × String) → Disk → Except StoreError Unit × Disk
  | [], d => (.ok (), d)
  | (action, complaint) :: rest, d =>
    match d.act action with
    | .ok d => perform rest d
    | .error fault => (.error (.backend (complaint ++ ": " ++ fault.message)), d)

def persist (path : String) (t : Table) (d : Disk) : Except StoreError Unit × Disk :=
  perform (stages path (Text.utf8 (snapshotText t))) d

/-- The records of a snapshot; a file that is missing or empty holds none. -/
def load (path : String) (d : Disk) : Except StoreError Table :=
  match d.find? path with
  | none | some (.file []) => .ok .empty
  | some _ =>
    match d.read path with
    | .error fault =>
      .error (.backend ("Failed to read " ++ path ++ ": " ++ fault.message))
    | .ok bytes =>
      match Json.decode (Json.Decoder.list Record.decoder) bytes with
      | .error e => .error (.serialization ("Failed to parse " ++ path ++ ": " ++ e.message))
      | .ok records => .ok (.ofRecords records)

def atPath (path : String) (d : Disk) : Except StoreError (FileStore × Disk) := do
  let (made, d) := perform (directoryStage path) d
  made
  return (⟨path, ← load path d⟩, d)

/-- Every change is in memory first and then written; memory keeps it also if writing fails. -/
def apply (f : FileStore) (d : Disk) (op : Operation) :
    Except StoreError op.Result × FileStore × Disk :=
  match f.table.apply op with
  | (result, none) => (.ok result, f, d)
  | (result, some t) =>
    let (written, d) := persist f.path t d
    (written.map fun _ => result, ⟨f.path, t⟩, d)

end FileStore

end DeviceAuth.Store
