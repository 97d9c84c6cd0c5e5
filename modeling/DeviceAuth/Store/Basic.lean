import DeviceAuth.Store.Snapshot
import DeviceAuth.Url.Query

/-! The store of a service: records in memory alone, or with a snapshot on disk. Some kinds of
operations may be out of order; they fail before anything is changed. -/
namespace DeviceAuth

inductive Store.Backend where
  | memory (table : Store.Table)
  | file (store : Store.FileStore)

structure Store where
  backend : Store.Backend
  disk : Store.Disk
  refused : List Store.Operation.Kind

namespace Store

def ofBackend (backend : Backend) (disk : Disk) : Store := ⟨backend, disk, []⟩

def Backend.table : Backend → Table
  | .memory t => t
  | .file f => f.table

def Backend.apply (b : Backend) (d : Disk) (op : Operation) :
    Except StoreError op.Result × Backend × Disk :=
  match b with
  | .memory t =>
    let (result, changed) := t.apply op
    (.ok result, .memory (changed.getD t), d)
  | .file f =>
    let (result, f, d) := f.apply d op
    (result, .file f, d)

def apply (s : Store) (op : Operation) : Except StoreError op.Result × Store :=
  if op.kind ∈ s.refused then (.error (.backend (op.kind.name ++ " rejected")), s)
  else
    let (result, backend, disk) := s.backend.apply s.disk op
    (result, ⟨backend, disk, s.refused⟩)

def reliable (s : Store) : Store := { s with refused := [] }

def invalidUri (reason : String) : Error := .config (.invalidSetting "STORE_URI" reason)

/-- Opens the store of a URI: `memory:` keeps records in memory, and `file:` names the directory in
which the database is a file of its own. -/
def ofUri [Url.Idna] (uri database : String) (disk : Disk) : Except Error Store :=
  match Url.parse uri with
  | .error e => .error (invalidUri e.message)
  | .ok url =>
    if url.scheme = "memory" then .ok (ofBackend (.memory .empty) disk)
    else if url.scheme = "file" then
      match url.filePath? with
      | none => .error (invalidUri "file URI must carry an absolute directory path")
      | some directory =>
        if database = "" ∨ database.toList.any (fun c => c = '/' ∨ c = '\\') then
          .error (.config (.invalidSetting "STORE_DATABASE"
            ("`" ++ database ++ "` is not a usable file name")))
        else
          match FileStore.atPath (FilePath.join directory (database ++ ".json")) disk with
          | .error e => .error (.storage e)
          | .ok (f, disk) => .ok (ofBackend (.file f) disk)
    else .error (invalidUri ("unsupported scheme `" ++ url.scheme ++ "`"))

end Store

end DeviceAuth
