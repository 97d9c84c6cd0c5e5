import DeviceAuth.Error

/-! What a store of records is asked to do. Every operation is atomic. -/
namespace DeviceAuth.Store

inductive SwapOutcome where
  | updated
  | refreshMismatch
  | missing
  deriving DecidableEq, Repr

def SwapOutcome.name : SwapOutcome → String
  | .updated => "Updated"
  | .refreshMismatch => "RefreshMismatch"
  | .missing => "Missing"

inductive Operation where
  | save (record : Record)
  | fetch (device : DeviceId)
  | find (accessToken : String)
  | list (owner : UserId)
  | swap (device : DeviceId) (expected : Option String) (replacement : Record)
  | signOut (device : DeviceId) (now : Instant)
  | remove (device : DeviceId)

namespace Operation

abbrev Result : Operation → Type
  | .save _ => Unit
  | .fetch _ => Option Record
  | .find _ => Option Record
  | .list _ => List Record
  | .swap _ _ _ => SwapOutcome
  | .signOut _ _ => Option Record
  | .remove _ => Option Record

inductive Kind where
  | save
  | fetch
  | find
  | list
  | swap
  | signOut
  | remove
  deriving DecidableEq, Repr

def Kind.name : Kind → String
  | .save => "save"
  | .fetch => "fetch"
  | .find => "find"
  | .list => "list"
  | .swap => "cas"
  | .signOut => "sign_out"
  | .remove => "remove"

def Kind.all : List Kind := [.save, .fetch, .find, .list, .swap, .signOut, .remove]

def kind : Operation → Kind
  | .save _ => .save
  | .fetch _ => .fetch
  | .find _ => .find
  | .list _ => .list
  | .swap _ _ _ => .swap
  | .signOut _ _ => .signOut
  | .remove _ => .remove

end Operation

end DeviceAuth.Store
