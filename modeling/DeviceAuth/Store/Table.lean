import DeviceAuth.Store.Operation

/-! Records by device. A table is seen through `get?`; the order of its entries is that of some walk
through it, and nothing but the search for an access token depends on it. -/
namespace DeviceAuth.Store

structure Table where
  entries : List (DeviceId × Record)
  deriving DecidableEq

namespace Table

def empty : Table := ⟨[]⟩

def get? (t : Table) (device : DeviceId) : Option Record :=
  (t.entries.find? (·.1 = device)).map (·.2)

def insertEntry (device : DeviceId) (record : Record) :
    List (DeviceId × Record) → List (DeviceId × Record)
  | [] => [(device, record)]
  | (d, r) :: rest =>
    if d = device then (device, record) :: rest else (d, r) :: insertEntry device record rest

def insert (t : Table) (device : DeviceId) (record : Record) : Table :=
  ⟨insertEntry device record t.entries⟩

def erase (t : Table) (device : DeviceId) : Table :=
  ⟨t.entries.filter (·.1 ≠ device)⟩

def records (t : Table) : List Record := t.entries.map (·.2)

def size (t : Table) : Nat := t.entries.length

/-- Under each record's own device; of several with one device the last stays. -/
def ofRecords (records : List Record) : Table :=
  records.foldl (fun t r => t.insert r.device r) empty

def sortByDevice (records : List Record) : List Record :=
  records.mergeSort fun a b => a.device.le b.device

def refreshAgrees (current : Option Secret) (expected : Option String) : Bool :=
  match current, expected with
  | none, none => true
  | some secret, some presented => secret.agrees presented
  | _, _ => false

def swapOutcome (t : Table) (device : DeviceId) (expected : Option String) : SwapOutcome :=
  match t.get? device with
  | none => .missing
  | some r => if refreshAgrees r.refreshToken expected then .updated else .refreshMismatch

def apply (t : Table) : (op : Operation) → op.Result × Option Table
  | .save record => ((), some (t.insert record.device record))
  | .fetch device => (t.get? device, none)
  | .find token => (t.records.find? (·.accessToken.agrees token), none)
  | .list owner => (sortByDevice (t.records.filter (·.isOwnedBy owner)), none)
  | .swap device expected replacement =>
    let outcome := t.swapOutcome device expected
    (outcome, if outcome = .updated then some (t.insert device replacement) else none)
  | .signOut device now =>
    match t.get? device with
    | none => (none, none)
    | some r => (some (r.signOut now), some (t.insert device (r.signOut now)))
  | .remove device =>
    match t.get? device with
    | none => (none, none)
    | some r => (some r, some (t.erase device))

theorem find?_insertEntry (device d : DeviceId) (record : Record)
    (entries : List (DeviceId × Record)) :
    (insertEntry device record entries).find? (·.1 = d) =
      if device = d then some (device, record) else entries.find? (·.1 = d) := by
  induction entries with
  | nil => by_cases h : device = d <;> simp [insertEntry, h]
  | cons e rest ih =>
    obtain ⟨k, r⟩ := e
    by_cases hk : k = device
    · subst hk
      by_cases h : k = d <;> simp [insertEntry, h]
    · by_cases hd : k = d
      · subst hd
        simp [insertEntry, hk, Ne.symm hk]
      · simp [insertEntry, hk, hd, ih]

theorem get?_insert (t : Table) (device d : DeviceId) (record : Record) :
    (t.insert device record).get? d = if device = d then some record else t.get? d := by
  simp only [get?, insert, find?_insertEntry]
  split <;> simp

theorem get?_erase (t : Table) (device d : DeviceId) :
    (t.erase device).get? d = if device = d then none else t.get? d := by
  simp only [get?, erase]
  by_cases h : device = d
  · subst h
    simp [List.find?_eq_none]
  · simp only [h, if_false]
    rw [List.find?_filter]
    congr 2
    funext e
    by_cases he : e.1 = d
    · simp [he, Ne.symm h]
    · simp [he]

end Table

end DeviceAuth.Store
