import DeviceAuth.Proofs.Except
import DeviceAuth.Proofs.Json.Written

/-! Decoders on written values: each takes back what its writer wrote. -/
namespace DeviceAuth.Json

theorem Number.isExact_ofInt {n : Int} (hlow : -(Decimal.naturalEnd 63 : Int) ≤ n)
    (hhigh : n ≤ RawNumber.maxNatural) : (Number.ofInt n).IsExact := by
  unfold Number.ofInt
  split
  · exact ⟨by omega, by omega⟩
  · show n.natAbs ≤ RawNumber.maxNatural
    omega

theorem isExact_optional {α : Type} {write : α → Json} {a : Option α}
    (h : ∀ x, a = some x → (write x).IsExact) : (optional write a).IsExact := by
  cases a with
  | none => exact .null
  | some x => exact h x rfl

/-- A text is decoded as one value if it is decoded as its first one and nothing follows. -/
theorem decode_eq_ok_iff {α : Type} {d : Decoder α} {text : List UInt8} {a : α} :
    decode d text = .ok a ↔ decodeFirst d text = .ok a ∧ (read text).trailing = false := by
  rw [decode, decodeFirst]
  cases d maxLevels (read text).value with
  | error e => exact iff_of_false (by rintro ⟨⟩) fun h => by cases h.1
  | ok b =>
    cases (read text).trailing with
    | false => exact (and_iff_left rfl).symm
    | true => exact iff_of_false (by rintro ⟨⟩) fun h => by cases h.2

theorem decode_ok {α : Type} {d : Decoder α} {text : List UInt8} {a : α}
    (h : decode d text = .ok a) : ∃ levels r, d levels r = .ok a :=
  ⟨maxLevels, (read text).value, (decode_eq_ok_iff.mp h).1⟩

namespace RawNumber

theorem int?_of_float {x? : Option Decimal.Binary64} {sign : Decimal.Binary64 → Decimal.Binary64}
    {n : Number} {f : Fault}
    (h : (x?.map fun x => Number.float (sign x)).elim (.error f) Except.ok = .ok n) :
    Decoder.Number.int? n = none := by
  cases x? with
  | none => cases h
  | some x =>
    cases h
    rfl

/-- What is read as a whole number and not below zero is the number that the digits spell. -/
theorem exact_of_decode {negative : Bool} {ds : List Nat} {m : Nat} (h : Json.Spells ds m)
    {n : Number} (hn : decode ⟨signed negative ds, none⟩ = .ok n) {i : Int}
    (hi : Decoder.Number.int? n = some i) (hpos : 0 ≤ i) :
    negative = false ∧ m ≤ maxNatural ∧ i = m := by
  obtain ⟨whole, excess, habsorb⟩ : ∃ whole excess, absorb 0 ds = (whole, excess) :=
    ⟨_, _, rfl⟩
  simp only [decode, parts_signed h.small, Parts.value, habsorb] at hn
  split at hn
  · rw [int?_of_float hn] at hi
    cases hi
  rename_i hexcess
  obtain rfl : excess = 0 := Nat.eq_zero_of_not_pos hexcess
  obtain ⟨hwhole, hmax⟩ := foldl_of_absorb habsorb (Nat.zero_le _)
  obtain rfl : m = whole := h.value.symm.trans hwhole
  cases negative with
  | false =>
    cases hn
    cases hi
    exact ⟨rfl, hmax, rfl⟩
  | true =>
    simp only [Bool.not_true, Bool.false_eq_true, if_false] at hn
    split at hn
    · rw [int?_of_float hn] at hi
      cases hi
    · rename_i hsmall
      cases hn
      cases hi
      omega

end RawNumber

namespace Decoder

variable {α β : Type}

theorem lift_ok {x : Except Fault α} {a : α} (h : lift x = .ok a) : x = .ok a := by
  cases x with
  | error f => cases h
  | ok b => exact congrArg Except.ok (Except.ok.inj h)

theorem within_ok {step : Step} {x : Except Error α} {a : α} (h : within step x = .ok a) :
    x = .ok a := by
  cases x with
  | error e => cases h
  | ok b => exact congrArg Except.ok (Except.ok.inj h)

theorem descend_ok {levels : Nat} {body : Nat → Except Error α} {a : α}
    (h : descend levels body = .ok a) : ∃ inner, body inner = .ok a := by
  unfold descend at h
  split at h
  · cases h
  · cases h
  · exact ⟨_, h⟩

theorem optional_ok {d : Decoder α} {levels : Nat} {r : Reading} {a : α}
    (h : optional d levels r = .ok (some a)) : d levels r = .ok a := by
  unfold optional at h
  split at h
  · cases h
  · obtain ⟨b, hb, hsome⟩ := Except.map_ok h
    exact Option.some.inj hsome ▸ hb

theorem required_ok {name : String} {a : Option α} {x : α} (h : required name a = .ok x) :
    a = some x := by
  cases a with
  | none => cases h
  | some y => exact congrArg some (Except.ok.inj h)

theorem unexpected_ne_ok (expected : String) (r : Reading) (a : α) :
    unexpected expected r ≠ .ok a := by
  intro h
  cases r with
  | null | bool _ | list _ _ | object _ _ _ | broken _ => cases h
  | number n =>
    obtain ⟨_, -, h⟩ := Except.bind_ok h
    cases h
  | string s =>
    obtain ⟨_, -, h⟩ := Except.bind_ok h
    cases h

theorem itemsFrom_ok {d : Decoder α} {P : α → Prop} {levels : Nat}
    (hd : ∀ r a, d levels r = .ok a → P a) {items : List Reading} {i : Nat} {done as : List α}
    (hdone : ∀ a ∈ done, P a) (h : itemsFrom d levels i done items = .ok as) : ∀ a ∈ as, P a := by
  induction items generalizing i done with
  | nil =>
    cases h
    intro a ha
    exact hdone a (List.mem_reverse.mp ha)
  | cons r rest ih =>
    unfold itemsFrom at h
    split at h
    · rename_i a ha
      exact ih (List.forall_mem_cons.mpr ⟨hd r a (within_ok ha), hdone⟩) h
    · cases h

theorem list_ok {d : Decoder α} {P : α → Prop} (hd : ∀ levels r a, d levels r = .ok a → P a)
    {levels : Nat} {r : Reading} {as : List α} (h : list d levels r = .ok as) :
    ∀ a ∈ as, P a := by
  unfold list at h
  split at h
  · obtain ⟨inner, h⟩ := descend_ok h
    obtain ⟨found, hfound, h⟩ := Except.bind_ok h
    obtain ⟨_, -, h⟩ := Except.bind_ok h
    cases h
    exact itemsFrom_ok (hd inner) (List.forall_mem_nil P) hfound
  · exact absurd h (unexpected_ne_ok _ _ _)

@[simp] theorem int?_ofInt (n : Int) : Number.int? (.ofInt n) = some n := by
  unfold Number.ofInt
  split
  · rw [Number.int?]
    congr 1
    omega
  · rw [Number.int?]
    congr 1
    omega

@[simp] theorem string_reading (levels : Nat) (s : String) :
    string levels (Json.string s).reading = .ok s := by
  rw [reading, string, RawString.decode_ofString]
  rfl

theorem integer_reading {name : String} {low high n : Int} (levels : Nat)
    (hexact : (Number.ofInt n).IsExact) (hlow : low ≤ n) (hhigh : n ≤ high) :
    integer name low high levels (int n).reading = .ok n := by
  simp only [int, reading, integer, RawNumber.decode_ofNumber hexact, lift, bind, Except.bind,
    int?_ofInt]
  rw [if_pos ⟨hlow, hhigh⟩]

/-- A literal is read as an unsigned number exactly if it has no sign and fits into 64 bits. -/
theorem integer_signed_iff {negative : Bool} {ds : List Nat} {m : Nat} (h : Json.Spells ds m)
    {levels : Nat} {i : Int} :
    integer "u64" 0 (Decimal.naturalEnd 64 - 1) levels
        (.number ⟨RawNumber.signed negative ds, none⟩) = .ok i ↔
      negative = false ∧ m ≤ RawNumber.maxNatural ∧ i = m := by
  constructor
  · intro hread
    obtain ⟨n, hn, hread⟩ := Except.bind_ok hread
    split at hread
    · cases hread
    · rename_i found hfound
      split at hread
      · rename_i hbounds
        cases hread
        exact RawNumber.exact_of_decode h (lift_ok hn) hfound hbounds.1
      · cases hread
  · rintro ⟨rfl, hm, rfl⟩
    have hbounds : (0 : Int) ≤ m ∧ (m : Int) ≤ Decimal.naturalEnd 64 - 1 := by
      have hmax : (RawNumber.maxNatural : Int) = Decimal.naturalEnd 64 - 1 := rfl
      exact ⟨Int.natCast_nonneg m, hmax ▸ Int.ofNat_le.mpr hm⟩
    simp only [integer, RawNumber.decode_natural h hm, lift, bind, Except.bind, Number.int?]
    exact if_pos hbounds

theorem optional_reading {d : Decoder α} {write : α → Json} {a : Option α} {levels : Nat}
    (hd : ∀ x, a = some x → d levels (write x).reading = .ok x)
    (hnull : ∀ x, write x ≠ .null) :
    optional d levels (Json.optional write a).reading = .ok a := by
  cases a with
  | none =>
    rw [Json.optional, reading]
    rfl
  | some x =>
    have hx := hd x rfl
    have hne : (write x).reading ≠ .null := by
      intro h
      cases hw : write x with
      | null => exact hnull x hw
      | bool _ | number _ | string _ | array _ | object _ => simp [hw, reading] at h
    rw [Json.optional, optional, hx]
    · rfl
    · exact hne

theorem itemsFrom_reading {d : Decoder α} {write : α → Json} {levels : Nat} {items : List α}
    (hd : ∀ x ∈ items, d levels (write x).reading = .ok x) (i : Nat) (done : List α) :
    itemsFrom d levels i done (items.map fun x => (write x).reading) =
      .ok (done.reverse ++ items) := by
  induction items generalizing i done with
  | nil => simp [itemsFrom]
  | cons x rest ih =>
    obtain ⟨hx, hrest⟩ := List.forall_mem_cons.mp hd
    simp only [List.map_cons, itemsFrom, hx, within, ih hrest]
    simp

theorem list_reading {d : Decoder α} {write : α → Json} {levels : Nat} {items : List α}
    (hd : ∀ x ∈ items, d (levels + 1) (write x).reading = .ok x) :
    list d (levels + 2) (Json.array (items.map write)).reading = .ok items := by
  rw [reading, list, descend]
  · rw [List.map_map]
    have hitems := itemsFrom_reading hd 0 []
    simp only [Function.comp_def, hitems, stopAt]
    rfl
  · simp

/-- It makes no difference to the field whether the structure is changed before it is read or
after. -/
def Field.Ignores {σ : Type} (f : Field σ) (change : σ → σ) : Prop :=
  ∀ s, f.isSet (change s) = f.isSet s ∧
    ∀ levels r, f.read levels r (change s) = (f.read levels r s).map change

theorem Field.ignores_of {σ : Type} {name : String} {d : Decoder α} {get : σ → Option α}
    {set : α → σ → σ} {change : σ → σ} (hget : ∀ s, get (change s) = get s)
    (hset : ∀ a s, set a (change s) = change (set a s)) :
    (Field.of name d get set).Ignores change := by
  refine fun s => ⟨congrArg Option.isSome (hget s), fun levels r => ?_⟩
  simp only [of, hset]
  cases d levels r <;> rfl

namespace Shape

variable {σ : Type} {shape : Shape σ α} {levels : Nat}

theorem fromMembers_field {f : Field σ} {k : RawString} {key : String} {r : Reading} {s : σ}
    (hkey : k.decode = .ok key) (hfield : shape.fields.find? (·.name = key) = some f)
    (hset : f.isSet s = false) (rest : List (RawString × Reading)) :
    fromMembers shape levels ((k, r) :: rest) s =
      within (.key key) (f.read levels r s) >>= fromMembers shape levels rest := by
  rw [fromMembers, hkey]
  simp only [lift, field?, hfield, hset, bind, Except.bind, Bool.false_eq_true, if_false]

theorem fromMembers_known {f : Field σ} {k : RawString} {key : String} {r : Reading} {s s' : σ}
    (hkey : k.decode = .ok key) (hfield : shape.fields.find? (·.name = key) = some f)
    (hset : f.isSet s = false) (hread : f.read levels r s = .ok s')
    (rest : List (RawString × Reading)) :
    fromMembers shape levels ((k, r) :: rest) s = fromMembers shape levels rest s' := by
  rw [fromMembers_field hkey hfield hset, hread]
  rfl

theorem fromMembers_other {k : RawString} {key : String} {r : Reading} {s : σ}
    (hkey : k.decode = .ok key) (hfield : shape.fields.find? (·.name = key) = none)
    (hother : shape.other levels r = .ok ()) (rest : List (RawString × Reading)) :
    fromMembers shape levels ((k, r) :: rest) s = fromMembers shape levels rest s := by
  rw [fromMembers, hkey]
  simp only [lift, field?, hfield, bind, Except.bind, hother, within]

theorem fromMembers_append (front back : List (RawString × Reading)) (s : σ) :
    fromMembers shape levels (front ++ back) s =
      fromMembers shape levels front s >>= fromMembers shape levels back := by
  induction front generalizing s with
  | nil => rfl
  | cons m front ih =>
    obtain ⟨k, r⟩ := m
    rw [List.cons_append, fromMembers, fromMembers]
    cases lift k.decode with
    | error e => rfl
    | ok key =>
      cases hfield : shape.field? key s with
      | error e =>
        simp only [bind, Except.bind, hfield]
      | ok f? =>
        cases f? with
        | none =>
          cases hother : within (.key key) (shape.other levels r) with
          | error e => simp only [bind, Except.bind, hfield, hother]
          | ok _ => simpa only [bind, Except.bind, hfield, hother] using ih s
        | some f =>
          cases hread : within (.key key) (f.read levels r s) with
          | error e => simp only [bind, Except.bind, hfield, hread]
          | ok s' => simpa only [bind, Except.bind, hfield, hread] using ih s'

theorem fromMembers_cons {β : Type} {name key : String} {d : Decoder β} {get : σ → Option β}
    {set : β → σ → σ} {v : Json} {s : σ} {b : β} (hread : d levels v.reading = .ok b)
    (hfield : shape.fields.find? (·.name = key) = some (.of name d get set))
    (hset : (get s).isSome = false) (rest : List (RawString × Reading)) :
    fromMembers shape levels ((.ofString key, v.reading) :: rest) s =
      fromMembers shape levels rest (set b s) :=
  fromMembers_known (RawString.decode_ofString key) hfield hset
    (congrArg (Except.map fun b => set b s) hread) rest

theorem decoder_members (members : List (RawString × Reading)) :
    decoder shape (levels + 2) (.object members none none) =
      fromMembers shape (levels + 1) members shape.start >>= shape.finish := by
  rw [decoder, descend]
  · cases fromMembers shape (levels + 1) members shape.start <;> rfl
  · simp

theorem decoder_object {members : List (String × Json)} {s : σ}
    (h : fromMembers shape (levels + 1) (members.map fun m => (.ofString m.1, m.2.reading))
      shape.start = .ok s) :
    decoder shape (levels + 2) (Json.object members).reading = shape.finish s := by
  rw [reading, decoder_members, h]
  rfl

theorem field?_ok {key : String} {s : σ} {f : Field σ}
    (h : shape.field? key s = .ok (some f)) : f ∈ shape.fields ∧ f.name = key := by
  unfold field? at h
  split at h
  · cases h
  · rename_i found hfound
    split at h
    · cases h
    · cases h
      exact ⟨List.mem_of_find?_eq_some hfound, by simpa using List.find?_some hfound⟩

variable {P : σ → Prop}

theorem fromMembers_named_ok {members : List (RawString × Reading)}
    (hfields : ∀ f ∈ shape.fields, (∃ m ∈ members, m.1.decode = .ok f.name) →
      ∀ levels r s s', P s → f.read levels r s = .ok s' → P s')
    {s s' : σ} (hs : P s) (h : fromMembers shape levels members s = .ok s') : P s' := by
  induction members generalizing s with
  | nil =>
    cases h
    exact hs
  | cons m rest ih =>
    obtain ⟨key, hkey, h⟩ := Except.bind_ok h
    obtain ⟨f?, hf, h⟩ := Except.bind_ok h
    have hrest := fun f hf (hnamed : ∃ m' ∈ rest, m'.1.decode = .ok f.name) =>
      hfields f hf (hnamed.imp fun _ hm' => ⟨List.mem_cons_of_mem m hm'.1, hm'.2⟩)
    cases f? with
    | none =>
      obtain ⟨_, -, h⟩ := Except.bind_ok h
      exact ih hrest hs h
    | some f =>
      obtain ⟨s₁, hread, h⟩ := Except.bind_ok h
      obtain ⟨hmem, hname⟩ := field?_ok hf
      have hnamed : ∃ m' ∈ m :: rest, m'.1.decode = .ok f.name :=
        ⟨m, List.mem_cons_self, hname ▸ lift_ok hkey⟩
      exact ih hrest (hfields f hmem hnamed levels m.2 s s₁ hs (within_ok hread)) h

theorem fromMembers_ok
    (hfields : ∀ f ∈ shape.fields, ∀ levels r s s', P s → f.read levels r s = .ok s' → P s')
    {members : List (RawString × Reading)} {s s' : σ} (hs : P s)
    (h : fromMembers shape levels members s = .ok s') : P s' :=
  fromMembers_named_ok (fun f hf _ => hfields f hf) hs h

/-- What the members of an object do not look at can be changed before or after they are read. -/
theorem fromMembers_change {change : σ → σ} {members : List (RawString × Reading)}
    (hfields : ∀ f ∈ shape.fields, (∃ m ∈ members, m.1.decode = .ok f.name) → f.Ignores change)
    {s s' : σ} (h : fromMembers shape levels members s = .ok s') :
    fromMembers shape levels members (change s) = .ok (change s') := by
  induction members generalizing s with
  | nil =>
    cases h
    rfl
  | cons m rest ih =>
    obtain ⟨k, r⟩ := m
    obtain ⟨key, hkey, h⟩ := Except.bind_ok h
    obtain ⟨f?, hf, h⟩ := Except.bind_ok h
    have hrest := fun f hf (hnamed : ∃ m' ∈ rest, m'.1.decode = .ok f.name) =>
      hfields f hf (hnamed.imp fun _ hm' => ⟨List.mem_cons_of_mem (k, r) hm'.1, hm'.2⟩)
    unfold field? at hf
    split at hf
    · rename_i hunknown
      cases hf
      obtain ⟨_, hother, h⟩ := Except.bind_ok h
      rw [fromMembers_other (lift_ok hkey) hunknown (within_ok hother)]
      exact ih hrest h
    · rename_i f hknown
      split at hf
      · cases hf
      rename_i hset
      cases hf
      obtain ⟨s₁, hread, h⟩ := Except.bind_ok h
      have hname : f.name = key := by simpa using List.find?_some hknown
      obtain ⟨hisSet, hreads⟩ := hfields f (List.mem_of_find?_eq_some hknown)
        ⟨(k, r), List.mem_cons_self, hname ▸ lift_ok hkey⟩ s
      have hnext : f.read levels r (change s) = .ok (change s₁) := by
        rw [hreads, within_ok hread]
        rfl
      rw [fromMembers_known (lift_ok hkey) hknown (by simpa [hisSet] using hset) hnext]
      exact ih hrest h

theorem fromList_ok
    (hfields : ∀ f ∈ shape.fields, ∀ levels r s s', P s → f.read levels r s = .ok s' → P s')
    {stop : Option Fault} {i : Nat} {fields : List (Field σ)} {items : List Reading} {s s' : σ}
    (hsub : ∀ f ∈ fields, f ∈ shape.fields) (hs : P s)
    (h : fromList shape levels stop i fields items s = .ok s') : P s' := by
  induction fields generalizing i items s with
  | nil =>
    obtain ⟨_, -, h⟩ := Except.bind_ok h
    cases h
    exact hs
  | cons f fields ih =>
    obtain ⟨hf, hrest⟩ := List.forall_mem_cons.mp hsub
    cases items with
    | nil =>
      obtain ⟨_, -, h⟩ := Except.bind_ok h
      split at h
      · exact ih hrest hs h
      · cases h
    | cons r rest =>
      obtain ⟨s₁, hread, h⟩ := Except.bind_ok h
      exact ih hrest (hfields f hf levels r s s₁ hs (within_ok hread)) h

theorem decoder_ok
    (hfields : ∀ f ∈ shape.fields, ∀ levels r s s', P s → f.read levels r s = .ok s' → P s')
    (hstart : P shape.start) {r : Reading} {a : α} (h : decoder shape levels r = .ok a) :
    ∃ s, P s ∧ shape.finish s = .ok a := by
  unfold decoder at h
  split at h
  · obtain ⟨s, hs, hfinish⟩ := Except.bind_ok h
    obtain ⟨inner, hs⟩ := descend_ok hs
    obtain ⟨s₁, hmembers, hs⟩ := Except.bind_ok hs
    have hsame : s₁ = s := by
      split at hs
      · obtain ⟨key, -, hs⟩ := Except.bind_ok hs
        obtain ⟨_, -, hs⟩ := Except.bind_ok hs
        obtain ⟨_, -, hs⟩ := Except.bind_ok hs
        exact Except.ok.inj hs
      · obtain ⟨_, -, hs⟩ := Except.bind_ok hs
        exact Except.ok.inj hs
    exact ⟨s, hsame ▸ fromMembers_ok hfields hstart hmembers, hfinish⟩
  · split at h
    · obtain ⟨s, hs, hfinish⟩ := Except.bind_ok h
      obtain ⟨inner, hs⟩ := descend_ok hs
      exact ⟨s, fromList_ok hfields (fun _ hf => hf) hstart hs, hfinish⟩
    · exact absurd h (unexpected_ne_ok _ _ _)
  · exact absurd h (unexpected_ne_ok _ _ _)

end Shape

end Decoder

end DeviceAuth.Json
