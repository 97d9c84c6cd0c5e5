import DeviceAuth.Json.Decode
import DeviceAuth.Proofs.Json.Literal
import DeviceAuth.Proofs.Json.Number
import DeviceAuth.Proofs.Json.Parser

/-! A written value is read back as the tree of what was written, whatever the value holds, as long
as its numbers are whole. -/
namespace DeviceAuth.Json

open Text (encoded)

inductive IsExact : Json → Prop where
  | null : IsExact .null
  | bool (b : Bool) : IsExact (.bool b)
  | number {n : Number} (h : n.IsExact) : IsExact (.number n)
  | string (s : String) : IsExact (.string s)
  | array {items : List Json} (h : ∀ v ∈ items, IsExact v) : IsExact (.array items)
  | object {members : List (String × Json)} (h : ∀ m ∈ members, IsExact m.2) :
    IsExact (.object members)

theorem sizeOf_lt_of_mem {m : String × Json} {members : List (String × Json)} (h : m ∈ members) :
    sizeOf m.2 < sizeOf (Json.object members) := by
  have hm : sizeOf m < sizeOf members := List.sizeOf_lt_of_mem h
  obtain ⟨k, v⟩ := m
  simp only [Prod.mk.sizeOf_spec, object.sizeOf_spec] at hm ⊢
  omega

def toTokens : Json → List Token
  | .null => [.null]
  | .bool b => [.bool b]
  | .number n => [.number (.ofNumber n)]
  | .string s => [.string (.ofString s)]
  | .array items => .openList :: ([Token.comma].intercalate (items.map toTokens) ++ [.closeList])
  | .object members =>
    .openObject :: ([Token.comma].intercalate
      (members.map fun m => .string (.ofString m.1) :: .colon :: m.2.toTokens) ++ [.closeObject])
decreasing_by
  · rename_i h
    have hv := List.sizeOf_lt_of_mem h
    simp only [array.sizeOf_spec]
    omega
  · rename_i h
    exact sizeOf_lt_of_mem h

/-- What a reader finds in a written value. -/
def reading : Json → Reading
  | .null => .null
  | .bool b => .bool b
  | .number n => .number (.ofNumber n)
  | .string s => .string (.ofString s)
  | .array items => .list (items.map reading) none
  | .object members => .object (members.map fun m => (.ofString m.1, m.2.reading)) none none
decreasing_by
  · rename_i h
    have hv := List.sizeOf_lt_of_mem h
    simp only [array.sizeOf_spec]
    omega
  · rename_i h
    exact sizeOf_lt_of_mem h

namespace Scan

/-- From a gap, the characters give the tokens and end in a gap. -/
def Emits (cs : List Char) (tokens : List Token) : Prop :=
  ∀ ts, (encoded cs).foldl byte ⟨ts, .gap⟩ = ⟨tokens.reverse ++ ts, .gap⟩

/-- From a gap, the characters give the tokens, the last of which may be a number that is not over
yet. -/
def Gives (cs : List Char) (tokens : List Token) : Prop :=
  ∀ ts, Rests ((encoded cs).foldl byte ⟨ts, .gap⟩) (tokens.reverse ++ ts)

theorem Emits.gives {cs : List Char} {tokens : List Token} (h : Emits cs tokens) :
    Gives cs tokens := by
  intro ts
  rw [h ts]
  exact .gap _

theorem Emits.append {a b : List Char} {as bs : List Token} (ha : Emits a as) (hb : Emits b bs) :
    Emits (a ++ b) (as ++ bs) := by
  intro ts
  rw [Text.encoded_append, List.foldl_append, ha ts, hb, List.reverse_append, List.append_assoc]

theorem Emits.append_gives {a b : List Char} {as bs : List Token} (ha : Emits a as)
    (hb : Gives b bs) : Gives (a ++ b) (as ++ bs) := by
  intro ts
  rw [Text.encoded_append, List.foldl_append, ha ts, List.reverse_append, List.append_assoc]
  exact hb _

theorem Gives.append {a b : List Char} {as bs : List Token} (ha : Gives a as) (hb : Emits b bs)
    (hd : ∃ c rest, encoded b = c :: rest ∧ IsDelimiter c) : Emits (a ++ b) (as ++ bs) := by
  intro ts
  obtain ⟨c, rest, hc, hdelimiter⟩ := hd
  have hb' := hb (as.reverse ++ ts)
  rw [hc, List.foldl_cons] at hb'
  rw [Text.encoded_append, List.foldl_append, hc, List.foldl_cons, (ha ts).byte hdelimiter, hb',
    List.reverse_append, List.append_assoc]

theorem emits_string (s : String) : Emits (writeString s) [.string (.ofString s)] :=
  fun ts => foldl_writeString ts s

theorem emits_newline (depth : Nat) : Emits (newline depth) [] := by
  intro ts
  have hblanks : ∀ n, (encoded (List.replicate n ' ')).foldl byte ⟨ts, .gap⟩ = ⟨ts, .gap⟩ := by
    intro n
    induction n with
    | zero => rfl
    | succ n ih => exact ih
  exact hblanks (2 * depth)

theorem delimited_newline (depth : Nat) :
    ∃ c rest, encoded (newline depth) = c :: rest ∧ IsDelimiter c :=
  ⟨0x0A, _, rfl, .inl rfl⟩

theorem emits_comma : Emits [','] [.comma] := fun _ => rfl

theorem delimited_comma : ∃ c rest, encoded [','] = c :: rest ∧ IsDelimiter c :=
  ⟨0x2C, [], by decide, .inr (.inr (.inl rfl))⟩

theorem gives_writeSpreadItems {depth : Nat} {items : List Json} (hne : items ≠ [])
    (h : ∀ v ∈ items, Gives (writeSpread depth v) v.toTokens) :
    Gives (writeSpreadItems depth items) ([Token.comma].intercalate (items.map toTokens)) := by
  induction items with
  | nil => exact absurd rfl hne
  | cons v rest ih =>
    obtain ⟨hv, hrest⟩ := List.forall_mem_cons.mp h
    cases rest with
    | nil =>
      rw [List.map_singleton, List.intercalate_singleton, writeSpreadItems]
      exact (emits_newline depth).append_gives hv
    | cons w rest =>
      have hitem := (((emits_newline depth).append_gives hv).append emits_comma delimited_comma)
      have hall := hitem.append_gives (ih (by simp) hrest)
      simpa [writeSpreadItems, List.intercalate_cons_cons] using hall

theorem gives_writeSpreadMembers {depth : Nat} {members : List (String × Json)}
    (hne : members ≠ [])
    (h : ∀ m ∈ members, Gives (writeSpread depth m.2) m.2.toTokens) :
    Gives (writeSpreadMembers depth members) ([Token.comma].intercalate
      (members.map fun m => .string (.ofString m.1) :: .colon :: m.2.toTokens)) := by
  have hcolon : Emits [':', ' '] [.colon] := fun _ => rfl
  induction members with
  | nil => exact absurd rfl hne
  | cons m rest ih =>
    obtain ⟨hv, hrest⟩ := List.forall_mem_cons.mp h
    have hmember :=
      (((emits_newline depth).append (emits_string m.1)).append hcolon).append_gives hv
    cases rest with
    | nil =>
      rw [List.map_singleton, List.intercalate_singleton, writeSpreadMembers]
      simpa using hmember
    | cons m' rest =>
      have hall := (hmember.append emits_comma delimited_comma).append_gives (ih (by simp) hrest)
      simpa [writeSpreadMembers, List.intercalate_cons_cons] using hall

theorem gives_writeSpread {v : Json} (h : v.IsExact) (depth : Nat) :
    Gives (writeSpread depth v) v.toTokens := by
  induction h generalizing depth with
  | null =>
    have hword : Emits "null".toList [.null] := fun _ => rfl
    simpa only [writeSpread, writeLeaf, toTokens] using hword.gives
  | bool b =>
    have hword : Emits (writeLeaf (.bool b)) [.bool b] := by
      cases b <;> exact fun _ => rfl
    simpa only [writeSpread, toTokens] using hword.gives
  | @number n h =>
    intro ts
    simp only [writeSpread, writeLeaf, toTokens, ← Text.utf8_eq_encoded]
    exact foldl_number ts h
  | string s =>
    simpa only [writeSpread, writeLeaf, toTokens] using (emits_string s).gives
  | @array items h ih =>
    have hopen : Emits ['['] [.openList] := fun _ => rfl
    have hclose : Emits [']'] [.closeList] := fun _ => rfl
    rw [toTokens]
    cases items with
    | nil => simpa [writeSpread] using (hopen.append hclose).gives
    | cons v rest =>
      have hitems := gives_writeSpreadItems (List.cons_ne_nil v rest)
        fun w hw => ih w hw (depth + 1)
      have hend := (hitems.append (emits_newline depth) (delimited_newline depth)).append hclose
      simpa [writeSpread] using (hopen.append hend).gives
  | @object members h ih =>
    have hopen : Emits ['\x7b'] [.openObject] := fun _ => rfl
    have hclose : Emits ['\x7d'] [.closeObject] := fun _ => rfl
    rw [toTokens]
    cases members with
    | nil => simpa [writeSpread] using (hopen.append hclose).gives
    | cons m rest =>
      have hmembers := gives_writeSpreadMembers (List.cons_ne_nil m rest)
        fun w hw => ih w hw (depth + 1)
      have hend := (hmembers.append (emits_newline depth) (delimited_newline depth)).append hclose
      simpa [writeSpread] using (hopen.append hend).gives

theorem gives_writeCompactItems {items : List Json} (hne : items ≠ [])
    (h : ∀ v ∈ items, Gives (writeCompact v) v.toTokens) :
    Gives (writeCompactItems items) ([Token.comma].intercalate (items.map toTokens)) := by
  induction items with
  | nil => exact absurd rfl hne
  | cons v rest ih =>
    obtain ⟨hv, hrest⟩ := List.forall_mem_cons.mp h
    cases rest with
    | nil =>
      rw [List.map_singleton, List.intercalate_singleton, writeCompactItems]
      exact hv
    | cons w rest =>
      have hall := (hv.append emits_comma delimited_comma).append_gives (ih (by simp) hrest)
      simpa [writeCompactItems, List.intercalate_cons_cons] using hall

theorem gives_writeCompactMembers {members : List (String × Json)} (hne : members ≠ [])
    (h : ∀ m ∈ members, Gives (writeCompact m.2) m.2.toTokens) :
    Gives (writeCompactMembers members) ([Token.comma].intercalate
      (members.map fun m => .string (.ofString m.1) :: .colon :: m.2.toTokens)) := by
  have hcolon : Emits [':'] [.colon] := fun _ => rfl
  induction members with
  | nil => exact absurd rfl hne
  | cons m rest ih =>
    obtain ⟨hv, hrest⟩ := List.forall_mem_cons.mp h
    have hmember := ((emits_string m.1).append hcolon).append_gives hv
    cases rest with
    | nil =>
      rw [List.map_singleton, List.intercalate_singleton, writeCompactMembers]
      simpa using hmember
    | cons m' rest =>
      have hall := (hmember.append emits_comma delimited_comma).append_gives (ih (by simp) hrest)
      simpa [writeCompactMembers, List.intercalate_cons_cons] using hall

theorem gives_writeCompact {v : Json} (h : v.IsExact) : Gives (writeCompact v) v.toTokens := by
  induction h with
  | null => simpa [writeCompact, writeSpread] using gives_writeSpread .null 0
  | bool b => simpa [writeCompact, writeSpread] using gives_writeSpread (.bool b) 0
  | number h => simpa [writeCompact, writeSpread] using gives_writeSpread (.number h) 0
  | string s => simpa [writeCompact, writeSpread] using gives_writeSpread (.string s) 0
  | @array items h ih =>
    have hopen : Emits ['['] [.openList] := fun _ => rfl
    have hclose : Emits [']'] [.closeList] := fun _ => rfl
    rw [toTokens]
    cases items with
    | nil => simpa [writeCompact, writeCompactItems] using (hopen.append hclose).gives
    | cons v rest =>
      have hitems := gives_writeCompactItems (List.cons_ne_nil v rest) ih
      have hend := hitems.append hclose ⟨0x5D, [], by decide, by simp [IsDelimiter]⟩
      simpa [writeCompact] using (hopen.append hend).gives
  | @object members h ih =>
    have hopen : Emits ['\x7b'] [.openObject] := fun _ => rfl
    have hclose : Emits ['\x7d'] [.closeObject] := fun _ => rfl
    rw [toTokens]
    cases members with
    | nil => simpa [writeCompact, writeCompactMembers] using (hopen.append hclose).gives
    | cons m rest =>
      have hmembers := gives_writeCompactMembers (List.cons_ne_nil m rest) ih
      have hend := hmembers.append hclose ⟨0x7D, [], by decide, by simp [IsDelimiter]⟩
      simpa [writeCompact] using (hopen.append hend).gives

theorem Gives.tokens {cs : List Char} {ts : List Token} (h : Gives cs ts) :
    Json.tokens (Text.utf8 (String.ofList cs)) = ts := by
  have hrests := (h []).finish
  rw [List.append_nil, List.reverse_reverse] at hrests
  rw [Json.tokens, Text.utf8_ofList]
  exact hrests

end Scan

theorem isWhole_reading {v : Json} (h : v.IsExact) : v.reading.IsWhole := by
  induction h with
  | null => rw [reading]; exact .null
  | bool b => rw [reading]; exact .bool b
  | number h => rw [reading]; exact .number _
  | string s => rw [reading]; exact .string _
  | array h ih =>
    rw [reading]
    refine .list fun r hr => ?_
    obtain ⟨v, hv, rfl⟩ := List.mem_map.mp hr
    exact ih v hv
  | object h ih =>
    rw [reading]
    refine .object (fun m hm => ?_) fun m hm => ?_
    · obtain ⟨member, -, rfl⟩ := List.mem_map.mp hm
      rfl
    · obtain ⟨member, hmember, rfl⟩ := List.mem_map.mp hm
      exact ih member hmember

theorem toTokens_reading {v : Json} (h : v.IsExact) : v.reading.toTokens = v.toTokens := by
  induction h with
  | null | bool b | number h | string s => rw [reading, toTokens, Reading.toTokens]
  | array h ih =>
    rw [reading, toTokens, Reading.toTokens, List.map_map]
    congr 3
    exact List.map_congr_left ih
  | object h ih =>
    rw [reading, toTokens, Reading.toTokens, List.map_map]
    congr 3
    exact List.map_congr_left fun m hm => by simp [ih m hm]

/-- Nothing is lost on the way through a text, and nothing follows the value. -/
theorem read_of_gives {v : Json} (h : v.IsExact) {cs : List Char} (hcs : Scan.Gives cs v.toTokens) :
    read (Text.utf8 (String.ofList cs)) = ⟨v.reading, false⟩ := by
  have hdone : (Reading.State.complete v.reading []) = .done v.reading := rfl
  rw [read, hcs.tokens, ← toTokens_reading h, Reading.State.foldl_toTokens (isWhole_reading h),
    hdone]
  rfl

theorem decode_of_gives {α : Type} (d : Decoder α) {v : Json} (h : v.IsExact) {cs : List Char}
    (hcs : Scan.Gives cs v.toTokens) :
    decode d (Text.utf8 (String.ofList cs)) = d maxLevels v.reading := by
  rw [decode, read_of_gives h hcs]
  cases d maxLevels v.reading <;> rfl

theorem decode_spread {α : Type} (d : Decoder α) {v : Json} (h : v.IsExact) :
    decode d (Text.utf8 v.spread) = d maxLevels v.reading :=
  decode_of_gives d h (Scan.gives_writeSpread h 0)

theorem decode_compact {α : Type} (d : Decoder α) {v : Json} (h : v.IsExact) :
    decode d (Text.utf8 v.compact) = d maxLevels v.reading :=
  decode_of_gives d h (Scan.gives_writeCompact h)

theorem decodeFirst_compact {α : Type} (d : Decoder α) {v : Json} (h : v.IsExact) :
    decodeFirst d (Text.utf8 v.compact) = d maxLevels v.reading := by
  rw [decodeFirst, compact, read_of_gives h (Scan.gives_writeCompact h)]

end DeviceAuth.Json
