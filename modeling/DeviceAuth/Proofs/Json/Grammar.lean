import DeviceAuth.Json.Reading
import Mathlib.Tactic.Common

/-! The grammar of JSON, in bytes. A document is the tokens of one tree, with spaces before, between
and behind them; between the quotes of a string nothing but the escapes is looked at. -/
namespace DeviceAuth.Json

open Scan (isSpace isDigit isHex isShortEscape isMark)

def IsSpaces (bs : List UInt8) : Prop := ∀ b ∈ bs, isSpace b = true

structure IsDigits (bs : List UInt8) : Prop where
  nonempty : bs ≠ []
  digit : ∀ b ∈ bs, isDigit b = true

/-- A whole number starts with a zero only if it is zero. -/
inductive IsInteger : List UInt8 → Prop where
  | zero : IsInteger [0x30]
  | digits {b : UInt8} {bs : List UInt8} (hb : isDigit b = true) (hzero : b ≠ 0x30)
      (hbs : ∀ c ∈ bs, isDigit c = true) : IsInteger (b :: bs)

inductive IsFraction : List UInt8 → Prop where
  | none : IsFraction []
  | point {ds : List UInt8} (h : IsDigits ds) : IsFraction (0x2E :: ds)

inductive IsPower : List UInt8 → Prop where
  | none : IsPower []
  | plain {mark : UInt8} {ds : List UInt8} (hmark : isMark mark = true) (h : IsDigits ds) :
      IsPower (mark :: ds)
  | signed {mark sign : UInt8} {ds : List UInt8} (hmark : isMark mark = true)
      (hsign : sign = 0x2B ∨ sign = 0x2D) (h : IsDigits ds) : IsPower (mark :: sign :: ds)

inductive IsSigned : List UInt8 → Prop where
  | positive {whole : List UInt8} (h : IsInteger whole) : IsSigned whole
  | negative {whole : List UInt8} (h : IsInteger whole) : IsSigned (0x2D :: whole)

inductive IsNumeral : List UInt8 → Prop where
  | of {whole fraction power : List UInt8} (hwhole : IsSigned whole)
      (hfraction : IsFraction fraction) (hpower : IsPower power) :
      IsNumeral (whole ++ fraction ++ power)

/-- What may stand between the quotes of a string. -/
inductive IsContent : List UInt8 → Prop where
  | nil : IsContent []
  | plain {b : UInt8} {bs : List UInt8} (hcontrol : ¬b < 0x20) (hquote : b ≠ 0x22)
      (hslash : b ≠ 0x5C) (h : IsContent bs) : IsContent (b :: bs)
  | escape {b : UInt8} {bs : List UInt8} (hb : isShortEscape b = true) (h : IsContent bs) :
      IsContent (0x5C :: b :: bs)
  | unicode {ds bs : List UInt8} (hlength : ds.length = 4) (hhex : ∀ d ∈ ds, isHex d = true)
      (h : IsContent bs) : IsContent (0x5C :: 0x75 :: (ds ++ bs))

inductive Spelling : Token → List UInt8 → Prop where
  | openList : Spelling .openList [0x5B]
  | closeList : Spelling .closeList [0x5D]
  | openObject : Spelling .openObject [0x7B]
  | closeObject : Spelling .closeObject [0x7D]
  | comma : Spelling .comma [0x2C]
  | colon : Spelling .colon [0x3A]
  | null : Spelling .null [0x6E, 0x75, 0x6C, 0x6C]
  | true : Spelling (.bool true) [0x74, 0x72, 0x75, 0x65]
  | false : Spelling (.bool false) [0x66, 0x61, 0x6C, 0x73, 0x65]
  | number {bs : List UInt8} (h : IsNumeral bs) : Spelling (.number ⟨bs, none⟩) bs
  | string {bs : List UInt8} (h : IsContent bs) :
      Spelling (.string ⟨bs, none⟩) (0x22 :: (bs ++ [0x22]))

/-- The bytes of some tokens, with spaces wherever they may be. -/
inductive Spaced : List Token → List UInt8 → Prop where
  | nil {spaces : List UInt8} (h : IsSpaces spaces) : Spaced [] spaces
  | cons {spaces word bs : List UInt8} {t : Token} {ts : List Token} (hspaces : IsSpaces spaces)
      (hword : Spelling t word) (h : Spaced ts bs) : Spaced (t :: ts) (spaces ++ word ++ bs)

namespace Reading

theorem sizeOf_lt_of_mem {m : RawString × Reading} {members : List (RawString × Reading)}
    (h : m ∈ members) : sizeOf m.2 < 1 + sizeOf members := by
  have hm : sizeOf m < sizeOf members := List.sizeOf_lt_of_mem h
  obtain ⟨k, v⟩ := m
  simp only [Prod.mk.sizeOf_spec] at hm ⊢
  omega

/-- The tokens of a tree that has no fault in it. -/
def toTokens : Reading → List Token
  | .null => [.null]
  | .bool b => [.bool b]
  | .number n => [.number n]
  | .string s => [.string s]
  | .list items _ =>
    .openList :: ([Token.comma].intercalate (items.map toTokens) ++ [.closeList])
  | .object members _ _ =>
    .openObject :: ([Token.comma].intercalate
      (members.map fun m => .string m.1 :: .colon :: m.2.toTokens) ++ [.closeObject])
  | .broken _ => []
decreasing_by
  · rename_i h
    have hv := List.sizeOf_lt_of_mem h
    simp only [list.sizeOf_spec]
    omega
  · rename_i h
    have hv := sizeOf_lt_of_mem h
    simp only [object.sizeOf_spec]
    omega

/-- Nothing is wrong with the grammar of any part. -/
inductive IsWhole : Reading → Prop where
  | null : IsWhole .null
  | bool (b : Bool) : IsWhole (.bool b)
  | number (bytes : List UInt8) : IsWhole (.number ⟨bytes, none⟩)
  | string (bytes : List UInt8) : IsWhole (.string ⟨bytes, none⟩)
  | list {items : List Reading} (h : ∀ r ∈ items, IsWhole r) : IsWhole (.list items none)
  | object {members : List (RawString × Reading)}
      (hkeys : ∀ m ∈ members, m.1.fault = none) (h : ∀ m ∈ members, IsWhole m.2) :
      IsWhole (.object members none none)

end Reading

/-- The text is one value, with nothing around it but spaces. -/
def IsDocument (text : List UInt8) : Prop :=
  ∃ v : Reading, v.IsWhole ∧ Spaced v.toTokens text

end DeviceAuth.Json
