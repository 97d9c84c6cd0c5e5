import DeviceAuth.Json.Literal
import DeviceAuth.Proofs.Text.Utf8
import Mathlib.Data.List.TakeWhile
import Mathlib.Tactic.IntervalCases

/-! Whole numbers as literals: the digits that are written are read back as the same number, and the
scanner takes them as one token once a byte follows that no number goes on with. -/
namespace DeviceAuth.Json

open Text (encoded)

def digitByte (d : Nat) : UInt8 := UInt8.ofNat (0x30 + d)

structure Spells (ds : List Nat) (n : Nat) : Prop where
  small : ∀ d ∈ ds, d < 10
  value : ds.foldl (fun n d => n * 10 + d) 0 = n
  head : ds = [0] ∨ ∃ d rest, ds = d :: rest ∧ d ≠ 0

theorem encoded_digitChar {d : Nat} (h : d < 10) : encoded [Nat.digitChar d] = [digitByte d] := by
  interval_cases d <;> rfl

theorem exists_spells (n : Nat) :
    ∃ ds, encoded (Nat.toDigits 10 n) = ds.map digitByte ∧ Spells ds n := by
  induction n using Nat.strong_induction_on with
  | _ n ih =>
    by_cases hn : n < 10
    · refine ⟨[n], ?_, ⟨by simpa using hn, by simp, ?_⟩⟩
      · rw [Nat.toDigits_of_lt_base hn, encoded_digitChar hn, List.map_singleton]
      · by_cases hz : n = 0
        · exact .inl (by rw [hz])
        · exact .inr ⟨n, [], rfl, hz⟩
    · obtain ⟨ds, hds, hsmall, hvalue, hhead⟩ := ih (n / 10) (by omega)
      have hlast : n % 10 < 10 := Nat.mod_lt n (by decide)
      refine ⟨ds ++ [n % 10], ?_, ⟨?_, ?_, ?_⟩⟩
      · rw [Nat.toDigits_of_base_le (by decide) (by omega), Text.encoded_append, hds,
          encoded_digitChar hlast, List.map_append, List.map_singleton]
      · intro d hd
        rcases List.mem_append.mp hd with hd | hd
        · exact hsmall d hd
        · rw [List.mem_singleton.mp hd]
          exact hlast
      · rw [List.foldl_append, hvalue, List.foldl_cons, List.foldl_nil]
        omega
      · rcases hhead with rfl | ⟨d, rest, rfl, hd⟩
        · simp only [List.foldl_cons, List.foldl_nil] at hvalue
          omega
        · exact .inr ⟨d, rest ++ [n % 10], rfl, hd⟩

theorem isDigit_digitByte {d : Nat} (h : d < 10) : Scan.isDigit (digitByte d) = true := by
  interval_cases d <;> rfl

namespace RawNumber

theorem digitsOf_digitByte {ds : List Nat} (h : ∀ d ∈ ds, d < 10) :
    digitsOf (ds.map digitByte) = ds := by
  rw [digitsOf, List.map_map]
  conv_rhs => rw [← List.map_id ds]
  refine List.map_congr_left fun d hd => ?_
  have hsmall := h d hd
  simp only [Function.comp, digitByte, UInt8.toNat_ofNat', id]
  omega

theorem le_foldl (n : Nat) (ds : List Nat) : n ≤ ds.foldl (fun n d => n * 10 + d) n := by
  induction ds generalizing n with
  | nil => exact Nat.le_refl n
  | cons d rest ih =>
    have hnext := ih (n * 10 + d)
    rw [List.foldl_cons]
    omega

theorem absorb_of_le {n : Nat} {ds : List Nat}
    (h : ds.foldl (fun n d => n * 10 + d) n ≤ maxNatural) :
    absorb n ds = (ds.foldl (fun n d => n * 10 + d) n, 0) := by
  induction ds generalizing n with
  | nil => rfl
  | cons d rest ih =>
    rw [List.foldl_cons] at h ⊢
    have hfits : n * 10 + d ≤ maxNatural := le_trans (le_foldl (n * 10 + d) rest) h
    rw [absorb, if_pos hfits, ih h]

theorem foldl_of_absorb {n whole : Nat} {ds : List Nat} (h : absorb n ds = (whole, 0))
    (hn : n ≤ maxNatural) :
    ds.foldl (fun n d => n * 10 + d) n = whole ∧ whole ≤ maxNatural := by
  induction ds generalizing n with
  | nil =>
    cases h
    exact ⟨rfl, hn⟩
  | cons d rest ih =>
    rw [absorb] at h
    split at h
    · rename_i hfits
      exact ih h hfits
    · cases h

theorem not_isMark {ds : List Nat} (h : ∀ d ∈ ds, d < 10) :
    ∀ b ∈ ds.map digitByte, Scan.isMark b = false ∧ b ≠ 0x2E ∧ b ≠ 0x2D := by
  intro b hb
  obtain ⟨d, hd, rfl⟩ := List.mem_map.mp hb
  have hsmall := h d hd
  interval_cases d <;> decide

def signed (negative : Bool) (ds : List Nat) : List UInt8 :=
  if negative then 0x2D :: ds.map digitByte else ds.map digitByte

theorem parts_signed {negative : Bool} {ds : List Nat} (h : ∀ d ∈ ds, d < 10) :
    parts (signed negative ds) = ⟨negative, ds, none, none⟩ := by
  have hbytes := not_isMark h
  have hmark : ∀ b ∈ ds.map digitByte, (!Scan.isMark b) = true := fun b hb => by
    rw [(hbytes b hb).1]
    rfl
  have hpoint : ∀ b ∈ ds.map digitByte, decide (b ≠ 0x2E) = true := fun b hb =>
    decide_eq_true (hbytes b hb).2.1
  have htake : (ds.map digitByte).takeWhile (!Scan.isMark ·) = ds.map digitByte :=
    List.takeWhile_eq_self_iff.mpr hmark
  have hdrop : (ds.map digitByte).dropWhile (!Scan.isMark ·) = [] :=
    List.dropWhile_eq_nil_iff.mpr hmark
  have htake' : (ds.map digitByte).takeWhile (· ≠ 0x2E) = ds.map digitByte :=
    List.takeWhile_eq_self_iff.mpr hpoint
  have hdrop' : (ds.map digitByte).dropWhile (· ≠ 0x2E) = [] :=
    List.dropWhile_eq_nil_iff.mpr hpoint
  cases negative with
  | true =>
    simp only [signed, parts, if_true, List.head?_cons, List.tail_cons, beq_self_eq_true, htake,
      hdrop, htake', hdrop', digitsOf_digitByte h]
  | false =>
    have hsign : ((ds.map digitByte).head? == some 0x2D) = false := by
      cases ds with
      | nil => rfl
      | cons d rest => simpa using (hbytes (digitByte d) (by simp)).2.2
    simp only [signed, parts, if_false, Bool.false_eq_true, hsign, htake, hdrop, htake', hdrop',
      digitsOf_digitByte h]

theorem decode_natural {ds : List Nat} {n : Nat} (h : Spells ds n) (hn : n ≤ maxNatural) :
    decode ⟨signed false ds, none⟩ = .ok (.natural n) := by
  have habsorb : absorb 0 ds = (n, 0) := by
    have hle : ds.foldl (fun n d => n * 10 + d) 0 ≤ maxNatural := h.value ▸ hn
    rw [absorb_of_le hle, h.value]
  simp [decode, parts_signed h.small, Parts.value, habsorb]

theorem decode_negative {ds : List Nat} {n : Nat} (h : Spells ds n) (hpos : 0 < n)
    (hn : n ≤ Decimal.naturalEnd 63) : decode ⟨signed true ds, none⟩ = .ok (.negative n) := by
  have hfits : n ≤ maxNatural := le_trans hn (by decide)
  have habsorb : absorb 0 ds = (n, 0) := by
    have hle : ds.foldl (fun n d => n * 10 + d) 0 ≤ maxNatural := h.value ▸ hfits
    rw [absorb_of_le hle, h.value]
  have hne : ¬(n = 0 ∨ Decimal.naturalEnd 63 < n) := by omega
  simp [decode, parts_signed h.small, Parts.value, habsorb, hne]

end RawNumber

def Number.IsExact : Number → Prop
  | .natural n => n ≤ RawNumber.maxNatural
  | .negative n => 0 < n ∧ n ≤ Decimal.naturalEnd 63
  | .float _ => False

def RawNumber.ofNumber (n : Number) : RawNumber := ⟨Text.utf8 n.text, none⟩

theorem Number.utf8_text {n : Number} (h : n.IsExact) :
    ∃ negative ds m, Text.utf8 n.text = RawNumber.signed negative ds ∧ Spells ds m ∧
      n = if negative then .negative m else .natural m := by
  cases n with
  | natural n =>
    obtain ⟨ds, hds, hspells⟩ := exists_spells n
    refine ⟨false, ds, n, ?_, hspells, rfl⟩
    rw [Number.text, Decimal.natText, Text.utf8_ofList]
    exact hds
  | negative n =>
    obtain ⟨ds, hds, hspells⟩ := exists_spells n
    refine ⟨true, ds, n, ?_, hspells, rfl⟩
    have hsign : encoded ['-'] = [0x2D] := by decide
    have hchars : (String.ofList (Nat.toDigits 10 n)).toList = Nat.toDigits 10 n :=
      String.toList_ofList
    rw [Number.text, Decimal.natText, Text.utf8_eq_encoded, String.toList_append,
      Text.encoded_append, hchars, hds]
    exact congrArg (· ++ ds.map digitByte) hsign
  | float x => exact h.elim

@[simp] theorem RawNumber.decode_ofNumber {n : Number} (h : n.IsExact) :
    (ofNumber n).decode = .ok n := by
  obtain ⟨negative, ds, m, htext, hspells, rfl⟩ := Number.utf8_text h
  rw [ofNumber, htext]
  cases negative with
  | true => exact decode_negative hspells h.1 h.2
  | false => exact decode_natural hspells h

namespace Scan

/-- The scanner stands behind complete tokens, the last of which may be a number that more digits
could still lengthen. -/
inductive Rests : Scan → List Token → Prop where
  | gap (ts : List Token) : Rests ⟨ts, .gap⟩ ts
  | zero (ts : List Token) (seen : List UInt8) :
    Rests ⟨ts, .number seen .zero⟩ (.number ⟨seen.reverse, none⟩ :: ts)
  | whole (ts : List Token) (seen : List UInt8) :
    Rests ⟨ts, .number seen .whole⟩ (.number ⟨seen.reverse, none⟩ :: ts)

def IsDelimiter (b : UInt8) : Prop := b = 0x0A ∨ b = 0x20 ∨ b = 0x2C ∨ b = 0x5D ∨ b = 0x7D

theorem Rests.byte {s : Scan} {ts : List Token} (h : Rests s ts) {b : UInt8}
    (hb : IsDelimiter b) : s.byte b = Scan.byte ⟨ts, .gap⟩ b := by
  cases h <;> rcases hb with rfl | rfl | rfl | rfl | rfl <;> rfl

theorem Rests.finish {s : Scan} {ts : List Token} (h : Rests s ts) : s.finish = ts.reverse := by
  cases h <;> simp [Scan.finish, NumberPhase.complete]

theorem foldl_whole {ts : List Token} {seen : List UInt8} {ds : List Nat}
    (h : ∀ d ∈ ds, d < 10) :
    (ds.map digitByte).foldl Scan.byte ⟨ts, .number seen .whole⟩ =
      ⟨ts, .number ((ds.map digitByte).reverse ++ seen) .whole⟩ := by
  induction ds generalizing seen with
  | nil => rfl
  | cons d rest ih =>
    obtain ⟨hd, hrest⟩ := List.forall_mem_cons.mp h
    have hbyte : Scan.byte ⟨ts, .number seen .whole⟩ (digitByte d) =
        ⟨ts, .number (digitByte d :: seen) .whole⟩ := by
      simp [Scan.byte, NumberPhase.move, isDigit_digitByte hd]
    rw [List.map_cons, List.foldl_cons, hbyte, ih hrest]
    simp

theorem foldl_signed {ts : List Token} {negative : Bool} {ds : List Nat} {n : Nat}
    (h : Spells ds n) :
    Rests ((RawNumber.signed negative ds).foldl Scan.byte ⟨ts, .gap⟩)
      (.number ⟨RawNumber.signed negative ds, none⟩ :: ts) := by
  rcases h.head with rfl | ⟨d, rest, rfl, hd⟩
  · cases negative with
    | true => exact .zero ts [0x30, 0x2D]
    | false => exact .zero ts [0x30]
  · obtain ⟨hsmall, hrest⟩ := List.forall_mem_cons.mp h.small
    cases negative with
    | true =>
      have hfirst : Scan.byte ⟨ts, .number [0x2D] .sign⟩ (digitByte d) =
          ⟨ts, .number [digitByte d, 0x2D] .whole⟩ := by
        interval_cases d <;> first | rfl | exact absurd rfl hd
      have hsign : Scan.byte ⟨ts, .gap⟩ 0x2D = ⟨ts, .number [0x2D] .sign⟩ := rfl
      simp only [RawNumber.signed, if_true, List.map_cons, List.foldl_cons, hsign, hfirst,
        foldl_whole hrest]
      have hrests := Rests.whole ts ((rest.map digitByte).reverse ++ [digitByte d, 0x2D])
      simpa using hrests
    | false =>
      have hfirst : Scan.byte ⟨ts, .gap⟩ (digitByte d) = ⟨ts, .number [digitByte d] .whole⟩ := by
        interval_cases d <;> first | rfl | exact absurd rfl hd
      simp only [RawNumber.signed, if_false, Bool.false_eq_true, List.map_cons, List.foldl_cons,
        hfirst, foldl_whole hrest]
      have hrests := Rests.whole ts ((rest.map digitByte).reverse ++ [digitByte d])
      simpa using hrests

theorem foldl_number (ts : List Token) {n : Number} (h : n.IsExact) :
    Rests ((Text.utf8 n.text).foldl Scan.byte ⟨ts, .gap⟩)
      (.number (.ofNumber n) :: ts) := by
  obtain ⟨negative, ds, m, htext, hspells, -⟩ := Number.utf8_text h
  rw [RawNumber.ofNumber, htext]
  exact foldl_signed hspells

end Scan

end DeviceAuth.Json
