import DeviceAuth.Proofs.Json.Decode
import Mathlib.Data.List.Forall2

/-! Texts that can be read as a value. Their trees have no fault in them, and whoever reads an
object for its members meets the members that the value has. -/
namespace DeviceAuth.Json

namespace Reading

/-- A key that no value follows comes with a fault. -/
def Sound : Reading → Prop
  | .object _ (some _) none => False
  | _ => True

namespace State

def Sound : State → Prop
  | .done v | .trailing v | .halted v => v.Sound
  | _ => True

variable {v : Reading} {f : Fault} {frames : List Frame}

theorem sound_put (v : Reading) (fault : Option Fault) (frame : Frame) :
    (frame.put v fault).Sound := by
  cases frame <;> trivial

theorem sound_unwind (h : v.Sound) : (unwind f v frames).Sound := by
  induction frames generalizing v with
  | nil => exact h
  | cons frame frames ih => exact ih (sound_put v (some f) frame)

theorem sound_complete (h : v.Sound) : (complete v frames).Sound := by
  cases frames with
  | nil => exact h
  | cons frame frames => trivial

theorem sound_leaf (h : v.Sound) : (leaf v frames).Sound := by
  unfold leaf
  split
  · exact sound_complete h
  · exact sound_unwind h

theorem sound_begin (t : Token) : (begin frames t).Sound := by
  cases t with
  | null => exact sound_leaf (v := .null) trivial
  | bool b => exact sound_leaf (v := .bool b) trivial
  | number n => exact sound_leaf (v := .number n) trivial
  | string s => exact sound_leaf (v := .string s) trivial
  | openList | openObject => trivial
  | _ => exact sound_unwind (v := .broken _) trivial

theorem sound_key (members : List (RawString × Reading)) (k : RawString) :
    (key members frames k).Sound := by
  unfold key
  split
  · trivial
  · exact sound_unwind (v := .object _ _ (some _)) trivial

theorem sound_step {s : State} (h : s.Sound) (t : Token) : (step s t).Sound := by
  unfold step
  split <;> first
    | exact h
    | exact sound_begin _
    | exact sound_key _ _
    | exact sound_complete trivial
    | exact sound_unwind (v := .object _ _ (some _)) trivial
    | exact sound_unwind (v := .list _ _) trivial

theorem sound_finish {s : State} (h : s.Sound) : s.finish.Sound := by
  unfold finish
  split <;> first
    | exact h
    | exact sound_unwind (v := .broken _) trivial
    | exact sound_unwind (v := .object _ _ (some _)) trivial
    | exact sound_unwind (v := .list _ _) trivial

end State

theorem sound_read (text : List UInt8) : (read text).value.Sound := by
  have hfold (tokens : List Token) {s : State} (h : s.Sound) :
      (tokens.foldl State.step s).Sound := by
    induction tokens generalizing s with
    | nil => exact h
    | cons t rest ih => exact ih (State.sound_step h t)
  have hsound := hfold (tokens text) (s := .value []) trivial
  unfold read
  split
  · rename_i v hv
    rwa [hv] at hsound
  · exact State.sound_finish hsound

end Reading

namespace Decoder

theorem mapM_ok {α β ε : Type} {f : α → Except ε β} {items : List α} {results : List β}
    (h : items.mapM f = .ok results) : List.Forall₂ (fun a b => f a = .ok b) items results := by
  induction items generalizing results with
  | nil =>
    cases h
    exact .nil
  | cons a rest ih =>
    rw [List.mapM_cons] at h
    obtain ⟨b, hb, h⟩ := Except.bind_ok h
    obtain ⟨bs, hbs, h⟩ := Except.bind_ok h
    cases h
    exact .cons hb (ih hbs)

theorem stopAt_ok {fault : Option Fault} (h : stopAt fault = .ok ()) : fault = none := by
  cases fault with
  | none => rfl
  | some f => cases h

/-- A member of a tree is read as a member of a value. -/
structure SpellsMember (levels : Nat) (m : RawString × Reading) (member : String × Json) :
    Prop where
  key : m.1.decode = .ok member.1
  value : value levels m.2 = .ok member.2

/-- How a tree looks that is read as a value. -/
inductive Spells : Nat → Reading → Json → Prop where
  | null {levels : Nat} : Spells levels .null .null
  | bool {levels : Nat} (b : Bool) : Spells levels (.bool b) (.bool b)
  | number {levels : Nat} {raw : RawNumber} {n : Number} (h : raw.decode = .ok n) :
    Spells levels (.number raw) (.number n)
  | string {levels : Nat} {raw : RawString} {s : String} (h : raw.decode = .ok s) :
    Spells levels (.string raw) (.string s)
  | array {levels : Nat} (items : List Reading) (vs : List Json) :
    Spells levels (.list items none) (.array vs)
  | object {levels : Nat} {members : List (RawString × Reading)} {ms : List (String × Json)}
    (dangling : Option RawString) (h : List.Forall₂ (SpellsMember (levels + 1)) members ms) :
    Spells (levels + 2) (.object members dangling none) (.object ms)

variable {levels : Nat} {r : Reading} {v : Json}

theorem spells_of_value_ok (h : value levels r = .ok v) : Spells levels r v := by
  unfold value at h
  split at h
  case h_1 =>
    cases h
    exact .null
  case h_2 b =>
    cases h
    exact .bool b
  case h_3 raw =>
    obtain ⟨n, hn, h⟩ := Except.bind_ok h
    cases h
    exact .number (lift_ok hn)
  case h_4 raw =>
    obtain ⟨s, hs, h⟩ := Except.bind_ok h
    cases h
    exact .string (lift_ok hs)
  case h_5 | h_6 | h_7 => cases h
  case h_8 inner items stop _ =>
    obtain ⟨vs, -, h⟩ := Except.bind_ok h
    obtain ⟨_, hstop, h⟩ := Except.bind_ok h
    cases h
    exact stopAt_ok hstop ▸ .array items vs
  case h_9 levels members dangling stop hlevels =>
    obtain ⟨ms, hms, h⟩ := Except.bind_ok h
    have hrest : stopAt stop = .ok () ∧ v = .object ms := by
      split at h
      · obtain ⟨_, -, h⟩ := Except.bind_ok h
        obtain ⟨_, hstop, h⟩ := Except.bind_ok h
        exact ⟨hstop, (Except.ok.inj h).symm⟩
      · obtain ⟨_, hstop, h⟩ := Except.bind_ok h
        exact ⟨hstop, (Except.ok.inj h).symm⟩
    obtain ⟨hstop, rfl⟩ := hrest
    obtain ⟨inner, rfl⟩ := Nat.exists_eq_succ_of_ne_zero hlevels
    rw [stopAt_ok hstop]
    refine .object dangling ((mapM_ok hms).imp ?_)
    rintro ⟨k, r⟩ member hmember
    obtain ⟨key, hkey, hmember⟩ := Except.bind_ok hmember
    obtain ⟨w, hw, hmember⟩ := Except.bind_ok hmember
    cases hmember
    exact ⟨lift_ok hkey, hw⟩

theorem fault_eq_none_of_decode {s : RawString} {text : String} (h : s.decode = .ok text) :
    s.fault = none := by
  have hopen (acc : List UInt8) (phase : RawString.Phase) (bytes out : List UInt8) :
      RawString.unescape false acc phase bytes ≠ .ok out := by
    induction bytes generalizing acc phase with
    | nil => simp [RawString.unescape]
    | cons b rest ih =>
      rw [RawString.unescape]
      split
      · exact ih _ _
      · simp
  unfold RawString.decode at h
  split at h
  · cases h
  · rename_i bytes hbytes
    cases hfault : s.fault with
    | none => rfl
    | some f =>
      rw [hfault] at hbytes
      exact absurd hbytes (hopen _ _ _ _)

theorem defect_eq_none_of_decode {n : RawNumber} {m : Number} (h : n.decode = .ok m) :
    n.defect = none := by
  unfold RawNumber.decode at h
  split at h
  · cases h
  · cases h
  · assumption

theorem Spells.fault? (h : Spells levels r v) : r.fault? = none := by
  cases h with
  | null | bool _ | array _ _ | object _ _ => rfl
  | number h =>
    rw [Reading.fault?, Reading.skippedNumberFault, defect_eq_none_of_decode h]
    rfl
  | string h => exact fault_eq_none_of_decode h

theorem Spells.string_eq {text : String} (h : Spells levels r (.string text)) :
    Decoder.string levels r = .ok text := by
  cases h with
  | string h => rw [Decoder.string, h, lift]

theorem Spells.exists_members {ms : List (String × Json)} (h : Spells levels r (.object ms))
    (hr : r.Sound) : ∃ inner members, levels = inner + 2 ∧ r = .object members none none ∧
      List.Forall₂ (SpellsMember (inner + 1)) members ms := by
  cases h with
  | object dangling h =>
    cases dangling with
    | none => exact ⟨_, _, rfl, rfl, h⟩
    | some k => exact hr.elim

theorem SpellsMember.exists_mem {members : List (RawString × Reading)}
    {ms : List (String × Json)} (h : List.Forall₂ (SpellsMember levels) members ms)
    {m : RawString × Reading} (hm : m ∈ members) : ∃ member ∈ ms, SpellsMember levels m member := by
  induction h with
  | nil => cases hm
  | cons hspells hrest ih =>
    rcases List.mem_cons.mp hm with rfl | hm
    · exact ⟨_, List.mem_cons_self, hspells⟩
    · obtain ⟨member, hmember, hm⟩ := ih hm
      exact ⟨member, List.mem_cons_of_mem _ hmember, hm⟩

theorem Shape.exists_fromMembers {σ α : Type} {shape : Shape σ α}
    {P : List (String × Json) → σ → Prop}
    (hstep : ∀ m member rest s, SpellsMember levels m member → P (member :: rest) s →
      ∃ s', (∀ tail, shape.fromMembers levels (m :: tail) s = shape.fromMembers levels tail s') ∧
        P rest s')
    {members : List (RawString × Reading)} {ms : List (String × Json)}
    (hmembers : List.Forall₂ (SpellsMember levels) members ms) {s : σ} (hs : P ms s) :
    ∃ s', shape.fromMembers levels members s = .ok s' ∧ P [] s' := by
  induction hmembers generalizing s with
  | nil => exact ⟨s, rfl, hs⟩
  | cons hm hrest ih =>
    obtain ⟨s₁, hread, hs₁⟩ := hstep _ _ _ s hm hs
    obtain ⟨s', hs', hend⟩ := ih hs₁
    exact ⟨s', (hread _).trans hs', hend⟩

end Decoder

theorem exists_members_of_decode {text : List UInt8} {ms : List (String × Json)}
    (h : decode Decoder.value text = .ok (.object ms)) :
    ∃ members, (read text).value = .object members none none ∧
      List.Forall₂ (Decoder.SpellsMember (maxLevels - 1)) members ms := by
  have hvalue := (decode_eq_ok_iff.mp h).1
  obtain ⟨inner, members, hlevels, hread, hmembers⟩ :=
    (Decoder.spells_of_value_ok hvalue).exists_members (Reading.sound_read text)
  obtain rfl : inner = 126 := (Nat.add_right_cancel (m := 2) hlevels).symm
  exact ⟨members, hread, hmembers⟩

end DeviceAuth.Json
