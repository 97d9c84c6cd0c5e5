import DeviceAuth.Proofs.Json.Parser

/-! The bytes of a tree are scanned as its tokens: a number in it is followed by the end of the
text, by a space, or by a token that no number goes on with. -/
namespace DeviceAuth.Json

/-- A token that may stand right behind a number. -/
def Token.EndsNumber : Token → Prop
  | .comma | .closeList | .closeObject => True
  | _ => False

/-- Behind every number stands a token that ends it, or nothing. -/
def Delimited : List Token → Prop
  | .number _ :: ts => (∀ t ∈ ts.head?, t.EndsNumber) ∧ Delimited ts
  | _ :: ts => Delimited ts
  | [] => True

/-- Some tokens can stand before all that may follow a number. -/
def Delimits (part : List Token) : Prop :=
  ∀ rest, Delimited rest → (∀ t ∈ rest.head?, t.EndsNumber) → Delimited (part ++ rest)

theorem delimits_intercalate {parts : List (List Token)} (h : ∀ part ∈ parts, Delimits part) :
    Delimits ([Token.comma].intercalate parts) := by
  intro rest hrest hhead
  induction parts with
  | nil => simpa using hrest
  | cons part parts ih =>
    obtain ⟨hpart, hparts⟩ := List.forall_mem_cons.mp h
    cases parts with
    | nil =>
      rw [List.intercalate_singleton]
      exact hpart rest hrest hhead
    | cons next parts =>
      rw [List.intercalate_cons_cons, List.append_assoc, List.append_assoc]
      refine hpart _ (ih hparts) fun t ht => ?_
      obtain rfl : t = .comma := by simpa using ht.symm
      trivial

namespace Reading

theorem delimits_toTokens {v : Reading} (h : v.IsWhole) : Delimits v.toTokens := by
  have hclosed {t : Token} (ht : t.EndsNumber) {parts : List (List Token)} {rest : List Token}
      (hparts : ∀ part ∈ parts, Delimits part) (hrest : Delimited (t :: rest)) :
      Delimited ([Token.comma].intercalate parts ++ [t] ++ rest) := by
    rw [List.append_assoc]
    refine delimits_intercalate hparts _ hrest fun t' ht' => ?_
    obtain rfl : t' = t := by simpa using ht'.symm
    exact ht
  induction h with
  | null | bool b | string bytes =>
    intro rest hrest hhead
    rw [toTokens]
    exact hrest
  | number bytes =>
    intro rest hrest hhead
    rw [toTokens]
    exact ⟨hhead, hrest⟩
  | list h ih =>
    intro rest hrest hhead
    have hend : Token.EndsNumber .closeList := trivial
    rw [toTokens]
    exact hclosed hend (List.forall_mem_map.mpr ih) hrest
  | object hkeys h ih =>
    intro rest hrest hhead
    have hend : Token.EndsNumber .closeObject := trivial
    rw [toTokens]
    exact hclosed hend (List.forall_mem_map.mpr fun m hm => ih m hm) hrest

theorem delimited_toTokens {v : Reading} (h : v.IsWhole) : Delimited v.toTokens := by
  have hdelimited := delimits_toTokens h [] trivial nofun
  rwa [List.append_nil] at hdelimited

end Reading

namespace Scan

/-- The scanner stands behind complete tokens, the last of which may be a number that could still
go on. -/
inductive Stands : Scan → List Token → Prop where
  | gap (ts : List Token) : Stands ⟨ts, .gap⟩ ts
  | number (ts : List Token) (seen : List UInt8) {phase : NumberPhase}
      (h : phase.complete = true) :
      Stands ⟨ts, .number seen phase⟩ (.number ⟨seen.reverse, none⟩ :: ts)

def EndsNumber (b : UInt8) : Prop := isSpace b = true ∨ b = 0x2C ∨ b = 0x5D ∨ b = 0x7D

variable {s : Scan} {ts : List Token} {b : UInt8} {seen bs ds : List UInt8} {phase : NumberPhase}

theorem Stands.finish (h : Stands s ts) : s.finish = ts.reverse := by
  cases h with
  | gap ts => simp [Scan.finish]
  | number ts seen hcomplete => simp [Scan.finish, hcomplete]

theorem Stands.byte (h : Stands s ts) (hb : EndsNumber b) : s.byte b = Scan.byte ⟨ts, .gap⟩ b := by
  have hcases : b = 0x20 ∨ b = 0x0A ∨ b = 0x09 ∨ b = 0x0D ∨ b = 0x2C ∨ b = 0x5D ∨ b = 0x7D := by
    simpa [EndsNumber, isSpace, or_assoc] using hb
  cases h with
  | gap ts => rfl
  | @number ts seen phase hcomplete =>
    cases phase with
    | sign | point | mark | markSign => cases hcomplete
    | zero | whole | fraction | power =>
      rcases hcases with rfl | rfl | rfl | rfl | rfl | rfl | rfl <;> rfl

theorem foldl_spaces (h : IsSpaces bs) : bs.foldl byte ⟨ts, .gap⟩ = ⟨ts, .gap⟩ := by
  induction bs with
  | nil => rfl
  | cons b rest ih =>
    obtain ⟨hb, hrest⟩ := List.forall_mem_cons.mp h
    have hbyte : byte ⟨ts, .gap⟩ b = ⟨ts, .gap⟩ := by
      simp only [byte, gap, hb, if_true]
    rw [List.foldl_cons, hbyte, ih hrest]

theorem byte_go {next : NumberPhase} (h : phase.move b = .go next) :
    byte ⟨ts, .number seen phase⟩ b = ⟨ts, .number (b :: seen) next⟩ := by
  simp only [byte, h]

theorem foldl_digits (hphase : ∀ d, isDigit d = true → phase.move d = .go phase)
    (h : ∀ d ∈ ds, isDigit d = true) :
    ds.foldl byte ⟨ts, .number seen phase⟩ = ⟨ts, .number (ds.reverse ++ seen) phase⟩ := by
  induction ds generalizing seen with
  | nil => rfl
  | cons d rest ih =>
    obtain ⟨hd, hrest⟩ := List.forall_mem_cons.mp h
    rw [List.foldl_cons, byte_go (hphase d hd), ih hrest]
    simp

theorem foldl_isDigits {first : NumberPhase} (hds : IsDigits ds)
    (hfirst : ∀ d, isDigit d = true → first.move d = .go phase)
    (hphase : ∀ d, isDigit d = true → phase.move d = .go phase) :
    ds.foldl byte ⟨ts, .number seen first⟩ = ⟨ts, .number (ds.reverse ++ seen) phase⟩ := by
  obtain ⟨hne, hdigit⟩ := hds
  cases ds with
  | nil => exact absurd rfl hne
  | cons d rest =>
    obtain ⟨hd, hrest⟩ := List.forall_mem_cons.mp hdigit
    rw [List.foldl_cons, byte_go (hfirst d hd), foldl_digits hphase hrest]
    simp

theorem ne_of_isDigit {c : UInt8} (hb : isDigit b = true) (hc : isDigit c = false) : b ≠ c := by
  rintro rfl
  rw [hb] at hc
  cases hc

theorem byte_first_digit (hb : isDigit b = true) (hzero : b ≠ 0x30) :
    byte ⟨ts, .gap⟩ b = ⟨ts, .number [b] .whole⟩ := by
  have hne {c : UInt8} (hc : isDigit c = false) : b ≠ c := ne_of_isDigit hb hc
  have hspace : isSpace b = false := by
    simp [isSpace, hne (c := 0x20) rfl, hne (c := 0x0A) rfl, hne (c := 0x09) rfl,
      hne (c := 0x0D) rfl]
  simp [byte, gap, hspace, hne (c := 0x22) rfl, hne (c := 0x2C) rfl, hne (c := 0x3A) rfl,
    hne (c := 0x7B) rfl, hne (c := 0x7D) rfl, hne (c := 0x5B) rfl, hne (c := 0x5D) rfl,
    hne (c := 0x2D) rfl, hzero, hb]

theorem foldl_isSigned (h : IsSigned bs) :
    ∃ phase : NumberPhase, (phase = .zero ∨ phase = .whole) ∧
      bs.foldl byte ⟨ts, .gap⟩ = ⟨ts, .number bs.reverse phase⟩ := by
  have hwhole : ∀ d, isDigit d = true → NumberPhase.move d .whole = .go .whole := fun d hd => by
    simp [NumberPhase.move, hd]
  cases h with
  | positive h =>
    cases h with
    | zero => exact ⟨.zero, .inl rfl, rfl⟩
    | digits hb hzero hds =>
      refine ⟨.whole, .inr rfl, ?_⟩
      rw [List.foldl_cons, byte_first_digit hb hzero, foldl_digits hwhole hds, List.reverse_cons]
  | negative h =>
    have hsign : byte ⟨ts, .gap⟩ 0x2D = ⟨ts, .number [0x2D] .sign⟩ := rfl
    cases h with
    | zero => exact ⟨.zero, .inl rfl, rfl⟩
    | @digits b ds hb hzero hds =>
      have hfirst : NumberPhase.move b .sign = .go .whole := by
        simp [NumberPhase.move, hzero, hb]
      refine ⟨.whole, .inr rfl, ?_⟩
      rw [List.foldl_cons, hsign, List.foldl_cons, byte_go hfirst, foldl_digits hwhole hds]
      simp

theorem foldl_isFraction (hphase : phase = .zero ∨ phase = .whole) (h : IsFraction bs) :
    ∃ next : NumberPhase, (next = .zero ∨ next = .whole ∨ next = .fraction) ∧
      bs.foldl byte ⟨ts, .number seen phase⟩ = ⟨ts, .number (bs.reverse ++ seen) next⟩ := by
  cases h with
  | none => exact ⟨phase, hphase.imp_right .inl, rfl⟩
  | @point ds hds =>
    have hpoint : phase.move 0x2E = .go .point := by
      rcases hphase with rfl | rfl <;> rfl
    have hfirst : ∀ d, isDigit d = true → NumberPhase.move d .point = .go .fraction :=
      fun d hd => by simp [NumberPhase.move, hd]
    have hfraction : ∀ d, isDigit d = true → NumberPhase.move d .fraction = .go .fraction :=
      fun d hd => by simp [NumberPhase.move, hd]
    refine ⟨.fraction, .inr (.inr rfl), ?_⟩
    rw [List.foldl_cons, byte_go hpoint, foldl_isDigits hds hfirst hfraction]
    simp

theorem foldl_isPower (hphase : phase = .zero ∨ phase = .whole ∨ phase = .fraction)
    (h : IsPower bs) :
    ∃ next : NumberPhase, next.complete = true ∧
      bs.foldl byte ⟨ts, .number seen phase⟩ = ⟨ts, .number (bs.reverse ++ seen) next⟩ := by
  have hmove {mark : UInt8} (hmark : isMark mark = true) : phase.move mark = .go .mark := by
    have hletter : mark = 0x65 ∨ mark = 0x45 := by simpa [isMark] using hmark
    rcases hphase with rfl | rfl | rfl <;> rcases hletter with rfl | rfl <;> rfl
  have hpower : ∀ d, isDigit d = true → NumberPhase.move d .power = .go .power := fun d hd => by
    simp [NumberPhase.move, hd]
  cases h with
  | none =>
    refine ⟨phase, ?_, rfl⟩
    rcases hphase with rfl | rfl | rfl <;> rfl
  | @plain mark ds hmark hds =>
    have hfirst : ∀ d, isDigit d = true → NumberPhase.move d .mark = .go .power := by
      intro d hd
      simp [NumberPhase.move, ne_of_isDigit (c := 0x2B) hd rfl,
        ne_of_isDigit (c := 0x2D) hd rfl, hd]
    refine ⟨.power, rfl, ?_⟩
    rw [List.foldl_cons, byte_go (hmove hmark), foldl_isDigits hds hfirst hpower]
    simp
  | @signed mark sign ds hmark hsign hds =>
    have hsign' : NumberPhase.move sign .mark = .go .markSign := by
      rcases hsign with rfl | rfl <;> rfl
    have hfirst : ∀ d, isDigit d = true → NumberPhase.move d .markSign = .go .power :=
      fun d hd => by simp [NumberPhase.move, hd]
    refine ⟨.power, rfl, ?_⟩
    rw [List.foldl_cons, byte_go (hmove hmark), List.foldl_cons, byte_go hsign',
      foldl_isDigits hds hfirst hpower]
    simp

theorem foldl_isNumeral (h : IsNumeral bs) :
    Stands (bs.foldl byte ⟨ts, .gap⟩) (.number ⟨bs, none⟩ :: ts) := by
  obtain @⟨whole, fraction, power, hwhole, hfraction, hpower⟩ := h
  obtain ⟨phase, hphase, hfold⟩ := foldl_isSigned hwhole
  obtain ⟨next, hnext, hfold'⟩ := foldl_isFraction hphase hfraction
  obtain ⟨last, hcomplete, hfold''⟩ := foldl_isPower hnext hpower
  rw [List.foldl_append, List.foldl_append, hfold, hfold', hfold'']
  have hstands := Stands.number ts (power.reverse ++ (fraction.reverse ++ whole.reverse)) hcomplete
  simpa using hstands

theorem foldl_hex (hlength : ds.length = 4) (hhex : ∀ d ∈ ds, isHex d = true) :
    ds.foldl byte ⟨ts, .string seen (.hex 4 true)⟩ = ⟨ts, .string (ds.reverse ++ seen) .plain⟩ := by
  obtain ⟨a, b, c, d, rfl⟩ : ∃ a b c d, ds = [a, b, c, d] := by
    match ds, hlength with
    | [a, b, c, d], _ => exact ⟨a, b, c, d, rfl⟩
  simp only [List.forall_mem_cons] at hhex
  obtain ⟨ha, hb, hc, hd, -⟩ := hhex
  simp [byte, ha, hb, hc, hd]

theorem foldl_isContent (h : IsContent bs) :
    bs.foldl byte ⟨ts, .string seen .plain⟩ = ⟨ts, .string (bs.reverse ++ seen) .plain⟩ := by
  induction h generalizing seen with
  | nil => rfl
  | @plain b bs hcontrol hquote hslash h ih =>
    have hbyte : byte ⟨ts, .string seen .plain⟩ b = ⟨ts, .string (b :: seen) .plain⟩ := by
      simp [byte, hcontrol, hquote, hslash]
    rw [List.foldl_cons, hbyte, ih]
    simp
  | @escape b bs hb h ih =>
    have hslash : byte ⟨ts, .string seen .plain⟩ 0x5C = ⟨ts, .string (0x5C :: seen) .escape⟩ := rfl
    have hbyte : byte ⟨ts, .string (0x5C :: seen) .escape⟩ b =
        ⟨ts, .string (b :: 0x5C :: seen) .plain⟩ := by
      simp [byte, hb]
    rw [List.foldl_cons, hslash, List.foldl_cons, hbyte, ih]
    simp
  | @unicode ds bs hlength hhex h ih =>
    have hslash : byte ⟨ts, .string seen .plain⟩ 0x5C = ⟨ts, .string (0x5C :: seen) .escape⟩ := rfl
    have hu : byte ⟨ts, .string (0x5C :: seen) .escape⟩ 0x75 =
        ⟨ts, .string (0x75 :: 0x5C :: seen) (.hex 4 true)⟩ := rfl
    rw [List.foldl_cons, hslash, List.foldl_cons, hu, List.foldl_append, foldl_hex hlength hhex, ih]
    simp

theorem foldl_spelling {t : Token} {word : List UInt8} (h : Spelling t word) :
    Stands (word.foldl byte ⟨ts, .gap⟩) (t :: ts) := by
  cases h with
  | number h => exact foldl_isNumeral h
  | @string bs h =>
    have hopen : byte ⟨ts, .gap⟩ 0x22 = ⟨ts, .string [] .plain⟩ := rfl
    have hclose : byte ⟨ts, .string bs.reverse .plain⟩ 0x22 = ⟨.string ⟨bs, none⟩ :: ts, .gap⟩ := by
      simp [byte, emit]
    rw [List.foldl_cons, hopen, List.foldl_append, foldl_isContent h, List.append_nil,
      List.foldl_cons, List.foldl_nil, hclose]
    exact .gap _
  | _ => exact .gap _

def Admits (s : Scan) (ts : List Token) : Prop := s.mode = .gap ∨ ∀ t ∈ ts.head?, t.EndsNumber

theorem foldl_word {found : List Token} {t : Token} {spaces word : List UInt8}
    (hs : Stands s found) (hadmits : s.Admits (t :: ts)) (hspaces : IsSpaces spaces)
    (hword : Spelling t word) :
    (spaces ++ word).foldl byte s = word.foldl byte ⟨found, .gap⟩ := by
  cases spaces with
  | nil =>
    rw [List.nil_append]
    rcases hadmits with hgap | hends
    · cases hs with
      | gap => rfl
      | number => cases hgap
    · have hends : t.EndsNumber := hends t rfl
      cases hword with
      | comma => exact hs.byte (.inr (.inl rfl))
      | closeList => exact hs.byte (.inr (.inr (.inl rfl)))
      | closeObject => exact hs.byte (.inr (.inr (.inr rfl)))
      | _ => exact hends.elim
  | cons b rest =>
    obtain ⟨hb, hrest⟩ := List.forall_mem_cons.mp hspaces
    rw [List.cons_append, List.foldl_cons, hs.byte (.inl hb), ← List.foldl_cons, ← List.cons_append,
      List.foldl_append, foldl_spaces hspaces]

theorem Stands.admits {t : Token} (hs : Stands s (t :: ts)) {rest : List Token}
    (h : Delimited (t :: rest)) : s.Admits rest ∧ Delimited rest := by
  cases hs with
  | gap => cases t with
    | number n => exact ⟨.inl rfl, h.2⟩
    | _ => exact ⟨.inl rfl, h⟩
  | number => exact ⟨.inr h.1, h.2⟩

theorem finish_of_spaced {found : List Token} (hs : Stands s found) (hadmits : s.Admits ts)
    (hdelimited : Delimited ts) (h : Spaced ts bs) :
    (bs.foldl byte s).finish = found.reverse ++ ts := by
  induction h generalizing s found with
  | @nil spaces hspaces =>
    rw [List.append_nil]
    cases spaces with
    | nil => exact hs.finish
    | cons b rest =>
      obtain ⟨hb, hrest⟩ := List.forall_mem_cons.mp hspaces
      rw [List.foldl_cons, hs.byte (.inl hb), ← List.foldl_cons, foldl_spaces hspaces]
      exact (Stands.gap found).finish
  | @cons spaces word bs t ts hspaces hword h ih =>
    have hstands : Stands (word.foldl byte ⟨found, .gap⟩) (t :: found) := foldl_spelling hword
    obtain ⟨hadmits', hdelimited'⟩ := hstands.admits hdelimited
    rw [List.foldl_append, foldl_word hs hadmits hspaces hword,
      ih hstands hadmits' hdelimited', List.reverse_cons, List.append_assoc, List.singleton_append]

end Scan

theorem tokens_of_spaced {ts : List Token} {text : List UInt8} (h : Spaced ts text)
    (hdelimited : Delimited ts) : tokens text = ts :=
  Scan.finish_of_spaced (.gap []) (.inl rfl) hdelimited h

end DeviceAuth.Json
