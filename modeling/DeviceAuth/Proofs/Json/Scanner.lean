import DeviceAuth.Proofs.Json.Grammar
import Mathlib.Data.List.Induction

/-! What the scanner has followed of a text. A text in which no broken literal is found is the bytes
of the tokens that are found, with spaces around them. -/
namespace DeviceAuth.Json

theorem IsContent.append {as bs : List UInt8} (ha : IsContent as) (hb : IsContent bs) :
    IsContent (as ++ bs) := by
  induction ha with
  | nil => exact hb
  | plain hcontrol hquote hslash h ih => exact .plain hcontrol hquote hslash ih
  | escape hc h ih => exact .escape hc ih
  | @unicode ds as hlength hhex h ih =>
    rw [List.cons_append, List.cons_append, List.append_assoc]
    exact .unicode hlength hhex ih

theorem IsDigits.concat {ds : List UInt8} (h : IsDigits ds) {b : UInt8}
    (hb : Scan.isDigit b = true) : IsDigits (ds ++ [b]) where
  nonempty := by simp
  digit := List.forall_mem_append.mpr ⟨h.digit, List.forall_mem_singleton.mpr hb⟩

theorem isDigits_singleton {b : UInt8} (hb : Scan.isDigit b = true) : IsDigits [b] :=
  ⟨by simp, by simpa using hb⟩

theorem IsSpaces.concat {spaces : List UInt8} (h : IsSpaces spaces) {b : UInt8}
    (hb : Scan.isSpace b = true) : IsSpaces (spaces ++ [b]) :=
  List.forall_mem_append.mpr ⟨h, List.forall_mem_singleton.mpr hb⟩

namespace Spaced

variable {ts : List Token} {text : List UInt8}

theorem space (h : Spaced ts text) {b : UInt8} (hb : Scan.isSpace b = true) :
    Spaced ts (text ++ [b]) := by
  induction h with
  | nil hspaces => exact .nil (hspaces.concat hb)
  | cons hspaces hword h ih =>
    rw [List.append_assoc]
    exact .cons hspaces hword ih

theorem concat (h : Spaced ts text) {t : Token} {word : List UInt8} (hword : Spelling t word) :
    Spaced (ts ++ [t]) (text ++ word) := by
  induction h with
  | nil hspaces =>
    rw [List.nil_append, ← List.append_nil (_ ++ word)]
    exact .cons hspaces hword (.nil nofun)
  | cons hspaces hfirst h ih =>
    rw [List.append_assoc]
    exact .cons hspaces hfirst ih

end Spaced

def Token.IsIntact : Token → Prop
  | .number n => n.defect = none
  | .string s => s.fault = none
  | .misspelt | .stray => False
  | _ => True

namespace Scan

/-- A number as far as its point. -/
def IsMantissa (bs : List UInt8) : Prop :=
  ∃ whole fraction, IsSigned whole ∧ IsFraction fraction ∧ bs = whole ++ fraction

inductive NumberPhase.Reads : NumberPhase → List UInt8 → Prop where
  | sign : Reads .sign [0x2D]
  | zero {bs : List UInt8} (h : bs = [] ∨ bs = [0x2D]) : Reads .zero (bs ++ [0x30])
  | whole {bs ds : List UInt8} {b : UInt8} (h : bs = [] ∨ bs = [0x2D]) (hb : isDigit b = true)
      (hzero : b ≠ 0x30) (hds : ∀ d ∈ ds, isDigit d = true) : Reads .whole (bs ++ b :: ds)
  | point {bs : List UInt8} (h : IsSigned bs) : Reads .point (bs ++ [0x2E])
  | fraction {bs ds : List UInt8} (h : IsSigned bs) (hds : IsDigits ds) :
      Reads .fraction (bs ++ 0x2E :: ds)
  | mark {bs : List UInt8} {b : UInt8} (h : IsMantissa bs) (hb : isMark b = true) :
      Reads .mark (bs ++ [b])
  | markSign {bs : List UInt8} {b c : UInt8} (h : IsMantissa bs) (hb : isMark b = true)
      (hc : c = 0x2B ∨ c = 0x2D) : Reads .markSign (bs ++ [b, c])
  | power {bs power : List UInt8} (h : IsMantissa bs) (hpower : IsPower power)
      (hne : power ≠ []) : Reads .power (bs ++ power)

theorem isSigned_of {bs whole : List UInt8} (h : bs = [] ∨ bs = [0x2D]) (hwhole : IsInteger whole) :
    IsSigned (bs ++ whole) := by
  rcases h with rfl | rfl
  · exact .positive hwhole
  · exact .negative hwhole

theorem isMantissa_whole {bs : List UInt8} (h : IsSigned bs) : IsMantissa bs :=
  ⟨bs, [], h, .none, (List.append_nil bs).symm⟩

theorem isMantissa_fraction {bs ds : List UInt8} (h : IsSigned bs) (hds : IsDigits ds) :
    IsMantissa (bs ++ 0x2E :: ds) :=
  ⟨bs, _, h, .point hds, rfl⟩

theorem IsMantissa.isNumeral {bs power : List UInt8} (h : IsMantissa bs) (hpower : IsPower power) :
    IsNumeral (bs ++ power) := by
  obtain ⟨whole, fraction, hwhole, hfraction, rfl⟩ := h
  exact .of hwhole hfraction hpower

theorem isPower_concat {power : List UInt8} (h : IsPower power) (hne : power ≠ []) {b : UInt8}
    (hb : isDigit b = true) : IsPower (power ++ [b]) := by
  cases h with
  | none => exact absurd rfl hne
  | plain hmark hds => exact .plain hmark (hds.concat hb)
  | signed hmark hsign hds => exact .signed hmark hsign (hds.concat hb)

namespace NumberPhase

variable {phase next : NumberPhase} {bs : List UInt8} {b : UInt8}

theorem reads_whole_move (h : IsSigned bs) (hnext : next = .point ∧ b = 0x2E ∨
    next = .mark ∧ isMark b = true) : next.Reads (bs ++ [b]) := by
  rcases hnext with ⟨rfl, rfl⟩ | ⟨rfl, hb⟩
  · exact .point h
  · exact .mark (isMantissa_whole h) hb

/-- A number goes on in the phase that its next byte calls for. -/
theorem reads_move (h : phase.Reads bs) (hmove : phase.move b = .go next) :
    next.Reads (bs ++ [b]) := by
  cases h with
  | sign =>
    simp only [move, beq_iff_eq] at hmove
    split_ifs at hmove with hzero hdigit
    · cases hmove
      subst hzero
      exact .zero (.inr rfl)
    · cases hmove
      exact .whole (.inr rfl) hdigit hzero (List.forall_mem_nil _)
  | zero h =>
    have hsigned := isSigned_of h .zero
    simp only [move, beq_iff_eq] at hmove
    split_ifs at hmove with hdigit hpoint hmark <;> cases hmove
    · exact reads_whole_move hsigned (.inl ⟨rfl, hpoint⟩)
    · exact reads_whole_move hsigned (.inr ⟨rfl, hmark⟩)
  | @whole bs ds d h hd hzero hds =>
    have hsigned := isSigned_of h (.digits hd hzero hds)
    simp only [move, beq_iff_eq] at hmove
    split_ifs at hmove with hdigit hpoint hmark <;> cases hmove
    · rw [List.append_assoc, List.cons_append]
      have hlonger := List.forall_mem_append.mpr ⟨hds, List.forall_mem_singleton.mpr hdigit⟩
      exact .whole h hd hzero hlonger
    · exact reads_whole_move hsigned (.inl ⟨rfl, hpoint⟩)
    · exact reads_whole_move hsigned (.inr ⟨rfl, hmark⟩)
  | point h =>
    simp only [move] at hmove
    split_ifs at hmove with hdigit
    cases hmove
    rw [List.append_assoc]
    exact .fraction h (isDigits_singleton hdigit)
  | fraction h hds =>
    simp only [move] at hmove
    split_ifs at hmove with hdigit hmark <;> cases hmove
    · rw [List.append_assoc, List.cons_append]
      exact .fraction h (hds.concat hdigit)
    · exact .mark (isMantissa_fraction h hds) hmark
  | mark h hb =>
    simp only [move, Bool.or_eq_true, beq_iff_eq] at hmove
    rw [List.append_assoc]
    split_ifs at hmove with hsign hdigit <;> cases hmove
    · exact .markSign h hb hsign
    · exact .power h (.plain hb (isDigits_singleton hdigit)) (by simp)
  | markSign h hb hc =>
    simp only [move] at hmove
    rw [List.append_assoc]
    split_ifs at hmove with hdigit
    cases hmove
    exact .power h (.signed hb hc (isDigits_singleton hdigit)) (by simp)
  | power h hpower hne =>
    simp only [move] at hmove
    rw [List.append_assoc]
    split_ifs at hmove with hdigit
    cases hmove
    exact .power h (isPower_concat hpower hne hdigit) (by simp)

theorem isNumeral_of_complete (h : phase.Reads bs) (hcomplete : phase.complete = true) :
    IsNumeral bs := by
  have hmantissa {bs : List UInt8} (h : IsMantissa bs) : IsNumeral bs := by
    have hnumeral := h.isNumeral .none
    rwa [List.append_nil] at hnumeral
  cases h with
  | sign | point _ | mark _ _ | markSign _ _ _ => cases hcomplete
  | zero h => exact hmantissa (isMantissa_whole (isSigned_of h .zero))
  | whole h hb hzero hds =>
    exact hmantissa (isMantissa_whole (isSigned_of h (.digits hb hzero hds)))
  | fraction h hds => exact hmantissa (isMantissa_fraction h hds)
  | power h hpower hne => exact h.isNumeral hpower

theorem complete_of_finish (h : phase.move b = .finish) : phase.complete = true := by
  cases phase with
  | zero | whole | fraction | power => rfl
  | sign | point | mark | markSign =>
    simp only [move] at h
    split_ifs at h

end NumberPhase

inductive StringPhase.Reads : StringPhase → List UInt8 → Prop where
  | plain {bs : List UInt8} (h : IsContent bs) : Reads .plain bs
  | escape {bs : List UInt8} (h : IsContent bs) : Reads .escape (bs ++ [0x5C])
  | hex {bs ds : List UInt8} {owed : Nat} {good : Bool} (h : IsContent bs)
      (hlength : ds.length + owed = 4) (howed : 0 < owed)
      (hhex : good = true → ∀ d ∈ ds, isHex d = true) :
      Reads (.hex owed good) (bs ++ 0x5C :: 0x75 :: ds)

def Mode.Reads : Mode → List UInt8 → Prop
  | .gap, word => word = []
  | .literal owed t, word => owed ≠ [] ∧ Spelling t (word ++ owed)
  | .number read phase, word => word = read.reverse ∧ phase.Reads word
  | .string read phase, word => word = 0x22 :: read.reverse ∧ phase.Reads read.reverse
  | .stopped, _ => False

/-- The text is the tokens that have been found and what has been read of the next one. -/
structure Follows (text : List UInt8) (s : Scan) (front word : List UInt8) : Prop where
  text_eq : text = front ++ word
  tokens : Spaced s.tokens.reverse front
  mode : s.mode.Reads word

/-- The text has been followed so far, or a broken literal has been found in it. -/
def Holds (text : List UInt8) (s : Scan) : Prop :=
  (∃ front word, Follows text s front word) ∨ ∃ t ∈ s.tokens, ¬t.IsIntact

variable {s : Scan} {text front word : List UInt8} {b : UInt8}

theorem holds_stop (text : List UInt8) (s : Scan) {t : Token} (h : ¬t.IsIntact) :
    Holds text (s.stop t) :=
  .inr ⟨t, List.mem_cons_self, h⟩

theorem holds_emit (h : Spaced s.tokens.reverse front) {t : Token} (hword : Spelling t word) :
    Holds (front ++ word) (s.emit t) := by
  refine .inl ⟨front ++ word, [], (List.append_nil _).symm, ?_, rfl⟩
  rw [emit, List.reverse_cons]
  exact h.concat hword

/-- What a byte between tokens does. -/
inductive GapCase (s : Scan) (b : UInt8) : Prop where
  | space (hspace : isSpace b = true) (heq : s.gap b = s)
  | emits (hspace : isSpace b = false) (t : Token) (hword : Spelling t [b])
      (heq : s.gap b = s.emit t)
  | opens (hspace : isSpace b = false) (mode : Mode) (hread : mode.Reads [b])
      (heq : s.gap b = ⟨s.tokens, mode⟩)
  | stray (hspace : isSpace b = false) (heq : s.gap b = s.stop .stray)

theorem gapCase (s : Scan) (b : UInt8) : GapCase s b := by
  have hsingle {b : UInt8} {t : Token} (hspace : isSpace b = false) (hword : Spelling t [b])
      (heq : s.gap b = s.emit t) : GapCase s b := .emits hspace t hword heq
  by_cases hspace : isSpace b = true
  · exact .space hspace (if_pos hspace)
  by_cases hquote : b = 0x22
  · subst hquote
    exact .opens rfl (.string [] .plain) ⟨rfl, .plain .nil⟩ rfl
  by_cases hcomma : b = 0x2C
  · subst hcomma
    exact hsingle rfl .comma rfl
  by_cases hcolon : b = 0x3A
  · subst hcolon
    exact hsingle rfl .colon rfl
  by_cases hobject : b = 0x7B
  · subst hobject
    exact hsingle rfl .openObject rfl
  by_cases hobject' : b = 0x7D
  · subst hobject'
    exact hsingle rfl .closeObject rfl
  by_cases hlist : b = 0x5B
  · subst hlist
    exact hsingle rfl .openList rfl
  by_cases hlist' : b = 0x5D
  · subst hlist'
    exact hsingle rfl .closeList rfl
  by_cases hsign : b = 0x2D
  · subst hsign
    exact .opens rfl (.number [0x2D] .sign) ⟨rfl, .sign⟩ rfl
  by_cases hzero : b = 0x30
  · subst hzero
    exact .opens rfl (.number [0x30] .zero) ⟨rfl, .zero (.inl rfl)⟩ rfl
  by_cases hn : b = 0x6E
  · subst hn
    exact .opens rfl (.literal [0x75, 0x6C, 0x6C] .null) ⟨by simp, .null⟩ rfl
  by_cases ht : b = 0x74
  · subst ht
    exact .opens rfl (.literal [0x72, 0x75, 0x65] (.bool true)) ⟨by simp, .true⟩ rfl
  by_cases hf : b = 0x66
  · subst hf
    exact .opens rfl (.literal [0x61, 0x6C, 0x73, 0x65] (.bool false)) ⟨by simp, .false⟩ rfl
  rw [Bool.not_eq_true] at hspace
  by_cases hdigit : isDigit b = true
  · refine .opens hspace (.number [b] .whole)
      ⟨rfl, .whole (.inl rfl) hdigit hzero (List.forall_mem_nil _)⟩ ?_
    simp [gap, hspace, hquote, hcomma, hcolon, hobject, hobject', hlist, hlist', hsign, hzero,
      hdigit]
  · refine .stray hspace ?_
    simp [gap, hspace, hquote, hcomma, hcolon, hobject, hobject', hlist, hlist', hsign, hzero,
      hdigit, hn, ht, hf]

theorem holds_gap (h : Spaced s.tokens.reverse text) (hmode : s.mode = .gap) (b : UInt8) :
    Holds (text ++ [b]) (s.gap b) := by
  cases gapCase s b with
  | space hspace heq =>
    rw [heq]
    refine .inl ⟨text ++ [b], [], (List.append_nil _).symm, h.space hspace, ?_⟩
    rw [hmode]
    rfl
  | emits _ t hword heq =>
    rw [heq]
    exact holds_emit h hword
  | opens _ mode hread heq =>
    rw [heq]
    exact .inl ⟨text, [b], rfl, h, hread⟩
  | stray _ heq =>
    rw [heq]
    exact holds_stop _ _ id

/-- What a byte can add to the tokens that have been found. -/
inductive Adds (s : Scan) : Scan → Prop where
  | same : Adds s s
  | opens {mode : Mode} (hgap : mode ≠ .gap) (hstopped : mode ≠ .stopped) : Adds s ⟨s.tokens, mode⟩
  | emits (t : Token) : Adds s (s.emit t)
  | stops {t : Token} (h : ¬t.IsIntact) : Adds s (s.stop t)

theorem adds_gap (s : Scan) (b : UInt8) : Adds s (s.gap b) := by
  cases gapCase s b with
  | space hspace heq =>
    rw [heq]
    exact .same
  | emits _ t hword heq =>
    rw [heq]
    exact .emits t
  | opens _ mode hread heq =>
    rw [heq]
    refine .opens ?_ ?_ <;> rintro rfl <;> cases hread
  | stray _ heq =>
    rw [heq]
    exact .stops id

/-- A byte may also end a number that stands before it. -/
theorem adds_byte (s : Scan) (b : UInt8) :
    Adds s (s.byte b) ∨ ∃ n, Adds (s.emit (.number n)) (s.byte b) := by
  unfold byte
  split
  case h_1 => exact .inl .same
  case h_2 => exact .inl (adds_gap s b)
  case h_3 =>
    refine .inl ?_
    split
    · exact .stops id
    · split
      · exact .emits _
      · exact .stops id
    · split
      · exact .opens nofun nofun
      · exact .stops id
  case h_4 read phase _ =>
    split
    · exact .inl (.opens nofun nofun)
    · exact .inr ⟨_, adds_gap _ b⟩
    · exact .inl (.stops nofun)
  case h_5 =>
    refine .inl ?_
    split
    · exact .emits _
    · split
      · exact .opens nofun nofun
      · split
        · exact .stops nofun
        · exact .opens nofun nofun
  case h_6 =>
    refine .inl ?_
    split
    · exact .opens nofun nofun
    · split
      · exact .opens nofun nofun
      · exact .stops nofun
  case h_7 =>
    refine .inl ?_
    dsimp only
    split
    · split
      · exact .opens nofun nofun
      · exact .stops nofun
    · exact .opens nofun nofun

theorem Adds.suffix {s' : Scan} (h : Adds s s') : s.tokens <:+ s'.tokens := by
  cases h with
  | same | opens hgap hstopped => exact List.suffix_refl _
  | emits t => exact List.suffix_cons _ _
  | stops h => exact List.suffix_cons _ _

theorem tokens_suffix (s : Scan) (b : UInt8) : s.tokens <:+ (s.byte b).tokens := by
  rcases adds_byte s b with h | ⟨n, h⟩
  · exact h.suffix
  · exact (List.suffix_cons _ _).trans h.suffix

variable {tokens : List Token} {read : List UInt8}

theorem holds_literal {owed : List UInt8} {t : Token} (htokens : Spaced tokens.reverse front)
    (howed : owed ≠ []) (hword : Spelling t (word ++ owed)) (b : UInt8) :
    Holds (front ++ word ++ [b]) (byte ⟨tokens, .literal owed t⟩ b) := by
  cases owed with
  | nil => exact absurd rfl howed
  | cons c rest =>
    by_cases hb : b = c
    · subst hb
      cases rest with
      | nil =>
        have hbyte : byte ⟨tokens, .literal [b] t⟩ b = emit ⟨tokens, .literal [b] t⟩ t := by
          simp [byte]
        rw [hbyte, List.append_assoc]
        exact holds_emit htokens hword
      | cons c' rest =>
        have hbyte : byte ⟨tokens, .literal (b :: c' :: rest) t⟩ b =
            ⟨tokens, .literal (c' :: rest) t⟩ := by
          simp [byte]
        rw [hbyte, List.append_assoc]
        refine .inl ⟨front, word ++ [b], rfl, htokens, List.cons_ne_nil _ _, ?_⟩
        rwa [List.append_assoc, List.singleton_append]
    · have hbyte : byte ⟨tokens, .literal (c :: rest) t⟩ b =
          stop ⟨tokens, .literal (c :: rest) t⟩ .misspelt := by
        cases rest <;> simp [byte, hb]
      rw [hbyte]
      exact holds_stop _ _ id

theorem holds_number {phase : NumberPhase} (htokens : Spaced tokens.reverse front)
    (hread : phase.Reads read.reverse) (b : UInt8) :
    Holds (front ++ read.reverse ++ [b]) (byte ⟨tokens, .number read phase⟩ b) := by
  cases hmove : phase.move b with
  | go next =>
    have hbyte : byte ⟨tokens, .number read phase⟩ b = ⟨tokens, .number (b :: read) next⟩ := by
      simp only [byte, hmove]
    rw [hbyte, List.append_assoc]
    refine .inl ⟨front, read.reverse ++ [b], rfl, htokens, by simp, ?_⟩
    exact NumberPhase.reads_move hread hmove
  | finish =>
    have hnumeral := NumberPhase.isNumeral_of_complete hread (NumberPhase.complete_of_finish hmove)
    have hbyte : byte ⟨tokens, .number read phase⟩ b =
        gap (emit ⟨tokens, .number read phase⟩ (.number ⟨read.reverse, none⟩)) b := by
      simp only [byte, hmove]
    rw [hbyte]
    refine holds_gap ?_ rfl b
    rw [emit, List.reverse_cons]
    exact htokens.concat (.number hnumeral)
  | broken =>
    have hbyte : byte ⟨tokens, .number read phase⟩ b =
        stop ⟨tokens, .number read phase⟩ (.number ⟨read.reverse, some .malformed⟩) := by
      simp only [byte, hmove]
    rw [hbyte]
    exact holds_stop _ _ nofun

theorem holds_content {next : StringPhase} (htokens : Spaced tokens.reverse front)
    (hnext : next.Reads (read.reverse ++ [b])) :
    Holds (front ++ (0x22 :: read.reverse) ++ [b]) ⟨tokens, .string (b :: read) next⟩ := by
  rw [List.append_assoc]
  exact .inl ⟨front, 0x22 :: read.reverse ++ [b], rfl, htokens, by simp, by simpa using hnext⟩

theorem holds_plain (htokens : Spaced tokens.reverse front) (h : IsContent read.reverse)
    (b : UInt8) :
    Holds (front ++ (0x22 :: read.reverse) ++ [b]) (byte ⟨tokens, .string read .plain⟩ b) := by
  simp only [byte, beq_iff_eq]
  split_ifs with hquote hslash hcontrol
  · subst hquote
    rw [List.append_assoc]
    exact holds_emit htokens (.string h)
  · subst hslash
    exact holds_content htokens (.escape h)
  · exact holds_stop _ _ nofun
  · exact holds_content htokens (.plain (h.append (.plain hcontrol hquote hslash .nil)))

theorem holds_escape {bs : List UInt8} (htokens : Spaced tokens.reverse front) (h : IsContent bs)
    (hread : read.reverse = bs ++ [0x5C]) (b : UInt8) :
    Holds (front ++ (0x22 :: read.reverse) ++ [b]) (byte ⟨tokens, .string read .escape⟩ b) := by
  simp only [byte, beq_iff_eq]
  split_ifs with hshort hu
  · refine holds_content htokens (.plain ?_)
    rw [hread, List.append_assoc]
    exact h.append (.escape hshort .nil)
  · subst hu
    refine holds_content htokens ?_
    rw [hread, List.append_assoc]
    exact .hex h rfl (by decide) fun _ => List.forall_mem_nil _
  · exact holds_stop _ _ nofun

theorem holds_hex {bs ds : List UInt8} {owed : Nat} {good : Bool}
    (htokens : Spaced tokens.reverse front) (h : IsContent bs)
    (hread : read.reverse = bs ++ 0x5C :: 0x75 :: ds) (hlength : ds.length + owed = 4)
    (howed : 0 < owed) (hhex : good = true → ∀ d ∈ ds, isHex d = true) (b : UInt8) :
    Holds (front ++ (0x22 :: read.reverse) ++ [b])
      (byte ⟨tokens, .string read (.hex owed good)⟩ b) := by
  have hdigits (hgood : (good && isHex b) = true) : ∀ d ∈ ds ++ [b], isHex d = true := by
    obtain ⟨hgood, hb⟩ := Bool.and_eq_true_iff.mp hgood
    exact List.forall_mem_append.mpr ⟨hhex hgood, List.forall_mem_singleton.mpr hb⟩
  have hlonger : (ds ++ [b]).length + (owed - 1) = 4 := by
    simp only [List.length_append, List.length_singleton]
    omega
  simp only [byte]
  split_ifs with hlast hgood
  · have hunicode := IsContent.unicode (by omega) (hdigits hgood) .nil
    refine holds_content htokens (.plain ?_)
    rw [hread, List.append_assoc]
    exact h.append (by simpa using hunicode)
  · exact holds_stop _ _ nofun
  · refine holds_content htokens ?_
    rw [hread, List.append_assoc]
    exact .hex h hlonger (by omega) hdigits

theorem holds_string {phase : StringPhase} (htokens : Spaced tokens.reverse front)
    (hread : phase.Reads read.reverse) (b : UInt8) :
    Holds (front ++ (0x22 :: read.reverse) ++ [b]) (byte ⟨tokens, .string read phase⟩ b) := by
  obtain ⟨content, hcontent⟩ : ∃ content, read.reverse = content := ⟨_, rfl⟩
  rw [hcontent] at hread
  cases hread with
  | plain h => exact holds_plain htokens (hcontent ▸ h) b
  | escape h => exact holds_escape htokens h hcontent b
  | hex h hlength howed hhex => exact holds_hex htokens h hcontent hlength howed hhex b

theorem holds_byte (h : Holds text s) (b : UInt8) : Holds (text ++ [b]) (s.byte b) := by
  rcases h with ⟨front, word, htext, htokens, hmode⟩ | ⟨t, ht, hbroken⟩
  · obtain ⟨tokens, mode⟩ := s
    subst htext
    cases mode with
    | stopped => exact hmode.elim
    | gap =>
      obtain rfl : word = [] := hmode
      rw [List.append_nil]
      exact holds_gap htokens rfl b
    | literal owed t => exact holds_literal htokens hmode.1 hmode.2 b
    | number read phase =>
      obtain ⟨rfl, hread⟩ := hmode
      exact holds_number htokens hread b
    | string read phase =>
      obtain ⟨rfl, hread⟩ := hmode
      exact holds_string htokens hread b
  · exact .inr ⟨t, (tokens_suffix s b).subset ht, hbroken⟩

def after (text : List UInt8) : Scan := text.foldl byte start

theorem after_concat (text : List UInt8) (b : UInt8) :
    after (text ++ [b]) = (after text).byte b := by
  rw [after, List.foldl_append, List.foldl_cons, List.foldl_nil, after]

theorem holds_after (text : List UInt8) : Holds text (after text) := by
  induction text using List.reverseRecOn with
  | nil => exact .inl ⟨[], [], rfl, .nil nofun, rfl⟩
  | append_singleton text b ih =>
    rw [after_concat]
    exact holds_byte ih b

/-- A text in which no literal is broken is the bytes of its tokens. -/
theorem spaced_of_isIntact (h : ∀ t ∈ Json.tokens text, t.IsIntact) :
    Spaced (Json.tokens text) text := by
  have hfound : ∀ t ∈ (after text).tokens, t.IsIntact := fun t ht =>
    h t (List.mem_append_left _ (List.mem_reverse.mpr ht))
  rcases holds_after text with ⟨front, word, htext, htokens, hmode⟩ | ⟨t, ht, hbroken⟩
  · change ∀ t ∈ (after text).finish, t.IsIntact at h
    change Spaced (after text).finish text
    generalize hs : after text = s at h htokens hmode
    obtain ⟨tokens, mode⟩ := s
    cases mode with
    | stopped => exact hmode.elim
    | gap =>
      obtain rfl : word = [] := hmode
      rw [htext, List.append_nil]
      simpa [finish] using htokens
    | literal owed t =>
      exact absurd (h .misspelt (List.mem_append_right _ (List.mem_singleton_self _))) id
    | number read phase =>
      obtain ⟨rfl, hread⟩ := hmode
      have hintact := h _ (List.mem_append_right _ (List.mem_singleton_self _))
      have hcomplete : phase.complete = true := by
        by_contra hopen
        simp [Token.IsIntact, hopen] at hintact
      rw [htext]
      simp only [finish, hcomplete, if_true]
      exact htokens.concat (.number (NumberPhase.isNumeral_of_complete hread hcomplete))
    | string read phase =>
      exact absurd (h _ (List.mem_append_right _ (List.mem_singleton_self _))) nofun
  · exact absurd (hfound t ht) hbroken

end Scan

end DeviceAuth.Json
