import DeviceAuth.Proofs.Json.Scanner
import DeviceAuth.Proofs.Json.Spelling
import DeviceAuth.Proofs.Json.Value

/-! Where a document ends. A text is a document exactly if reading it comes to the end of one value
and meets nothing else; a decoder that takes lists and objects only, and reads no further than the
first value, takes every text that begins with a document it takes. -/
namespace DeviceAuth.Json

def Token.IsClosing : Token → Prop
  | .closeList | .closeObject => True
  | _ => False

theorem Token.IsClosing.isIntact {t : Token} (h : t.IsClosing) : t.IsIntact := by
  cases t with
  | closeList | closeObject => trivial
  | _ => exact h.elim

namespace Scan

variable {s s' : Scan} {ts found : List Token} {t : Token} {text : List UInt8}

theorem Adds.closes (h : Adds s s') (ht : t.IsClosing) (hnew : ¬ts ++ [t] <+: s.tokens.reverse)
    (hbegins : ts ++ [t] <+: s'.tokens.reverse) : s' = ⟨(ts ++ [t]).reverse, .gap⟩ := by
  cases h with
  | same | opens hgap hstopped => exact absurd hbegins hnew
  | emits t' =>
    rw [emit, List.reverse_cons, List.prefix_concat_iff] at hbegins
    rw [hbegins.resolve_right hnew]
    simp [emit]
  | @stops t' hbroken =>
    rw [stop, List.reverse_cons, List.prefix_concat_iff] at hbegins
    obtain ⟨-, heq⟩ := List.append_inj' (hbegins.resolve_right hnew) rfl
    obtain rfl : t = t' := by simpa using heq
    exact absurd ht.isIntact hbroken

theorem exists_after_of_prefix (ht : t.IsClosing) (h : ts ++ [t] <+: (after text).tokens.reverse) :
    ∃ doc rest, text = doc ++ rest ∧ after doc = ⟨(ts ++ [t]).reverse, .gap⟩ := by
  induction text using List.reverseRecOn with
  | nil =>
    obtain ⟨more, hmore⟩ := h
    simp [after, start] at hmore
  | append_singleton text b ih =>
    by_cases hold : ts ++ [t] <+: (after text).tokens.reverse
    · obtain ⟨doc, rest, rfl, hdoc⟩ := ih hold
      exact ⟨doc, rest ++ [b], List.append_assoc _ _ _, hdoc⟩
    · refine ⟨text ++ [b], [], (List.append_nil _).symm, ?_⟩
      rw [after_concat] at h ⊢
      rcases adds_byte (after text) b with hadds | ⟨n, hadds⟩
      · exact hadds.closes ht hold h
      · refine hadds.closes ht (fun hbegins => ?_) h
        rw [emit, List.reverse_cons, List.prefix_concat_iff] at hbegins
        obtain ⟨-, heq⟩ := List.append_inj' (hbegins.resolve_right hold) rfl
        cases heq
        exact ht

/-- More than some tokens has been found, or a literal is open behind them. -/
inductive Beyond (ts : List Token) : Scan → Prop where
  | opens {mode : Mode} (hgap : mode ≠ .gap) (hstopped : mode ≠ .stopped) : Beyond ts ⟨ts, mode⟩
  | found {s : Scan} (t : Token) (h : t :: ts <:+ s.tokens) : Beyond ts s

theorem Beyond.adds (h : Beyond found s) (hadds : Adds s s') : Beyond found s' := by
  cases h with
  | opens hgap hstopped =>
    cases hadds with
    | same => exact .opens hgap hstopped
    | opens hgap hstopped => exact .opens hgap hstopped
    | emits t => exact .found t (List.suffix_refl _)
    | stops h => exact .found _ (List.suffix_refl _)
  | found t h => exact .found t (h.trans hadds.suffix)

theorem Beyond.byte (h : Beyond found s) (b : UInt8) : Beyond found (s.byte b) := by
  rcases adds_byte s b with hadds | ⟨n, hadds⟩
  · exact h.adds hadds
  · exact (h.adds (.emits _)).adds hadds

theorem Beyond.foldl (h : Beyond found s) (bs : List UInt8) :
    Beyond found (bs.foldl Scan.byte s) := by
  induction bs generalizing s with
  | nil => exact h
  | cons b rest ih => exact ih (h.byte b)

theorem Beyond.finish (h : Beyond found s) :
    ∃ t more, s.finish = found.reverse ++ t :: more := by
  cases h with
  | @opens mode hgap hstopped =>
    cases mode with
    | gap => exact absurd rfl hgap
    | stopped => exact absurd rfl hstopped
    | literal owed t => exact ⟨_, [], rfl⟩
    | number read phase => exact ⟨_, [], rfl⟩
    | string read phase => exact ⟨_, [], rfl⟩
  | found t h =>
    obtain ⟨front, hfront⟩ := h
    obtain ⟨last, hlast⟩ : ∃ last, s.finish = s.tokens.reverse ++ last := ⟨_, rfl⟩
    refine ⟨t, front.reverse ++ last, ?_⟩
    rw [hlast, ← hfront]
    simp

theorem beyond_gap {b : UInt8} (hb : isSpace b = false) : Beyond ts (byte ⟨ts, .gap⟩ b) := by
  change Beyond ts (gap ⟨ts, .gap⟩ b)
  cases gapCase ⟨ts, .gap⟩ b with
  | space hspace heq => rw [hb] at hspace; cases hspace
  | emits _ t hword heq =>
    rw [heq]
    exact .found t (List.suffix_refl _)
  | opens _ mode hread heq =>
    rw [heq]
    refine .opens ?_ ?_ <;> rintro rfl <;> cases hread
  | stray _ heq =>
    rw [heq]
    exact .found .stray (List.suffix_refl _)

theorem finish_foldl_gap (ts : List Token) (rest : List UInt8) :
    ∃ more, (rest.foldl byte ⟨ts, .gap⟩).finish = ts.reverse ++ more ∧
      (more = [] ↔ IsSpaces rest) := by
  induction rest with
  | nil => exact ⟨[], by simp [finish], iff_of_true rfl nofun⟩
  | cons b rest ih =>
    cases hb : isSpace b with
    | true =>
      have hbyte : byte ⟨ts, .gap⟩ b = ⟨ts, .gap⟩ := by simp only [byte, gap, hb, if_true]
      obtain ⟨more, hmore, hspaces⟩ := ih
      rw [List.foldl_cons, hbyte]
      refine ⟨more, hmore, hspaces.trans ?_⟩
      simp [IsSpaces, hb]
    | false =>
      obtain ⟨t, more, hmore⟩ := ((beyond_gap hb).foldl rest).finish
      refine ⟨t :: more, hmore, iff_of_false (by simp) fun hspaces => ?_⟩
      rw [hspaces b List.mem_cons_self] at hb
      cases hb

theorem finish_cases (s : Scan) :
    s.finish = s.tokens.reverse ∨ ∃ t, ¬t.IsClosing ∧ s.finish = s.tokens.reverse ++ [t] := by
  obtain ⟨tokens, mode⟩ := s
  cases mode with
  | gap | stopped => exact .inl (List.append_nil _)
  | literal owed t => exact .inr ⟨.misspelt, id, rfl⟩
  | number read phase => exact .inr ⟨.number _, id, rfl⟩
  | string read phase => exact .inr ⟨.string _, id, rfl⟩

end Scan

namespace Reading

def IsBracketed : Reading → Prop
  | .list _ _ | .object _ _ _ => True
  | _ => False

theorem forall_isIntact_intercalate {parts : List (List Token)}
    (h : ∀ part ∈ parts, ∀ t ∈ part, t.IsIntact) :
    ∀ t ∈ [Token.comma].intercalate parts, t.IsIntact := by
  induction parts with
  | nil => exact List.forall_mem_nil _
  | cons part parts ih =>
    obtain ⟨hpart, hparts⟩ := List.forall_mem_cons.mp h
    cases parts with
    | nil => simpa using hpart
    | cons next parts =>
      rw [List.intercalate_cons_cons, List.append_assoc, List.singleton_append]
      exact List.forall_mem_append.mpr ⟨hpart, List.forall_mem_cons.mpr ⟨trivial, ih hparts⟩⟩

theorem forall_isIntact_bracketed {first last : Token} {parts : List (List Token)}
    (hfirst : first.IsIntact) (hlast : last.IsIntact)
    (h : ∀ part ∈ parts, ∀ t ∈ part, t.IsIntact) :
    ∀ t ∈ first :: ([Token.comma].intercalate parts ++ [last]), t.IsIntact :=
  List.forall_mem_cons.mpr ⟨hfirst, List.forall_mem_append.mpr
    ⟨forall_isIntact_intercalate h, List.forall_mem_singleton.mpr hlast⟩⟩

theorem forall_isIntact_toTokens {v : Reading} (h : v.IsWhole) :
    ∀ t ∈ v.toTokens, t.IsIntact := by
  induction h with
  | null | bool b =>
    rw [toTokens]
    exact List.forall_mem_singleton.mpr trivial
  | number bytes | string bytes =>
    rw [toTokens]
    exact List.forall_mem_singleton.mpr rfl
  | list h ih =>
    rw [toTokens]
    exact forall_isIntact_bracketed trivial trivial (List.forall_mem_map.mpr ih)
  | object hkeys h ih =>
    rw [toTokens]
    refine forall_isIntact_bracketed trivial trivial (List.forall_mem_map.mpr fun m hm => ?_)
    exact List.forall_mem_cons.mpr ⟨hkeys m hm, List.forall_mem_cons.mpr ⟨trivial, ih m hm⟩⟩

theorem exists_toTokens_eq_concat {v : Reading} (h : v.IsBracketed) :
    ∃ ts t, v.toTokens = ts ++ [t] ∧ t.IsClosing := by
  cases v with
  | list items fault =>
    rw [toTokens, ← List.cons_append]
    exact ⟨_, _, rfl, trivial⟩
  | object members dangling fault =>
    rw [toTokens, ← List.cons_append]
    exact ⟨_, _, rfl, trivial⟩
  | null | bool _ | number _ | string _ | broken _ => exact h.elim

theorem IsWhole.fault? {v : Reading} (h : v.IsWhole) : v.fault? = none := by
  cases h <;> rfl

end Reading

variable {text doc rest : List UInt8} {v : Reading}

/-- A text is a document exactly if it is read without a fault and nothing follows. -/
theorem isDocument_iff :
    IsDocument text ↔ (read text).value.fault? = none ∧ (read text).trailing = false := by
  constructor
  · rintro ⟨v, hwhole, hspaced⟩
    have htokens := tokens_of_spaced hspaced (Reading.delimited_toTokens hwhole)
    rw [read_of_tokens hwhole (htokens.trans (List.append_nil _).symm)]
    exact ⟨hwhole.fault?, rfl⟩
  · rintro ⟨hfault, htrailing⟩
    obtain ⟨hwhole, more, htokens⟩ := tokens_of_fault? hfault
    rw [read_of_tokens hwhole htokens] at htrailing
    obtain rfl : more = [] := by simpa using htrailing
    rw [List.append_nil] at htokens
    have hspaced : Spaced (tokens text) text :=
      Scan.spaced_of_isIntact (htokens ▸ Reading.forall_isIntact_toTokens hwhole)
    exact ⟨_, hwhole, htokens ▸ hspaced⟩

theorem exists_document (hfault : (read text).value.fault? = none)
    (hbracketed : (read text).value.IsBracketed) :
    ∃ doc rest, text = doc ++ rest ∧
      Scan.after doc = ⟨(read text).value.toTokens.reverse, .gap⟩ := by
  obtain ⟨hwhole, more, htokens⟩ := tokens_of_fault? hfault
  obtain ⟨ts, t, heq, ht⟩ := Reading.exists_toTokens_eq_concat hbracketed
  have hbegins : ts ++ [t] <+: (Scan.after text).finish := ⟨more, (heq ▸ htokens).symm⟩
  rw [heq]
  refine Scan.exists_after_of_prefix ht ?_
  rcases Scan.finish_cases (Scan.after text) with hfinish | ⟨last, hlast, hfinish⟩
  · rwa [hfinish] at hbegins
  · rw [hfinish, List.prefix_concat_iff] at hbegins
    refine hbegins.resolve_left fun heq => ?_
    obtain ⟨-, heq⟩ := List.append_inj' heq rfl
    obtain rfl : t = last := by simpa using heq
    exact hlast ht

/-- What follows a value whose brackets are closed is not looked at, except that it is there. -/
theorem read_append_of_after (hwhole : v.IsWhole)
    (h : Scan.after doc = ⟨v.toTokens.reverse, .gap⟩) (rest : List UInt8) :
    ∃ trailing, read (doc ++ rest) = ⟨v, trailing⟩ ∧ (trailing = false ↔ IsSpaces rest) := by
  obtain ⟨more, hmore, hspaces⟩ := Scan.finish_foldl_gap v.toTokens.reverse rest
  have htokens : tokens (doc ++ rest) = v.toTokens ++ more := by
    change (Scan.after (doc ++ rest)).finish = _
    rw [Scan.after, List.foldl_append, ← Scan.after, h, hmore, List.reverse_reverse]
  refine ⟨_, read_of_tokens hwhole htokens, ?_⟩
  rw [← hspaces]
  simp

namespace Decoder

variable {α : Type}

/-- The decoder takes nothing but lists and objects, and those only without a fault. -/
def TakesBrackets (d : Decoder α) : Prop :=
  ∀ levels r a, d levels r = .ok a → r.fault? = none ∧ r.IsBracketed

end Decoder

variable {α : Type} {d : Decoder α} {a : α}

theorem decode_eq_ok_iff_isDocument (hd : d.TakesBrackets) :
    decode d text = .ok a ↔ decodeFirst d text = .ok a ∧ IsDocument text := by
  rw [decode_eq_ok_iff, isDocument_iff]
  refine and_congr_right fun h => ?_
  rw [and_iff_right (hd _ _ _ h).1]

theorem read_append_of_decode (hd : d.TakesBrackets) (h : decode d doc = .ok a)
    (rest : List UInt8) :
    ∃ trailing, read (doc ++ rest) = ⟨(read doc).value, trailing⟩ ∧
      (trailing = false ↔ IsSpaces rest) := by
  obtain ⟨hfirst, hdocument⟩ := (decode_eq_ok_iff_isDocument hd).mp h
  obtain ⟨hfault, hbracketed⟩ := hd _ _ _ hfirst
  have hwhole := (tokens_of_fault? hfault).1
  obtain ⟨front, spaces, hfront, hafter⟩ := exists_document hfault hbracketed
  have hspaces : IsSpaces spaces := by
    obtain ⟨trailing, hread, hiff⟩ := read_append_of_after hwhole hafter spaces
    rw [← hfront] at hread
    have htrailing : (read doc).trailing = trailing := congrArg (·.trailing) hread
    exact hiff.mp (htrailing ▸ (isDocument_iff.mp hdocument).2)
  obtain ⟨trailing, hread, hiff⟩ := read_append_of_after hwhole hafter (spaces ++ rest)
  rw [← List.append_assoc, ← hfront] at hread
  refine ⟨trailing, hread, hiff.trans ⟨fun hall => ?_, fun hrest => ?_⟩⟩
  · exact fun b hb => hall b (List.mem_append_right spaces hb)
  · exact List.forall_mem_append.mpr ⟨hspaces, hrest⟩

/-- What is decoded as the first value of a text is a document that the text begins with. -/
theorem decodeFirst_eq_ok_iff (hd : d.TakesBrackets) :
    decodeFirst d text = .ok a ↔
      ∃ doc rest, text = doc ++ rest ∧ IsDocument doc ∧ decode d doc = .ok a := by
  constructor
  · intro h
    obtain ⟨hfault, hbracketed⟩ := hd _ _ _ h
    obtain ⟨doc, rest, htext, hdoc⟩ := exists_document hfault hbracketed
    obtain ⟨trailing, hread, hspaces⟩ :=
      read_append_of_after (tokens_of_fault? hfault).1 hdoc []
    obtain rfl : trailing = false := hspaces.mpr nofun
    rw [List.append_nil] at hread
    have hdocument : IsDocument doc := by
      rw [isDocument_iff, hread]
      exact ⟨hfault, rfl⟩
    refine ⟨doc, rest, htext, hdocument, (decode_eq_ok_iff_isDocument hd).mpr ⟨?_, hdocument⟩⟩
    rwa [decodeFirst, hread]
  · rintro ⟨doc, rest, rfl, -, hdecode⟩
    obtain ⟨trailing, hread, -⟩ := read_append_of_decode hd hdecode rest
    rw [decodeFirst, hread]
    exact (decode_eq_ok_iff.mp hdecode).1

theorem isDocument_append_iff (hd : d.TakesBrackets) (h : decode d doc = .ok a) :
    IsDocument (doc ++ rest) ↔ IsSpaces rest := by
  obtain ⟨trailing, hread, hiff⟩ := read_append_of_decode hd h rest
  rw [isDocument_iff, hread, ← hiff]
  exact and_iff_right (hd _ _ _ (decode_eq_ok_iff.mp h).1).1

namespace Decoder.Shape

variable {σ : Type} {shape : Shape σ α}

theorem endOfList_ok {items : List Reading} {stop : Option Fault}
    (h : endOfList items stop = .ok ()) : stop = none := by
  unfold endOfList at h
  split at h
  · cases h
  · split at h
    · rfl
    all_goals cases h

theorem stop_of_fromList {levels i : Nat} {stop : Option Fault} {fields : List (Field σ)}
    {items : List Reading} {s s' : σ}
    (h : fromList shape levels stop i fields items s = .ok s') : stop = none := by
  induction fields generalizing i items s with
  | nil =>
    obtain ⟨_, hstop, -⟩ := Except.bind_ok h
    exact endOfList_ok hstop
  | cons f fields ih =>
    cases items with
    | nil =>
      obtain ⟨_, hstop, -⟩ := Except.bind_ok h
      exact stopAt_ok hstop
    | cons r rest =>
      obtain ⟨_, -, h⟩ := Except.bind_ok h
      exact ih h

theorem takesBrackets_decoder (shape : Shape σ α) : shape.decoder.TakesBrackets := by
  intro levels r a h
  unfold decoder at h
  split at h
  · rename_i members dangling stop
    obtain ⟨s, hs, -⟩ := Except.bind_ok h
    obtain ⟨inner, hs⟩ := descend_ok hs
    obtain ⟨s₁, -, hs⟩ := Except.bind_ok hs
    refine ⟨?_, trivial⟩
    split at hs
    · obtain ⟨key, -, hs⟩ := Except.bind_ok hs
      obtain ⟨_, -, hs⟩ := Except.bind_ok hs
      obtain ⟨_, hstop, -⟩ := Except.bind_ok hs
      exact stopAt_ok hstop
    · obtain ⟨_, hstop, -⟩ := Except.bind_ok hs
      exact stopAt_ok hstop
  · split at h
    · obtain ⟨s, hs, -⟩ := Except.bind_ok h
      obtain ⟨inner, hs⟩ := descend_ok hs
      exact ⟨stop_of_fromList hs, trivial⟩
    · exact absurd h (unexpected_ne_ok _ _ _)
  · exact absurd h (unexpected_ne_ok _ _ _)

end Decoder.Shape

end DeviceAuth.Json
