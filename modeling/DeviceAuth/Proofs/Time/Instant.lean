import DeviceAuth.Proofs.Json.Decode
import DeviceAuth.Proofs.Time.Calendar
import DeviceAuth.Time.Instant
import Mathlib.Data.List.Forall2

/-! An instant is rebuilt from its parts, and read back as it was written, offset and all. -/
namespace DeviceAuth.Instant

def maxOffset : Int := 93599

def IsRepresentable (t : Instant) : Prop :=
  t.inRange = true ∧ -maxOffset ≤ t.offset ∧ t.offset ≤ maxOffset

/-- The first nanosecond of the calendar and the first one behind it, as clocks on the wall show
them. -/
def calendarStart : Int := Time.firstDay Time.minYear * nanosPerDay
def calendarEnd : Int := Time.firstDay (Time.maxYear + 1) * nanosPerDay

theorem inRange_iff {t : Instant} :
    t.inRange = true ↔ calendarStart ≤ t.localNanos ∧ t.localNanos < calendarEnd := by
  have hday : 0 < nanosPerDay := by decide
  rw [inRange, Time.dayInRange, Bool.and_eq_true, decide_eq_true_eq, decide_eq_true_eq, localDay,
    Int.le_ediv_iff_mul_le hday, Int.ediv_lt_iff_lt_mul hday]
  rfl

theorem localNanos_add (t : Instant) (n : Int) :
    (⟨t.nanos + n, t.offset⟩ : Instant).localNanos = t.localNanos + n := by
  simp only [localNanos]
  omega

theorem add?_eq_some_iff {t sum : Instant} {span : Span} :
    t.add? span = some sum ↔ sum.inRange = true ∧ sum = ⟨t.nanos + span.nanos, t.offset⟩ := by
  unfold add?
  dsimp only
  split
  · rename_i hrange
    rw [Option.some.injEq, eq_comm]
    exact ⟨fun h => ⟨h ▸ hrange, h⟩, And.right⟩
  · rename_i hrange
    exact iff_of_false nofun fun ⟨h, hsum⟩ => hrange (hsum ▸ h)

theorem since_of_add? {t sum : Instant} {span : Span} (h : t.add? span = some sum) :
    sum.since t = span := by
  obtain ⟨-, rfl⟩ := add?_eq_some_iff.mp h
  have hnanos : t.nanos + span.nanos - t.nanos = span.nanos := by omega
  exact congrArg Span.mk hnanos

theorem IsRepresentable.add? {t sum : Instant} {span : Span} (h : t.IsRepresentable)
    (hadd : t.add? span = some sum) : sum.IsRepresentable := by
  obtain ⟨hrange, rfl⟩ := add?_eq_some_iff.mp hadd
  exact ⟨hrange, h.2⟩

theorem exists_add?_of_le {t sum : Instant} {long : Span} (short : Span) (h : t.inRange = true)
    (hshort : 0 ≤ short.nanos) (hle : short.nanos ≤ long.nanos) (hadd : t.add? long = some sum) :
    ∃ u, t.add? short = some u := by
  obtain ⟨hlong, rfl⟩ := add?_eq_some_iff.mp hadd
  rw [inRange_iff] at h
  rw [inRange_iff, localNanos_add] at hlong
  refine ⟨_, add?_eq_some_iff.mpr ⟨inRange_iff.mpr ?_, rfl⟩⟩
  rw [localNanos_add]
  omega

theorem isNone_add?_iff {t : Instant} (h : t.inRange = true) {n : Int} (hn : 0 ≤ n) :
    (t.add? (.seconds n)).isNone = true ↔
      calendarEnd ≤ t.localNanos + n * Span.nanosPerSecond := by
  have hstart := (inRange_iff.mp h).1
  have hnanos : 0 ≤ n * Span.nanosPerSecond := Int.mul_nonneg hn (by decide)
  have hsum : (⟨t.nanos + (Span.seconds n).nanos, t.offset⟩ : Instant).inRange = true ↔
      ¬calendarEnd ≤ t.localNanos + n * Span.nanosPerSecond := by
    have hspan : (Span.seconds n).nanos = n * Span.nanosPerSecond := rfl
    rw [inRange_iff, localNanos_add, hspan]
    omega
  rw [← not_iff_not, ← hsum, add?]
  cases (⟨t.nanos + (Span.seconds n).nanos, t.offset⟩ : Instant).inRange <;> simp

theorem withSignOf_eq {signs : List Int} {x : Int} (hneg : ∀ s ∈ signs, s < 0 → x ≤ 0)
    (hpos : ∀ s ∈ signs, 0 < s → 0 ≤ x) : withSignOf signs x = x := by
  unfold withSignOf
  cases hfind : signs.find? (· ≠ 0) with
  | none => rfl
  | some s =>
    have hmem := List.mem_of_find?_eq_some hfind
    have hne : s ≠ 0 := by simpa using List.find?_some hfind
    have hneg := hneg s hmem
    have hpos := hpos s hmem
    dsimp only
    split <;> omega

theorem natAbs_withSignOf (signs : List Int) (x : Int) :
    (withSignOf signs x).natAbs = x.natAbs := by
  unfold withSignOf
  cases signs.find? (· ≠ 0) with
  | none => rfl
  | some s =>
    dsimp only
    split <;> omega

theorem offset_parts (x : Int) :
    x.tdiv 3600 * 3600 + (x.tdiv 60).tmod 60 * 60 + x.tmod 60 = x ∧
      ((x.tdiv 60).tmod 60).natAbs ≤ 59 ∧ (x.tmod 60).natAbs ≤ 59 ∧
      (0 ≤ x ∧ 0 ≤ x.tdiv 3600 ∧ 0 ≤ (x.tdiv 60).tmod 60 ∧ 0 ≤ x.tmod 60 ∨
        x ≤ 0 ∧ x.tdiv 3600 ≤ 0 ∧ (x.tdiv 60).tmod 60 ≤ 0 ∧ x.tmod 60 ≤ 0) := by
  rcases le_total 0 x with hx | hx
  · rw [Int.tdiv_eq_ediv_of_nonneg hx, Int.tdiv_eq_ediv_of_nonneg hx,
      Int.tmod_eq_emod_of_nonneg hx, Int.tmod_eq_emod_of_nonneg (by omega)]
    omega
  · obtain ⟨y, rfl⟩ : ∃ y, x = -y := ⟨-x, by omega⟩
    have hy : 0 ≤ y := by omega
    rw [Int.neg_tdiv, Int.neg_tdiv, Int.neg_tmod, Int.neg_tmod, Int.tdiv_eq_ediv_of_nonneg hy,
      Int.tdiv_eq_ediv_of_nonneg hy, Int.tmod_eq_emod_of_nonneg hy,
      Int.tmod_eq_emod_of_nonneg (by omega)]
    omega

theorem offset_parts_eq (t : Instant) : t.parts.offset = t.offset := by
  obtain ⟨hsum, -, -, hsigns⟩ := offset_parts t.offset
  have hminute : withSignOf [t.offset.tdiv 3600] ((t.offset.tdiv 60).tmod 60) =
      (t.offset.tdiv 60).tmod 60 := by
    refine withSignOf_eq ?_ ?_ <;> simp only [List.mem_singleton, forall_eq] <;> omega
  have hsecond : withSignOf [t.offset.tdiv 3600, (t.offset.tdiv 60).tmod 60]
      (t.offset.tmod 60) = t.offset.tmod 60 := by
    refine withSignOf_eq ?_ ?_ <;>
      simp only [List.mem_cons, List.not_mem_nil, or_false, forall_eq_or_imp, forall_eq] <;> omega
  simp only [Parts.offset, parts, hminute, hsecond]
  exact hsum

theorem ofParts_parts (t : Instant) : ofParts t.parts = t := by
  have hday : Time.firstDay t.parts.year + (t.parts.ordinal - 1) = t.localDay :=
    Time.firstDay_yearAndOrdinal t.localDay
  obtain ⟨n, hn⟩ : ∃ n, n = t.localNanos % nanosPerDay := ⟨_, rfl⟩
  have hclock : t.parts.hour * 3600 + t.parts.minute * 60 + t.parts.second =
      n / Span.nanosPerSecond := by
    simp only [parts, ← hn]
    omega
  have hnanos : t.parts.nanosecond = n % Span.nanosPerSecond := by
    simp only [parts, ← hn]
  have hlocal : t.localNanos = t.localDay * nanosPerDay + n := by
    rw [hn, localDay]
    exact (Int.ediv_mul_add_emod t.localNanos nanosPerDay).symm
  have hseconds : t.localDay * 86400 + t.parts.hour * 3600 + t.parts.minute * 60 +
      t.parts.second = t.localDay * 86400 + n / Span.nanosPerSecond := by omega
  have hpoint : (t.localDay * 86400 + n / Span.nanosPerSecond - t.offset) *
      Span.nanosPerSecond + n % Span.nanosPerSecond = t.nanos := by
    simp only [localNanos, nanosPerDay, Span.nanosPerSecond] at hlocal ⊢
    omega
  simp only [ofParts, offset_parts_eq, hnanos, hday, hseconds, hpoint]

structure Parts.InBounds (p : Parts) : Prop where
  year : Time.minYear ≤ p.year ∧ p.year ≤ Time.maxYear
  ordinal : 1 ≤ p.ordinal ∧ p.ordinal ≤ Time.daysInYear p.year
  hour : 0 ≤ p.hour ∧ p.hour ≤ 23
  minute : 0 ≤ p.minute ∧ p.minute ≤ 59
  second : 0 ≤ p.second ∧ p.second ≤ 59
  nanosecond : 0 ≤ p.nanosecond ∧ p.nanosecond < Span.nanosPerSecond
  offsetHour : -25 ≤ p.offsetHour ∧ p.offsetHour ≤ 25
  offsetMinute : -59 ≤ p.offsetMinute ∧ p.offsetMinute ≤ 59
  offsetSecond : -59 ≤ p.offsetSecond ∧ p.offsetSecond ≤ 59

theorem ite_some_eq_none {c : Prop} [Decidable c] {name : String} {rest : Option String} :
    (if c then some name else rest) = none ↔ ¬ c ∧ rest = none := by
  by_cases hc : c
  · rw [if_pos hc]
    exact ⟨nofun, fun h => absurd hc h.1⟩
  · rw [if_neg hc, and_iff_right hc]

theorem Parts.outOfRange_eq_none {p : Parts} : p.outOfRange = none ↔ p.InBounds := by
  simp only [outOfRange, ite_some_eq_none, not_or, Int.not_lt, Int.not_le]
  constructor
  · rintro ⟨hyear, hordinal, hhour, hminute, hsecond, hnano, hoh, hom, hos, -⟩
    exact ⟨hyear, hordinal, hhour, hminute, hsecond, hnano, hoh, hom, hos⟩
  · rintro ⟨hyear, hordinal, hhour, hminute, hsecond, hnano, hoh, hom, hos⟩
    exact ⟨hyear, hordinal, hhour, hminute, hsecond, hnano, hoh, hom, hos, trivial⟩

theorem inBounds_parts {t : Instant} (h : t.IsRepresentable) : t.parts.InBounds := by
  obtain ⟨hrange, hlow, hhigh⟩ := h
  obtain ⟨hsum, hminute, hsecond, hsigns⟩ := offset_parts t.offset
  have hn : 0 ≤ t.localNanos % nanosPerDay ∧ t.localNanos % nanosPerDay < nanosPerDay :=
    ⟨Int.emod_nonneg _ (by decide), Int.emod_lt_of_pos _ (by decide)⟩
  refine ⟨Time.year_bounds hrange, Time.ordinal_bounds t.localDay, ?_, ?_, ?_, ?_, ?_, ?_, ?_⟩ <;>
    simp only [parts, nanosPerDay, Span.nanosPerSecond, maxOffset] at hn hlow hhigh ⊢ <;> omega

theorem localDay_ofParts {p : Parts} (h : p.InBounds) :
    (ofParts p).localDay = Time.firstDay p.year + (p.ordinal - 1) := by
  obtain ⟨-, -, hhour, hminute, hsecond, hnano, -, -, -⟩ := h
  simp only [ofParts, localDay, localNanos, nanosPerDay, Span.nanosPerSecond] at hnano ⊢
  omega

theorem isRepresentable_ofParts {p : Parts} (h : p.InBounds) : (ofParts p).IsRepresentable := by
  have hday := localDay_ofParts h
  obtain ⟨hyear, hordinal, -, -, -, -, hoh, hom, hos⟩ := h
  refine ⟨?_, ?_⟩
  · have hnext := Time.firstDay_succ p.year
    have hfirst := Time.firstDay_mono hyear.1
    have hlast := Time.firstDay_mono (show p.year + 1 ≤ Time.maxYear + 1 by omega)
    simp only [inRange, Time.dayInRange, hday, Bool.and_eq_true, decide_eq_true_eq]
    omega
  · have hminute := natAbs_withSignOf [p.offsetHour] p.offsetMinute
    have hsecond :=
      natAbs_withSignOf [p.offsetHour, withSignOf [p.offsetHour] p.offsetMinute] p.offsetSecond
    simp only [ofParts, Parts.offset, maxOffset]
    omega

theorem readParts_reading (levels i : Nat) {types : List (String × String × Int × Int)}
    {ns : List Int}
    (h : List.Forall₂ (fun type n => (Json.Number.ofInt n).IsExact ∧
      type.2.2.1 ≤ n ∧ n ≤ type.2.2.2) types ns) :
    readParts levels none i types (ns.map fun n => (Json.int n).reading) = .ok (ns, []) := by
  induction h generalizing i with
  | nil => rfl
  | @cons type n types ns hn hrest ih =>
    obtain ⟨name, kind, low, high⟩ := type
    obtain ⟨hexact, hlow, hhigh⟩ := hn
    simp only [List.map_cons, readParts,
      Json.Decoder.integer_reading levels hexact hlow hhigh, Json.Decoder.within, bind,
      Except.bind, ih]
    rfl

def Parts.toList (p : Parts) : List Int :=
  [p.year, p.ordinal, p.hour, p.minute, p.second, p.nanosecond, p.offsetHour, p.offsetMinute,
    p.offsetSecond]

theorem toJson_eq (t : Instant) : t.toJson = .array (t.parts.toList.map Json.int) := rfl

theorem Parts.InBounds.fits {p : Parts} (h : p.InBounds) :
    List.Forall₂ (fun type n => (Json.Number.ofInt n).IsExact ∧
      type.2.2.1 ≤ n ∧ n ≤ type.2.2.2) partTypes p.toList := by
  have hdays : Time.daysInYear p.year ≤ 366 := by
    unfold Time.daysInYear
    split <;> decide
  obtain ⟨hyear, hordinal, hhour, hminute, hsecond, hnano, hoh, hom, hos⟩ := h
  simp only [Time.minYear, Time.maxYear, Span.nanosPerSecond] at hyear hnano
  have hfits : ∀ {low high n : Int}, -2147483648 ≤ n → n ≤ 4294967295 → low ≤ n → n ≤ high →
      (Json.Number.ofInt n).IsExact ∧ low ≤ n ∧ n ≤ high := by
    intro low high n hmin hmax hlow hhigh
    refine ⟨Json.Number.isExact_ofInt (le_trans ?_ hmin) (le_trans hmax ?_), hlow, hhigh⟩
    · decide
    · decide
  have hstart : Decimal.signedStart 32 = -2147483648 := rfl
  have hsigned : Decimal.signedEnd 32 = 2147483648 := rfl
  have hnatural : Decimal.naturalEnd 32 = 4294967296 := rfl
  have hshort : Decimal.naturalEnd 16 = 65536 := rfl
  refine .cons ?_ (.cons ?_ (.cons ?_ (.cons ?_ (.cons ?_ (.cons ?_ (.cons ?_ (.cons ?_
    (.cons ?_ .nil)))))))) <;>
    refine hfits (by omega) (by omega) ?_ ?_ <;> dsimp only <;> omega

theorem isExact_toJson {t : Instant} (h : t.IsRepresentable) : t.toJson.IsExact := by
  have hfits := (inBounds_parts h).fits.flip
  rw [toJson_eq]
  refine .array fun v hv => ?_
  obtain ⟨n, hn, rfl⟩ := List.mem_map.mp hv
  exact .number (((List.forall₂_and_left _ _).mp hfits).1 n hn)

theorem decoder_reading {t : Instant} (h : t.IsRepresentable) (levels : Nat) :
    decoder (levels + 2) t.toJson.reading = .ok t := by
  have hbounds := inBounds_parts h
  have hread := readParts_reading (levels + 1) 0 hbounds.fits
  have hrange := Parts.outOfRange_eq_none.mpr hbounds
  have hlist : Parts.ofList t.parts.toList = some t.parts := rfl
  have hparts : decoder (levels + 2) t.toJson.reading = .ok (ofParts t.parts) := by
    rw [toJson_eq, Json.reading, decoder, Json.Decoder.descend]
    · rw [List.map_map]
      simp only [Function.comp_def, hread, bind, Except.bind, hlist, hrange]
      rfl
    · simp
  rw [hparts, ofParts_parts]

theorem isRepresentable_of_decoder {levels : Nat} {r : Json.Reading} {t : Instant}
    (h : decoder levels r = .ok t) : t.IsRepresentable := by
  unfold decoder at h
  split at h
  · obtain ⟨inner, h⟩ := Json.Decoder.descend_ok h
    obtain ⟨⟨numbers, rest⟩, -, h⟩ := Except.bind_ok h
    dsimp only at h
    split at h
    · cases h
    · split at h
      · cases h
      · rename_i p _ _ hrange
        obtain ⟨_, -, h⟩ := Except.bind_ok h
        have hnone : p.outOfRange = none := Option.eq_none_iff_forall_ne_some.mpr hrange
        cases h
        exact isRepresentable_ofParts (Parts.outOfRange_eq_none.mp hnone)
  · exact absurd h (Json.Decoder.unexpected_ne_ok _ _ _)

end DeviceAuth.Instant
