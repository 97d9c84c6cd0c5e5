import DeviceAuth.Time.Calendar
import Mathlib.Tactic.Common

/-! Year and ordinal day name every day once. -/
namespace DeviceAuth.Time

/-- A day inside its cycles of 400, 100, 4 and one years. Only the last of four years has a day
365, and only in the last of four centuries does the last group of four years have it. -/
structure Split (day c q f o r : Int) : Prop where
  day_eq : day + 719162 = 146097 * c + 36524 * q + 1461 * f + 365 * o + r
  century : 0 ≤ q ∧ q ≤ 3
  four : 0 ≤ f ∧ f ≤ 24
  one : 0 ≤ o ∧ o ≤ 3
  rest : 0 ≤ r ∧ (r ≤ 364 ∨ r = 365 ∧ o = 3 ∧ (f = 24 → q = 3))

theorem exists_split (day : Int) :
    ∃ c q f o r, Split day c q f o r ∧
      yearAndOrdinal day = (400 * c + 100 * q + 4 * f + o + 1, r + 1) := by
  unfold yearAndOrdinal
  obtain ⟨d, hd⟩ : ∃ d, d = day + 719162 := ⟨_, rfl⟩
  obtain ⟨c, hc⟩ : ∃ c, c = d / 146097 := ⟨_, rfl⟩
  obtain ⟨d₁, hd₁⟩ : ∃ d₁, d₁ = d % 146097 := ⟨_, rfl⟩
  obtain ⟨q, hq⟩ : ∃ q, q = min (d₁ / 36524) 3 := ⟨_, rfl⟩
  obtain ⟨d₂, hd₂⟩ : ∃ d₂, d₂ = d₁ - q * 36524 := ⟨_, rfl⟩
  obtain ⟨f, hf⟩ : ∃ f, f = d₂ / 1461 := ⟨_, rfl⟩
  obtain ⟨d₃, hd₃⟩ : ∃ d₃, d₃ = d₂ % 1461 := ⟨_, rfl⟩
  obtain ⟨o, ho⟩ : ∃ o, o = min (d₃ / 365) 3 := ⟨_, rfl⟩
  have hcycle : d = 146097 * c + d₁ ∧ 0 ≤ d₁ ∧ d₁ < 146097 := by omega
  have hcentury : 0 ≤ q ∧ q ≤ 3 ∧ 0 ≤ d₂ ∧ (d₂ < 36524 ∨ d₂ = 36524 ∧ q = 3) := by omega
  have hfour : d₂ = 1461 * f + d₃ ∧ 0 ≤ f ∧ f ≤ 24 ∧ 0 ≤ d₃ ∧ d₃ < 1461 := by omega
  have hone : 0 ≤ o ∧ o ≤ 3 ∧ 0 ≤ d₃ - o * 365 ∧
      (d₃ - o * 365 < 365 ∨ d₃ = 1460 ∧ o = 3) := by omega
  refine ⟨c, q, f, o, d₃ - o * 365, ⟨?_, ?_, ?_, ?_, ?_⟩, ?_⟩
  · omega
  · omega
  · omega
  · omega
  · omega
  · simp only [← hd, ← hc, ← hd₁, ← hq, ← hd₂, ← hf, ← hd₃, ← ho]

theorem Split.firstDay_eq {day c q f o r : Int} (h : Split day c q f o r) :
    firstDay (400 * c + 100 * q + 4 * f + o + 1) = day - r := by
  obtain ⟨hday, hq, hf, ho, -⟩ := h
  have h4 : (400 * c + 100 * q + 4 * f + o) / 4 = 100 * c + 25 * q + f := by omega
  have h100 : (400 * c + 100 * q + 4 * f + o) / 100 = 4 * c + q := by omega
  have h400 : (400 * c + 100 * q + 4 * f + o) / 400 = c := by omega
  simp only [firstDay, Int.add_sub_cancel, h4, h100, h400]
  omega

theorem firstDay_yearAndOrdinal (day : Int) :
    firstDay (yearAndOrdinal day).1 + ((yearAndOrdinal day).2 - 1) = day := by
  obtain ⟨c, q, f, o, r, h, heq⟩ := exists_split day
  rw [heq, h.firstDay_eq]
  omega

theorem firstDay_succ (year : Int) : firstDay (year + 1) = firstDay year + daysInYear year := by
  simp only [firstDay, daysInYear, isLeapYear]
  by_cases h4 : year % 4 = 0
  · by_cases h100 : year % 100 = 0
    · by_cases h400 : year % 400 = 0 <;> simp [h4, h100, h400] <;> omega
    · simp [h4, h100]
      omega
  · simp [h4]
    omega

theorem firstDay_mono {a b : Int} (h : a ≤ b) : firstDay a ≤ firstDay b := by
  simp only [firstDay]
  omega

theorem Split.rest_lt {day c q f o r : Int} (h : Split day c q f o r) :
    r < daysInYear (400 * c + 100 * q + 4 * f + o + 1) := by
  obtain ⟨-, hq, hf, ho, hr⟩ := h
  have hleap : o = 3 → (f = 24 → q = 3) →
      isLeapYear (400 * c + 100 * q + 4 * f + o + 1) = true := by
    intro ho3 hlast
    have h4 : (400 * c + 100 * q + 4 * f + o + 1) % 4 = 0 := by omega
    have h100 : (400 * c + 100 * q + 4 * f + o + 1) % 100 ≠ 0 ∨
        (400 * c + 100 * q + 4 * f + o + 1) % 400 = 0 := by omega
    simpa [isLeapYear, h4] using h100
  unfold daysInYear
  split
  · omega
  · rcases hr.2 with hr | ⟨-, ho3, hlast⟩
    · omega
    · exact absurd (hleap ho3 hlast) (by assumption)

theorem ordinal_bounds (day : Int) :
    1 ≤ (yearAndOrdinal day).2 ∧ (yearAndOrdinal day).2 ≤ daysInYear (yearAndOrdinal day).1 := by
  obtain ⟨c, q, f, o, r, h, heq⟩ := exists_split day
  have hlow := h.rest.1
  have hhigh := h.rest_lt
  rw [heq]
  dsimp only
  omega

theorem year_bounds {day : Int} (h : dayInRange day = true) :
    minYear ≤ (yearAndOrdinal day).1 ∧ (yearAndOrdinal day).1 ≤ maxYear := by
  simp only [dayInRange, Bool.and_eq_true, decide_eq_true_eq] at h
  have hday := firstDay_yearAndOrdinal day
  obtain ⟨hlow, hhigh⟩ := ordinal_bounds day
  have hnext := firstDay_succ (yearAndOrdinal day).1
  constructor
  · by_contra hlt
    have hmono := firstDay_mono (show (yearAndOrdinal day).1 + 1 ≤ minYear by omega)
    omega
  · by_contra hlt
    have hmono := firstDay_mono (show maxYear + 1 ≤ (yearAndOrdinal day).1 by omega)
    omega

end DeviceAuth.Time
