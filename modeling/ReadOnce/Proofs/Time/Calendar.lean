import Mathlib.Tactic.IntervalCases
import ReadOnce.Time.Date

/-!
# Days and dates

Every count of days is the count of exactly one date of the calendar. A day has a place in the
cycles of the calendar: an era of 400 years, a century of it, four years of that, a year and a day
of the year, with years that start in March. Only the last day of a place may be absent, and it is
there exactly in leap years. Both directions of the conversion are read off the place, so the
division that finds a year has to be opened once.

`toDays_ofDays` says that a date leads back to its day, and `isValid_ofDays` that days which
instants reach have dates which a reader accepts.
-/

namespace ReadOnce.Date

/-- Where a day lies in the cycles of the calendar. -/
structure Place (n : Int) where
  /-- The era of 400 years. -/
  era : Int
  /-- The century of the era. -/
  century : Nat
  /-- The four years of the century. -/
  quad : Nat
  /-- The year of the four. -/
  year : Nat
  /-- The day of the year, which starts in March. -/
  day : Nat
  century_lt : century < 4
  quad_lt : quad < 25
  year_lt : year < 4
  day_le : day ≤ 365
  /-- The day that only leap years have ends a group of four years, and a century only if the
  century ends its era. -/
  leap : day = 365 → year = 3 ∧ (quad = 24 → century = 3)
  eq : n + epochOffset =
    146097 * era + (36524 * century + 1461 * quad + 365 * year + day : Nat)

namespace Place

variable {n : Int}

/-- The year of the era, counted from 0. -/
def yearOfEra (p : Place n) : Nat :=
  100 * p.century + 4 * p.quad + p.year

/-- The month of a year that starts in March, with March as month 0. -/
def month (p : Place n) : Nat :=
  (5 * p.day + 2) / 153

theorem nonempty (n : Int) : Nonempty (Place n) := by
  obtain ⟨d, hd⟩ : ∃ d, d = ((n + epochOffset) % 146097).toNat := ⟨_, rfl⟩
  obtain ⟨c, hc⟩ : ∃ c, c = min (d / 36524) 3 := ⟨_, rfl⟩
  obtain ⟨r, hr⟩ : ∃ r, r = d - 36524 * c := ⟨_, rfl⟩
  obtain ⟨y, hy⟩ : ∃ y, y = min (r % 1461 / 365) 3 := ⟨_, rfl⟩
  refine ⟨(n + epochOffset) / 146097, c, r / 1461, y, r % 1461 - 365 * y, ?_, ?_, ?_, ?_, ?_, ?_⟩
  all_goals omega

theorem month_lt_ten_iff (p : Place n) : p.month < 10 ↔ p.day < 306 := by
  unfold month
  omega

theorem month_lt (p : Place n) : p.month < 12 := by
  have := p.day_le
  unfold month
  omega

theorem daysBeforeMonth_le (p : Place n) : daysBeforeMonth p.month ≤ p.day := by
  unfold month daysBeforeMonth
  omega

end Place

/-- The division that finds the year of a day. The last day of an era is the only one at which the
days of a century are used up. -/
theorem yearOfDay_eq {c q y d : Nat} (hc : c < 4) (hq : q < 25) (hy : y < 4) (hd : d ≤ 365)
    (hleap : d = 365 → y = 3 ∧ (q = 24 → c = 3)) :
    yearOfDay (36524 * c + 1461 * q + 365 * y + d) = 100 * c + 4 * q + y := by
  by_cases hlast : 1461 * q + 365 * y + d = 36524
  · obtain ⟨rfl, rfl, rfl, rfl⟩ : c = 3 ∧ q = 24 ∧ y = 3 ∧ d = 365 := by omega
    rfl
  · have hcentury : 1461 * q + 365 * y + d < 36524 := by omega
    have hover : (24 * c + q + 365 * y + d) / 1460 ≤ d ∧
        d < (24 * c + q + 365 * y + d) / 1460 + 365 := by omega
    have h₁ : (36524 * c + 1461 * q + 365 * y + d) / 1460 =
        25 * c + q + (24 * c + q + 365 * y + d) / 1460 := by omega
    have h₂ : (36524 * c + 1461 * q + 365 * y + d) / 36524 = c := by omega
    have h₃ : (36524 * c + 1461 * q + 365 * y + d) / 146096 = 0 := by omega
    rw [yearOfDay, h₁, h₂, h₃]
    omega

theorem daysBeforeYear_eq {c q y : Nat} (hq : q < 25) (hy : y < 4) :
    daysBeforeYear (100 * c + 4 * q + y) = 36524 * c + 1461 * q + 365 * y := by
  unfold daysBeforeYear
  omega

/-- The date at a place: the year changes in January, ten months after it starts in March. -/
theorem ofDays_eq {n : Int} (p : Place n) :
    ofDays n =
      { year := p.yearOfEra + 400 * p.era + (if p.month < 10 then 0 else 1)
        month := if p.month < 10 then p.month + 3 else p.month - 9
        day := p.day - daysBeforeMonth p.month + 1 } := by
  obtain ⟨e, c, q, y, d, hc, hq, hy, hd, hleap, heq⟩ := p
  have hera : (n + epochOffset) / 146097 = e := by omega
  have hday : ((n + epochOffset) % 146097).toNat = 36524 * c + 1461 * q + 365 * y + d := by omega
  have hrest : 36524 * c + 1461 * q + 365 * y + d - daysBeforeYear (100 * c + 4 * q + y) = d := by
    rw [daysBeforeYear_eq hq hy]
    omega
  simp only [ofDays, hera, hday, yearOfDay_eq hc hq hy hd hleap, hrest, Place.yearOfEra,
    Place.month, mk.injEq, and_true]
  exact ⟨by omega, rfl⟩

/-- The count of days of a date whose month and year, taken from March on, are known. -/
theorem toDays_eq {c q y month day m : Nat} {yr : Int} (era : Int) (hc : c < 4) (hq : q < 25)
    (hy : y < 4)
    (hyear : (if month ≤ 2 then yr - 1 else yr) = (100 * c + 4 * q + y : Nat) + 400 * era)
    (hmonth : (if month ≤ 2 then month + 9 else month - 3) = m) :
    toDays ⟨yr, month, day⟩ = 146097 * era +
      (36524 * c + 1461 * q + 365 * y + daysBeforeMonth m + (day - 1) : Nat) - epochOffset := by
  have hcycle : (((100 * c + 4 * q + y : Nat) + 400 * era : Int) % 400).toNat =
      100 * c + 4 * q + y := by omega
  have hera : ((100 * c + 4 * q + y : Nat) + 400 * era : Int) / 400 = era := by omega
  simp only [toDays, hyear, hmonth, hcycle, hera, daysBeforeYear_eq hq hy]
  omega

/-- A date leads back to the day that it was made of. -/
@[simp] theorem toDays_ofDays (n : Int) : (ofDays n).toDays = n := by
  obtain ⟨p⟩ := Place.nonempty n
  have hlt := p.month_lt
  have hle := p.daysBeforeMonth_le
  have heq := p.eq
  rw [ofDays_eq p, toDays_eq (m := p.month) p.era p.century_lt p.quad_lt p.year_lt]
  · omega
  · unfold Place.yearOfEra
    split <;> split <;> omega
  · split <;> split <;> omega

theorem isLeapYear_iff {c q y : Nat} (era : Int) (hc : c < 4) (hq : q < 25) (hy : y < 4) :
    isLeapYear ((100 * c + 4 * q + y : Nat) + 400 * era + 1) = true ↔
      y = 3 ∧ (q = 24 → c = 3) := by
  simp only [isLeapYear, Bool.and_eq_true, Bool.or_eq_true, beq_iff_eq, bne_iff_ne]
  omega

/-- The days that instants reach lie in the years that instants reach. Whole eras leave room at
both ends, so only the first and the last era are looked at by year. -/
theorem year_ofDays_mem {n : Int} (hfirst : -96465292 ≤ n) (hlast : n ≤ 95026236) :
    firstYear ≤ (ofDays n).year ∧ (ofDays n).year ≤ lastYear := by
  obtain ⟨p⟩ := Place.nonempty n
  have hoffset : epochOffset = 719468 := rfl
  have hyears : firstYear = -262143 ∧ lastYear = 262142 := ⟨rfl, rfl⟩
  have heq := p.eq
  have hc := p.century_lt
  have hq := p.quad_lt
  have hy := p.year_lt
  have hd := p.day_le
  have hera : -656 ≤ p.era ∧ p.era ≤ 655 := by omega
  have hlow : p.era = -656 → 256 ≤ p.yearOfEra ∧ (p.day < 306 → 257 ≤ p.yearOfEra) := by
    unfold Place.yearOfEra
    omega
  have hhigh : p.era = 655 → p.yearOfEra ≤ 142 ∧ (306 ≤ p.day → p.yearOfEra ≤ 141) := by
    unfold Place.yearOfEra
    omega
  have hcycle : p.yearOfEra < 400 := by
    unfold Place.yearOfEra
    omega
  have hyear := congrArg Date.year (ofDays_eq p)
  simp only [p.month_lt_ten_iff] at hyear
  split at hyear <;> omega

/-- Every month but the last has as many days as lie between its start and that of the next. -/
theorem daysInMonth_eq (y : Int) {m : Nat} (h : m < 11) :
    daysInMonth y (if m < 10 then m + 3 else m - 9) =
      daysBeforeMonth (m + 1) - daysBeforeMonth m := by
  interval_cases m <;> rfl

theorem day_ofDays_le (n : Int) :
    (ofDays n).day ≤ daysInMonth (ofDays n).year (ofDays n).month := by
  obtain ⟨p⟩ := Place.nonempty n
  rw [ofDays_eq p]
  by_cases hm : p.month < 11
  · simp only [daysInMonth_eq _ hm]
    have hd := p.day_le
    unfold Place.month daysBeforeMonth at *
    omega
  · have hm : p.month = 11 := by have := p.month_lt; omega
    have hfeb (y : Int) : daysInMonth y 2 = if isLeapYear y then 29 else 28 := rfl
    have hbefore : daysBeforeMonth 11 = 337 := rfl
    simp only [hm, Nat.reduceLT, if_false, Nat.reduceSub, hfeb, hbefore]
    by_cases hlast : p.day = 365
    · have hleap := (isLeapYear_iff p.era p.century_lt p.quad_lt p.year_lt).2 (p.leap hlast)
      rw [Place.yearOfEra, if_pos hleap]
      omega
    · have hd := p.day_le
      split <;> omega

/-- The days that instants reach have dates that a reader accepts. -/
theorem isValid_ofDays {n : Int} (hfirst : -96465292 ≤ n) (hlast : n ≤ 95026236) :
    (ofDays n).isValid = true := by
  obtain ⟨p⟩ := Place.nonempty n
  have hyear := year_ofDays_mem hfirst hlast
  have hday := day_ofDays_le n
  have hmonth : 1 ≤ (ofDays n).month ∧ (ofDays n).month ≤ 12 := by
    have hlt := p.month_lt
    simp only [ofDays_eq p]
    split <;> omega
  have hpos : 1 ≤ (ofDays n).day := by
    simp only [ofDays_eq p]
    omega
  simp only [isValid, Bool.and_eq_true, decide_eq_true_eq]
  exact ⟨⟨⟨⟨⟨hyear.1, hyear.2⟩, hmonth.1⟩, hmonth.2⟩, hpos⟩, hday⟩

end ReadOnce.Date
