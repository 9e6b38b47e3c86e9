/-!
# Civil calendar

Days are counted from 1970-01-01 in the proleptic Gregorian calendar.  The arithmetic starts its
years in March, so that the leap day is the last of its year.  `toEpoch_ofEpoch` says that the
day found for a count lies at that count.
-/

namespace Ntfs

/-- A day of the civil calendar. -/
structure Day where
  year : Int
  month : Nat
  day : Nat
  deriving DecidableEq, Repr

namespace Day

def isLeap (year : Int) : Bool :=
  year % 4 == 0 && (year % 100 != 0 || year % 400 == 0)

def monthLength (year : Int) (month : Nat) : Nat :=
  if month = 2 then (if isLeap year then 29 else 28)
  else if month = 4 ∨ month = 6 ∨ month = 9 ∨ month = 11 then 30 else 31

def isValid (d : Day) : Bool :=
  1 ≤ d.month && d.month ≤ 12 && 1 ≤ d.day && d.day ≤ monthLength d.year d.month

/-- Days from 0000-03-01 to the first of March of a year. -/
def toMarch (year : Int) : Int := 365 * year + year / 4 - year / 100 + year / 400

/-- Days from the first of March to the first of the month that lies `months` months later. -/
def monthStart (months : Int) : Int := (153 * months + 2) / 5

/-- Days from 0000-03-01 to 1970-01-01. -/
def epochOffset : Int := 719468

/-- Days from 1970-01-01 to this day, negative before it. -/
def toEpoch (d : Day) : Int :=
  if d.month ≤ 2 then toMarch (d.year - 1) + monthStart (d.month + 9) + d.day - 1 - epochOffset
  else toMarch d.year + monthStart (d.month - 3) + d.day - 1 - epochOffset

/-- The year, from March to February, that holds the day `days` after 0000-03-01, and the days
since its first of March. -/
def marchYear (days : Int) : Int × Int :=
  let dayOfEra := days % 146097
  let century := min (dayOfEra / 36524) 3
  let dayOfCentury := dayOfEra - century * 36524
  let cycle := dayOfCentury / 1461
  let dayOfCycle := dayOfCentury % 1461
  let year := min (dayOfCycle / 365) 3
  (400 * (days / 146097) + 100 * century + 4 * cycle + year, dayOfCycle - 365 * year)

/-- The day that lies `dayOfYear` days after the first of March of a year. -/
def ofMarch (year dayOfYear : Int) : Day :=
  let months := (5 * dayOfYear + 2) / 153
  let day := (dayOfYear - monthStart months + 1).toNat
  if months < 10 then { year, month := (months + 3).toNat, day }
  else { year := year + 1, month := (months - 9).toNat, day }

/-- The day that lies `days` days after 1970-01-01. -/
def ofEpoch (days : Int) : Day :=
  let (year, dayOfYear) := marchYear (days + epochOffset)
  ofMarch year dayOfYear

/-- A day lies in the year found for it: as far behind its first of March as was found, and at most 365
days. -/
theorem marchYear_spec (days : Int) :
    toMarch (marchYear days).1 + (marchYear days).2 = days
      ∧ 0 ≤ (marchYear days).2 ∧ (marchYear days).2 ≤ 365 := by
  simp only [marchYear, toMarch]
  generalize he : days / 146097 = era
  generalize hd : days % 146097 = d
  have hdays : days = 146097 * era + d := by omega
  have h0 : 0 ≤ d ∧ d < 146097 := by omega
  generalize hc : min (d / 36524) 3 = c
  have hc' : 0 ≤ c ∧ c ≤ 3 ∧ c * 36524 ≤ d ∧ (c < 3 → d < c * 36524 + 36524) := by omega
  generalize hq : (d - c * 36524) / 1461 = q
  generalize hr : (d - c * 36524) % 1461 = r
  have hqr : d - c * 36524 = 1461 * q + r ∧ 0 ≤ r ∧ r < 1461 ∧ 0 ≤ q ∧ q ≤ 24 := by omega
  generalize hy : min (r / 365) 3 = y
  have hy' : 0 ≤ y ∧ y ≤ 3 ∧ 365 * y ≤ r ∧ r ≤ 365 * y + 365 := by omega
  have h4 : (400 * era + 100 * c + 4 * q + y) / 4 = 100 * era + 25 * c + q := by omega
  have h100 : (400 * era + 100 * c + 4 * q + y) / 100 = 4 * era + c := by omega
  have h400 : (400 * era + 100 * c + 4 * q + y) / 400 = era := by omega
  rw [h4, h100, h400]
  omega

/-- A day that is put together from its place in a year counts the days of that place. -/
theorem toEpoch_ofMarch {year dayOfYear : Int} (h0 : 0 ≤ dayOfYear) (h1 : dayOfYear ≤ 365) :
    (ofMarch year dayOfYear).toEpoch = toMarch year + dayOfYear - epochOffset := by
  simp only [ofMarch, monthStart]
  generalize hm : (5 * dayOfYear + 2) / 153 = months
  split
  · simp only [toEpoch, monthStart]
    rw [if_neg (by omega)]
    have h3 : (((months + 3).toNat : Int) - 3) = months := by omega
    rw [h3]
    omega
  · simp only [toEpoch, monthStart]
    rw [if_pos (by omega)]
    have h9 : (((months - 9).toNat : Int) + 9) = months := by omega
    have hyear : year + 1 - 1 = year := by omega
    rw [h9, hyear]
    omega

/-- The day found for a count lies at that count. -/
@[simp]
theorem toEpoch_ofEpoch (days : Int) : (ofEpoch days).toEpoch = days := by
  obtain ⟨hsum, h0, h1⟩ := marchYear_spec (days + epochOffset)
  show (ofMarch (marchYear (days + epochOffset)).1 (marchYear (days + epochOffset)).2).toEpoch = days
  rw [toEpoch_ofMarch h0 h1]
  omega

end Day

end Ntfs
