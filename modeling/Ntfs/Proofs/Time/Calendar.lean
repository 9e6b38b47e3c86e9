import Ntfs.Time.Calendar

/-!
# Days found for a count exist

`Day.ofEpoch` finds the day at any count of days.  The day has a month and lies in it
(`isValid_ofEpoch`), leap days included, and its year is the one whose first and last day the count
lies between (`year_ofEpoch_bounds`).
-/

namespace Ntfs.Day

theorem isLeap_iff (year : Int) :
    isLeap year = true ↔ year % 4 = 0 ∧ (year % 100 ≠ 0 ∨ year % 400 = 0) := by
  simp [isLeap]

/-- A year from March to February has a last day of its own only before the end of a leap year. -/
theorem isLeap_of_marchYear {days : Int} (h : (marchYear days).2 = 365) :
    isLeap ((marchYear days).1 + 1) = true := by
  rw [isLeap_iff]
  simp only [marchYear] at h ⊢
  generalize days / 146097 = era at h ⊢
  generalize hd : days % 146097 = d at h ⊢
  have hd' : 0 ≤ d ∧ d < 146097 := by omega
  generalize hc : min (d / 36524) 3 = c at h ⊢
  generalize hq : (d - c * 36524) / 1461 = q at h ⊢
  generalize hr : (d - c * 36524) % 1461 = r at h ⊢
  generalize hy : min (r / 365) 3 = y at h ⊢
  have hy3 : y = 3 := by omega
  have hq24 : 0 ≤ q ∧ q ≤ 24 ∧ (q = 24 → c = 3) := by omega
  rw [hy3]
  constructor
  · omega
  · by_cases hq : q = 24
    · right
      omega
    · left
      omega

theorem isValid_iff (d : Day) :
    d.isValid = true ↔
      1 ≤ d.month ∧ d.month ≤ 12 ∧ 1 ≤ d.day ∧ d.day ≤ monthLength d.year d.month := by
  simp [isValid, and_assoc]

/-- Month and day have at most two digits. -/
theorem lt_of_isValid {d : Day} (h : d.isValid = true) : d.month < 100 ∧ d.day < 100 := by
  obtain ⟨-, hmonth, -, hday⟩ := (isValid_iff d).mp h
  have hlength : monthLength d.year d.month ≤ 31 := by
    unfold monthLength
    split <;> split <;> decide
  omega

/-- The day found in a year from March to February exists, if the year has that many days. -/
theorem isValid_ofMarch {year dayOfYear : Int} (h0 : 0 ≤ dayOfYear) (h1 : dayOfYear ≤ 365)
    (hleap : dayOfYear = 365 → isLeap (year + 1) = true) :
    (ofMarch year dayOfYear).isValid = true := by
  rw [isValid_iff]
  simp only [ofMarch, monthStart]
  generalize hm : (5 * dayOfYear + 2) / 153 = months
  split
  · -- March to December: months of 30 and of 31 days.
    have hmonth : (months + 3).toNat ≠ 2 := by omega
    simp only [monthLength, if_neg hmonth]
    split <;> omega
  · -- January and February of the next year.
    simp only [monthLength]
    split
    · split
      · omega
      · rename_i hcommon
        have hday : dayOfYear ≠ 365 := fun h => hcommon (hleap h)
        omega
    · split <;> omega

/-- The day found for a count exists. -/
theorem isValid_ofEpoch (days : Int) : (ofEpoch days).isValid = true := by
  obtain ⟨-, h0, h1⟩ := marchYear_spec (days + epochOffset)
  exact isValid_ofMarch h0 h1 isLeap_of_marchYear

/-- The days from the first of March to the end of December are 306. -/
theorem year_ofMarch (year dayOfYear : Int) :
    (ofMarch year dayOfYear).year = if dayOfYear < 306 then year else year + 1 := by
  rw [ofMarch]
  have hmonths : (5 * dayOfYear + 2) / 153 < 10 ↔ dayOfYear < 306 := by omega
  simp only [hmonths]
  split <;> rfl

/-- A day lies in the year found for it: behind the last day of the year before and not behind its
own last day. -/
theorem year_ofEpoch_bounds (days : Int) :
    toMarch ((ofEpoch days).year - 1) + 306 ≤ days + epochOffset ∧
      days + epochOffset < toMarch (ofEpoch days).year + 306 := by
  obtain ⟨hsum, h0, h1⟩ := marchYear_spec (days + epochOffset)
  have hyear : (ofEpoch days).year = _ := year_ofMarch (marchYear _).1 (marchYear _).2
  rw [hyear]
  generalize (marchYear (days + epochOffset)).1 = year at hsum ⊢
  generalize (marchYear (days + epochOffset)).2 = dayOfYear at hsum h0 h1 ⊢
  simp only [toMarch] at hsum ⊢
  split
  · omega
  · have hback : year + 1 - 1 = year := by omega
    rw [hback]
    omega

end Ntfs.Day
