import Mathlib.Data.Nat.Find
import Mathlib.Order.Monotone.Basic
import Mathlib.Tactic.IntervalCases

namespace FounderOs.Calendar

/-- The ISO week of a day, which its year and its number name. A day is counted from 0001-01-01, a
Monday: `toordinal() - 1`. -/
def weekOf (day : Nat) : Nat := day / 7

def leap (year : Nat) : Bool := year % 4 = 0 && (year % 100 ≠ 0 || year % 400 = 0)

/-- The days before the year that `years` years come before. -/
def daysBeforeYear (years : Nat) : Nat := years * 365 + years / 4 - years / 100 + years / 400

def daysBefore : List Nat := [0, 31, 59, 90, 120, 151, 181, 212, 243, 273, 304, 334]

/-- The first day of a month; the months are counted from January of the year 1. -/
def firstOfMonth (month : Nat) : Nat :=
  daysBeforeYear (month / 12) + daysBefore.getD (month % 12) 0 +
    if 1 < month % 12 ∧ leap (month / 12 + 1) = true then 1 else 0

/-- The calendar month of a day: the last one that has begun. -/
def monthOf (day : Nat) : Nat := Nat.findGreatest (fun month => firstOfMonth month ≤ day) day

theorem leap_iff (year : Nat) : leap year = true ↔ 4 ∣ year ∧ (¬100 ∣ year ∨ 400 ∣ year) := by
  simp only [leap, Bool.and_eq_true, Bool.or_eq_true, decide_eq_true_eq, Nat.dvd_iff_mod_eq_zero,
    ne_eq, decide_not, Bool.not_eq_true', decide_eq_false_iff_not]

theorem daysBeforeYear_succ (years : Nat) : daysBeforeYear (years + 1) =
    daysBeforeYear years + 365 + if leap (years + 1) = true then 1 else 0 := by
  have hfour : 100 ∣ years + 1 → 4 ∣ years + 1 := Nat.dvd_trans (by decide)
  have hhundred : 400 ∣ years + 1 → 100 ∣ years + 1 := Nat.dvd_trans (by decide)
  have hle : years / 100 ≤ years / 4 := Nat.div_le_div_left (by decide) (by decide)
  simp only [daysBeforeYear, leap_iff, Nat.succ_div]
  generalize years / 4 = fours at hle
  generalize years / 100 = hundreds at hle
  generalize years / 400 = fourHundreds
  by_cases h4 : 4 ∣ years + 1
  · by_cases h100 : 100 ∣ years + 1
    · by_cases h400 : 400 ∣ years + 1 <;> simp only [h4, h100, h400] <;> simp <;> omega
    · have h400 : ¬400 ∣ years + 1 := fun h => h100 (hhundred h)
      simp only [h4, h100, h400]
      simp
      omega
  · have h100 : ¬100 ∣ years + 1 := fun h => h4 (hfour h)
    have h400 : ¬400 ∣ years + 1 := fun h => h100 (hhundred h)
    simp only [h4, h100, h400]
    simp
    omega

theorem firstOfMonth_lt_succ (month : Nat) : firstOfMonth month < firstOfMonth (month + 1) := by
  obtain ⟨years, hyears⟩ : ∃ years, years = month / 12 := ⟨_, rfl⟩
  obtain ⟨number, hnumber⟩ : ∃ number, number = month % 12 := ⟨_, rfl⟩
  have hlt : number < 12 := hnumber ▸ Nat.mod_lt month (by decide)
  unfold firstOfMonth
  by_cases hlast : number = 11
  · have hyear : (month + 1) / 12 = years + 1 := by omega
    have hmonth : (month + 1) % 12 = 0 := by omega
    rw [hyear, hmonth, daysBeforeYear_succ, ← hyears, ← hnumber, hlast]
    simp only [daysBefore, List.getD_cons_zero, List.getD_cons_succ]
    split <;> split <;> simp_all
  · have hyear : (month + 1) / 12 = years := by omega
    have hmonth : (month + 1) % 12 = number + 1 := by omega
    rw [hyear, hmonth, ← hyears, ← hnumber]
    have hbound : number < 11 := by omega
    clear hyear hmonth hlast hnumber hyears
    interval_cases number <;> simp only [daysBefore, List.getD_cons_zero, List.getD_cons_succ] <;>
      split <;> split <;> simp_all

theorem firstOfMonth_strictMono : StrictMono firstOfMonth :=
  strictMono_nat_of_lt_succ firstOfMonth_lt_succ

theorem firstOfMonth_monthOf (day : Nat) : firstOfMonth (monthOf day) ≤ day :=
  Nat.findGreatest_spec (P := fun month => firstOfMonth month ≤ day) (Nat.zero_le day)
    (Nat.zero_le day)

theorem lt_firstOfMonth (day : Nat) : day < firstOfMonth (monthOf day + 1) := by
  by_contra hle
  have hle := Nat.le_of_not_lt hle
  have hgreatest := Nat.le_findGreatest (P := fun month => firstOfMonth month ≤ day)
    (Nat.le_trans (firstOfMonth_strictMono.le_apply) hle) hle
  exact absurd hgreatest (Nat.not_succ_le_self _)

theorem monthOf_mono {day day' : Nat} (h : day ≤ day') : monthOf day ≤ monthOf day' := by
  by_contra hlt
  have hfirst : firstOfMonth (monthOf day' + 1) ≤ firstOfMonth (monthOf day) :=
    firstOfMonth_strictMono.monotone (Nat.lt_of_not_le hlt)
  have hend := lt_firstOfMonth day'
  have hbegin := firstOfMonth_monthOf day
  omega

theorem monthOf_eq {day : Nat} {month : Nat} (hbegin : firstOfMonth month ≤ day)
    (hend : day < firstOfMonth (month + 1)) : monthOf day = month := by
  have hle : monthOf day < month + 1 :=
    firstOfMonth_strictMono.lt_iff_lt.1 (Nat.lt_of_le_of_lt (firstOfMonth_monthOf day) hend)
  have hge : month < monthOf day + 1 :=
    firstOfMonth_strictMono.lt_iff_lt.1 (Nat.lt_of_le_of_lt hbegin (lt_firstOfMonth day))
  omega

end FounderOs.Calendar
