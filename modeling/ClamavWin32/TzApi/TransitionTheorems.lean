import ClamavWin32.Semantics.Weekdays
import ClamavWin32.TzApi.GregorianTime
import ClamavWin32.TzApi.TzApi

/-!
# The dates of the transitions

`ComputeTransitionDate` against the days of the calendar.

* `daysInMonth_eq` and `day_of_week_eq`: the tables of the code have the lengths of the months
  and, by the formula around them, the days of the week;
* `SystemTime.ruleDay`: the day of a month that a recurring rule stands for;
* `transition_on_rule_day`: the day that the code stores.
-/

namespace ClamavWin32
namespace TzApi

open Gregorian

variable (env : TimeEnvironment) {year month day : ℕ} {rule : SystemTime}

/-! ## The tables -/

/-- The leap years of the code, whose remainders are those of a number that is not negative. -/
lemma leap_iff (year : ℕ) :
    (year : ℤ).tmod 4 = 0 ∧ (year : ℤ).tmod 100 ≠ 0 ∨ (year : ℤ).tmod 400 = 0 ↔ IsLeap year := by
  have hyear : (0 : ℤ) ≤ year := Int.natCast_nonneg year
  rw [Int.tmod_eq_emod_of_nonneg hyear, Int.tmod_eq_emod_of_nonneg hyear,
    Int.tmod_eq_emod_of_nonneg hyear]
  unfold IsLeap
  omega

/-- `DaysInMonth` is the length of the month. -/
lemma daysInMonth_eq (hmonth : 1 ≤ month ∧ month ≤ 12) :
    daysInMonth env year month = monthLength year month := by
  obtain ⟨m, rfl⟩ : ∃ m, month = m + 1 := ⟨month - 1, by omega⟩
  have hm : m < daysTable.length := show m < 12 by omega
  unfold daysInMonth monthLength monthLengths
  dsimp only
  rw [Nat.add_sub_cancel, List.getD_eq_getElem _ _ hm]
  by_cases hleap : IsLeap year
  · simp only [leap_iff, hleap, and_true, if_true]
    clear hmonth
    revert m
    decide
  · simp only [leap_iff, hleap, and_false, if_false]
    clear hmonth
    revert m
    decide

/-- The table `t` has the days before a month, up to whole weeks; from March on the days of
the year are taken off. -/
lemma tTable_spec (year : ℕ) {m : ℕ} (hm : m < 12) (behind : ℤ) :
    0 ≤ tTable.getD m behind ∧
      (tTable.getD m behind + if m < 2 then 0 else ((monthLengths year).sum : ℤ)) % 7 =
      ((monthLengths year).take m).sum % 7 := by
  have hlt : m < tTable.length := hm
  rw [List.getD_eq_getElem _ _ hlt]
  unfold monthLengths
  by_cases hleap : IsLeap year
  · rw [if_pos hleap]
    revert m
    decide
  · rw [if_neg hleap]
    revert m
    decide

/-- `day_of_week` is the day of the week of the calendar. -/
theorem day_of_week_eq (hyear : 1 ≤ year) (hmonth : 1 ≤ month ∧ month ≤ 12) (hday : 1 ≤ day) :
    day_of_week env year month day = weekday (dayNumber year month day) := by
  obtain ⟨ht, htable⟩ :=
    tTable_spec year (show month - 1 < 12 by omega) (env.behindT (month - 1))
  have hnext := daysBeforeYear_succ hyear
  unfold day_of_week
  dsimp only
  generalize tTable.getD (month - 1) (env.behindT (month - 1)) = t at *
  by_cases hmarch : month < 3
  · have hpred : (year : ℤ) - 1 = (year - 1 : ℕ) := by omega
    have hq : (0 : ℤ) ≤ (year - 1 : ℕ) := Int.natCast_nonneg _
    rw [if_pos (show month - 1 < 2 by omega)] at htable
    rw [if_pos hmarch, hpred, Int.tdiv_eq_ediv_of_nonneg hq, Int.tdiv_eq_ediv_of_nonneg hq,
      Int.tdiv_eq_ediv_of_nonneg hq, Int.tmod_eq_emod_of_nonneg (by omega)]
    unfold weekday dayNumber daysBeforeYear
    omega
  · have hyear' : (0 : ℤ) ≤ year := by omega
    rw [if_neg (show ¬month - 1 < 2 by omega)] at htable
    rw [if_neg hmarch, Int.tdiv_eq_ediv_of_nonneg hyear', Int.tdiv_eq_ediv_of_nonneg hyear',
      Int.tdiv_eq_ediv_of_nonneg hyear', Int.tmod_eq_emod_of_nonneg (by omega)]
    unfold daysBeforeYear at hnext
    rw [Nat.add_sub_cancel] at hnext
    unfold weekday dayNumber daysBeforeYear
    omega

/-! ## The day of a rule -/

/-- A rule for the `wDay`-th or, from 5 on, the last day of a month that falls on a day of the
week. -/
structure SystemTime.WeekdayRule (rule : SystemTime) : Prop where
  month : 1 ≤ rule.wMonth ∧ rule.wMonth ≤ 12
  weekday : rule.wDayOfWeek < 7
  day : 1 ≤ rule.wDay

/-- The day of the month that the rule stands for in a year. -/
def SystemTime.ruleDay (rule : SystemTime) (year : ℕ) : Option ℕ :=
  let days := weekdaysIn year rule.wMonth rule.wDayOfWeek
  if rule.wDay < 5 then days[rule.wDay - 1]? else days.getLast?

lemma mem_of_ruleDay (h : rule.ruleDay year = some day) :
    day ∈ weekdaysIn year rule.wMonth rule.wDayOfWeek := by
  unfold SystemTime.ruleDay at h
  dsimp only at h
  by_cases hday : rule.wDay < 5
  · rw [if_pos hday] at h
    exact List.mem_of_getElem? h
  · rw [if_neg hday] at h
    exact List.mem_of_getLast? h

/-- The last day of a month that falls on a day of the week, from the last day of the month. -/
lemma last_day_mem {w last : ℕ} (hw : w < 7) (hmonth : 1 ≤ month ∧ month ≤ 12)
    (hlast : last = weekday (dayNumber year month (monthLength year month))) :
    (weekdaysIn year month w).getLast? =
      some (monthLength year month - (last + 7 - w) % 7) := by
  have hlength : 28 ≤ monthLength year month := (monthLength_mem hmonth).1
  rw [last_weekday hw, mem_weekdaysIn]
  rw [weekday_dayNumber] at hlast ⊢
  omega

/-- A rule stands for some day in every year. -/
lemma exists_ruleDay (year : ℕ) (hrule : rule.WeekdayRule) : ∃ d, rule.ruleDay year = some d := by
  unfold SystemTime.ruleDay
  dsimp only
  by_cases hday : rule.wDay < 5
  · rw [if_pos hday]
    exact ⟨_, nth_weekday hrule.month hrule.weekday ⟨hrule.day, by omega⟩⟩
  · rw [if_neg hday]
    exact ⟨_, last_day_mem hrule.weekday hrule.month rfl⟩

/-- The day that `ComputeTransitionDate` stores is the one that the rule stands for. -/
theorem ruleDay_eq (hyear : 1 ≤ year) (hrule : rule.WeekdayRule) :
    rule.ruleDay year = some (transitionDay env year rule) := by
  have hlength := @monthLength_mem year _ hrule.month
  have hw := hrule.weekday
  unfold SystemTime.ruleDay transitionDay
  dsimp only
  rw [daysInMonth_eq env hrule.month]
  by_cases hday : rule.wDay < 5
  · have hfirst := firstWeekday_mem year rule.wMonth rule.wDayOfWeek
    have hlo := hrule.day
    have hdow : day_of_week env year rule.wMonth 1 = weekday (dayNumber year rule.wMonth 1) :=
      day_of_week_eq env hyear hrule.month (le_refl 1)
    have hdow' := weekday_lt (dayNumber year rule.wMonth 1)
    have hoffset : 1 + ((rule.wDayOfWeek : ℤ) - weekday (dayNumber year rule.wMonth 1) + 7) % 7 =
        firstWeekday year rule.wMonth rule.wDayOfWeek := by
      unfold firstWeekday
      omega
    rw [if_pos hday, if_pos hday, nth_weekday hrule.month hw ⟨hlo, by omega⟩, hdow,
      Int.tmod_eq_emod_of_nonneg (by omega), hoffset]
    -- the fourth week is over before the month is
    rw [if_neg (by omega)]
    unfold word
    congr 1
    omega
  · have hlast : 1 ≤ monthLength year rule.wMonth := by omega
    have hdow := day_of_week_eq env hyear hrule.month hlast
    have hdow' := weekday_lt (dayNumber year rule.wMonth (monthLength year rule.wMonth))
    rw [if_neg hday, if_neg hday, last_day_mem hw hrule.month rfl, hdow,
      Int.tmod_eq_emod_of_nonneg (by omega)]
    unfold word
    congr 1
    omega

/-- The date of a transition is the `wDay`-th day of the month that falls on the day of the week
of the rule or, where `wDay` is 5, the last one. -/
theorem transition_on_rule_day (hyear : 1 ≤ year) (hmonth : 1 ≤ rule.wMonth ∧ rule.wMonth ≤ 12)
    (hweekday : rule.wDayOfWeek ≤ 6) (hday : 1 ≤ rule.wDay ∧ rule.wDay ≤ 5) :
    (computeTransitionDate env year rule).wYear = year ∧
      (computeTransitionDate env year rule).wMonth = rule.wMonth ∧
      1 ≤ (computeTransitionDate env year rule).wDay ∧
      (computeTransitionDate env year rule).wDay ≤ monthLength year rule.wMonth ∧
      weekday (dayNumber year rule.wMonth (computeTransitionDate env year rule).wDay) =
        rule.wDayOfWeek ∧
      if rule.wDay ≤ 4 then
        (weekdaysIn year rule.wMonth rule.wDayOfWeek)[rule.wDay - 1]? =
          some (computeTransitionDate env year rule).wDay
      else
        (weekdaysIn year rule.wMonth rule.wDayOfWeek).getLast? =
          some (computeTransitionDate env year rule).wDay := by
  have hrule : rule.WeekdayRule := ⟨hmonth, Nat.lt_succ_of_le hweekday, hday.1⟩
  have hstored : (computeTransitionDate env year rule).wDay = transitionDay env year rule :=
    if_neg (show ¬rule.wMonth = 0 by omega)
  have hruleDay := ruleDay_eq env hyear hrule
  obtain ⟨⟨hlo, hhi⟩, hdow⟩ := mem_weekdaysIn.1 (mem_of_ruleDay hruleDay)
  rw [hstored]
  refine ⟨rfl, rfl, hlo, hhi, hdow, ?_⟩
  unfold SystemTime.ruleDay at hruleDay
  dsimp only at hruleDay
  by_cases hfour : rule.wDay ≤ 4
  · rw [if_pos (Nat.lt_succ_of_le hfour)] at hruleDay
    rw [if_pos hfour]
    exact hruleDay
  · rw [if_neg (by omega)] at hruleDay
    rw [if_neg hfour]
    exact hruleDay

/-- The second Sunday of March 2024 is the tenth of March. -/
theorem transition_on_second_sunday :
    (computeTransitionDate gregorianEnvironment 2024 ⟨0, 3, 0, 2, 2, 0, 0, 0⟩).wDay = 10 ∧
      (weekdaysIn 2024 3 0)[1]? =
        some (computeTransitionDate gregorianEnvironment 2024 ⟨0, 3, 0, 2, 2, 0, 0, 0⟩).wDay :=
  ⟨by decide +kernel,
    (@transition_on_rule_day gregorianEnvironment 2024 ⟨0, 3, 0, 2, 2, 0, 0, 0⟩ (by decide)
      (by decide) (by decide) (by decide)).2.2.2.2.2⟩

end TzApi
end ClamavWin32
