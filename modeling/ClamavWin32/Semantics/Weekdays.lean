import ClamavWin32.Semantics.GregorianCalendar
import Mathlib.Data.List.Sort

/-!
# The days of a month that fall on a day of the week

* `Gregorian.dayNumber`: the number of a day that is given by its year, month and day;
* `Gregorian.weekdaysIn`: the days of a month that fall on a day of the week, in their order;
* `Gregorian.weekdaysIn_eq`: they are seven days apart, from one of the first seven on;
* `Gregorian.nth_weekday` and `Gregorian.last_weekday`: one of the first four of them by the
  days before it, and the last one by the day where the month ends.
-/

namespace ClamavWin32
namespace Gregorian

/-- The number of a day. -/
def dayNumber (year month day : ℕ) : ℕ :=
  daysBeforeYear year + ((monthLengths year).take (month - 1)).sum + (day - 1)

/-- The days of a month that fall on this day of the week, in their order. -/
def weekdaysIn (year month w : ℕ) : List ℕ :=
  (List.range' 1 (monthLength year month)).filter fun d => weekday (dayNumber year month d) = w

lemma weekday_lt (n : ℕ) : weekday n < 7 := Nat.mod_lt _ (by decide)

/-- After a number of days the week has gone on by as many. -/
lemma weekday_add (n k : ℕ) : weekday (n + k) = (weekday n + k) % 7 := by
  unfold weekday
  omega

/-- The day of the week of a day of a month, by the one of the first day. -/
lemma weekday_dayNumber (year month d : ℕ) :
    weekday (dayNumber year month d) = (weekday (dayNumber year month 1) + (d - 1)) % 7 := by
  rw [← weekday_add]
  rfl

lemma mem_weekdaysIn {year month w d : ℕ} :
    d ∈ weekdaysIn year month w ↔
      (1 ≤ d ∧ d ≤ monthLength year month) ∧ weekday (dayNumber year month d) = w := by
  unfold weekdaysIn
  rw [List.mem_filter, List.mem_range'_1, decide_eq_true_iff]
  apply and_congr_left
  intro _
  omega

lemma monthLengths_mem (year : ℕ) : ∀ l ∈ monthLengths year, 28 ≤ l ∧ l ≤ 31 := by
  unfold monthLengths
  by_cases hleap : IsLeap year
  · rw [if_pos hleap]
    decide
  · rw [if_neg hleap]
    decide

lemma monthLength_mem {year month : ℕ} (hmonth : 1 ≤ month ∧ month ≤ 12) :
    28 ≤ monthLength year month ∧ monthLength year month ≤ 31 := by
  have hlt : month - 1 < (monthLengths year).length := by
    show month - 1 < 12
    omega
  unfold monthLength
  rw [List.getD_eq_getElem _ _ hlt]
  exact monthLengths_mem year _ (List.getElem_mem hlt)

/-- The first of the days of a month that fall on this day of the week. -/
def firstWeekday (year month w : ℕ) : ℕ := 1 + (w + 7 - weekday (dayNumber year month 1)) % 7

lemma firstWeekday_mem (year month w : ℕ) :
    1 ≤ firstWeekday year month w ∧ firstWeekday year month w ≤ 7 := by
  unfold firstWeekday
  omega

/-- The days that fall on a day of the week are some weeks after the first one. -/
lemma weekday_eq_iff (year month : ℕ) {w d : ℕ} (hw : w < 7) (hd : 1 ≤ d) :
    weekday (dayNumber year month d) = w ↔ ∃ i, d = firstWeekday year month w + 7 * i := by
  have hfirst := weekday_lt (dayNumber year month 1)
  rw [weekday_dayNumber]
  unfold firstWeekday
  constructor
  · intro hday
    exact ⟨(d - 1) / 7, by omega⟩
  · rintro ⟨i, rfl⟩
    omega

/-- The days that fall on a day of the week are a week apart. -/
theorem weekdaysIn_eq {year month w : ℕ} (hw : w < 7) :
    weekdaysIn year month w =
      List.range' (firstWeekday year month w)
        ((monthLength year month + 7 - firstWeekday year month w) / 7) 7 := by
  have hfirst := firstWeekday_mem year month w
  apply List.Pairwise.eq_of_mem_iff (r := (· < ·))
  · unfold weekdaysIn
    exact List.Pairwise.filter _ List.pairwise_lt_range'
  · exact List.pairwise_lt_range' 7 (by decide)
  · intro d
    rw [mem_weekdaysIn, List.mem_range']
    constructor
    · rintro ⟨⟨hlo, hhi⟩, hday⟩
      obtain ⟨i, rfl⟩ := (weekday_eq_iff year month hw hlo).1 hday
      exact ⟨i, by omega, rfl⟩
    · rintro ⟨i, hi, rfl⟩
      have hlo : 1 ≤ firstWeekday year month w + 7 * i := by omega
      exact ⟨⟨hlo, by omega⟩, (weekday_eq_iff year month hw hlo).2 ⟨i, rfl⟩⟩

/-- Every month has at least four weeks. -/
lemma nth_weekday {year month w n : ℕ} (hmonth : 1 ≤ month ∧ month ≤ 12) (hw : w < 7)
    (hn : 1 ≤ n ∧ n ≤ 4) :
    (weekdaysIn year month w)[n - 1]? = some (firstWeekday year month w + 7 * (n - 1)) := by
  have hfirst := firstWeekday_mem year month w
  have hlength : 28 ≤ monthLength year month := (monthLength_mem hmonth).1
  rw [weekdaysIn_eq hw, List.getElem?_range' (by omega)]

/-- The last of the days is in the last week of the month. -/
lemma last_weekday {year month w d : ℕ} (hw : w < 7) :
    (weekdaysIn year month w).getLast? = some d ↔
      d ∈ weekdaysIn year month w ∧ monthLength year month < d + 7 := by
  have hfirst := firstWeekday_mem year month w
  rw [weekdaysIn_eq hw, List.getLast?_eq_getElem?, List.length_range', List.mem_range']
  constructor
  · intro hlast
    obtain ⟨hlt, hd⟩ := List.getElem?_eq_some_iff.1 hlast
    rw [List.length_range'] at hlt
    rw [List.getElem_range'] at hd
    exact ⟨⟨_, hlt, hd.symm⟩, by omega⟩
  · rintro ⟨⟨i, hi, rfl⟩, hlast⟩
    rw [List.getElem?_range' (by omega)]
    congr 1
    omega

end Gregorian
end ClamavWin32
