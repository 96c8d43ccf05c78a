import Mathlib.Algebra.Order.Ring.Nat
import Mathlib.Data.List.GetD
import Mathlib.Order.Monotone.Basic

/-!
# The Gregorian calendar

The dates from the first of January of the year 1 on, and their numbers, counted in days from
that date.

* `locate`: a position in a row of blocks, as the block and the position in it;
* `Gregorian.Date`: a date of the calendar;
* `Gregorian.Date.number` and `Gregorian.Date.ofNumber`: inverse to each other and, by
  `Gregorian.Date.number_lt_of_lt`, in the order of year, month and day.
-/

namespace ClamavWin32

/-! ## Blocks -/

/-- The block that a position falls into, in a row of blocks of the lengths `ls`, and the
position in that block. -/
def locate : List ℕ → ℕ → ℕ × ℕ
  | [], n => (0, n)
  | l :: ls, n => if n < l then (0, n) else ((locate ls (n - l)).1 + 1, (locate ls (n - l)).2)

/-- A position in the row is the lengths of the blocks before, and the position in its
block. -/
lemma locate_spec (ls : List ℕ) {n : ℕ} (hn : n < ls.sum) :
    (locate ls n).2 < ls.getD (locate ls n).1 0 ∧
      (ls.take (locate ls n).1).sum + (locate ls n).2 = n := by
  induction ls generalizing n with
  | nil => exact absurd hn (Nat.not_lt_zero n)
  | cons l ls ih =>
    rw [List.sum_cons] at hn
    unfold locate
    by_cases hl : n < l
    · rw [if_pos hl]
      exact ⟨hl, Nat.zero_add n⟩
    · rw [if_neg hl]
      obtain ⟨hlt, hsum⟩ := ih (n := n - l) (by omega)
      refine ⟨hlt, ?_⟩
      rw [List.take_succ_cons, List.sum_cons]
      omega

/-- A position given by its block is located there. -/
lemma locate_take (ls : List ℕ) {i s : ℕ} (hs : s < ls.getD i 0) :
    locate ls ((ls.take i).sum + s) = (i, s) := by
  induction ls generalizing i with
  | nil => exact absurd hs (Nat.not_lt_zero s)
  | cons l ls ih =>
    unfold locate
    cases i with
    | zero =>
      have hl : s < l := hs
      rw [List.take_zero, List.sum_nil, Nat.zero_add, if_pos hl]
    | succ i =>
      rw [List.take_succ_cons, List.sum_cons, if_neg (by omega), Nat.add_assoc,
        Nat.add_sub_cancel_left, ih hs]

/-- What is in a block comes before the next one. -/
lemma sum_take_add_lt (ls : List ℕ) {i j s : ℕ} (hs : s < ls.getD i 0) (hij : i < j) :
    (ls.take i).sum + s < (ls.take j).sum := by
  induction ls generalizing i j with
  | nil => exact absurd hs (Nat.not_lt_zero s)
  | cons l ls ih =>
    obtain ⟨j, rfl⟩ : ∃ k, j = k + 1 := ⟨j - 1, by omega⟩
    rw [List.take_succ_cons, List.sum_cons]
    cases i with
    | zero =>
      have hl : s < l := hs
      rw [List.take_zero, List.sum_nil]
      omega
    | succ i =>
      rw [List.take_succ_cons, List.sum_cons]
      have hrest := ih hs (Nat.lt_of_succ_lt_succ hij)
      omega

namespace Gregorian

/-! ## Years and months -/

def IsLeap (year : ℕ) : Prop := year % 4 = 0 ∧ year % 100 ≠ 0 ∨ year % 400 = 0

instance (year : ℕ) : Decidable (IsLeap year) := by
  unfold IsLeap
  infer_instance

def monthLengths (year : ℕ) : List ℕ :=
  [31, if IsLeap year then 29 else 28, 31, 30, 31, 30, 31, 31, 30, 31, 30, 31]

/-- The days of a month, which is numbered from 1 on. -/
def monthLength (year month : ℕ) : ℕ := (monthLengths year).getD (month - 1) 0

/-- The days before a year, from the year 1 on. -/
def daysBeforeYear (year : ℕ) : ℕ :=
  365 * (year - 1) + (year - 1) / 4 - (year - 1) / 100 + (year - 1) / 400

lemma sum_monthLengths (year : ℕ) :
    (monthLengths year).sum = if IsLeap year then 366 else 365 := by
  unfold monthLengths
  split <;> rfl

/-- The next year begins when the months of this one are over. -/
lemma daysBeforeYear_succ {year : ℕ} (hyear : 1 ≤ year) :
    daysBeforeYear (year + 1) = daysBeforeYear year + (monthLengths year).sum := by
  obtain ⟨q, rfl⟩ : ∃ q, year = q + 1 := ⟨year - 1, by omega⟩
  have h4 : (q + 1) / 4 = q / 4 + if (q + 1) % 4 = 0 then 1 else 0 := by
    split <;> omega
  have h100 : (q + 1) / 100 = q / 100 + if (q + 1) % 100 = 0 then 1 else 0 := by
    split <;> omega
  have h400 : (q + 1) / 400 = q / 400 + if (q + 1) % 400 = 0 then 1 else 0 := by
    split <;> omega
  -- every hundredth year is a fourth one, and every 400th a hundredth one
  have hfourth : (q + 1) % 100 = 0 → (q + 1) % 4 = 0 := by omega
  have hhundredth : (q + 1) % 400 = 0 → (q + 1) % 100 = 0 := by omega
  have hle : q / 100 ≤ q := Nat.div_le_self q 100
  rw [sum_monthLengths]
  unfold daysBeforeYear
  rw [Nat.add_sub_cancel, Nat.add_sub_cancel, h4, h100, h400]
  by_cases hfour : (q + 1) % 4 = 0
  · by_cases hcentury : (q + 1) % 100 = 0
    · by_cases hcycle : (q + 1) % 400 = 0
      · have hleap : IsLeap (q + 1) := Or.inr hcycle
        rw [if_pos hfour, if_pos hcentury, if_pos hcycle, if_pos hleap]
        omega
      · have hleap : ¬IsLeap (q + 1) := fun h => h.elim (fun h => h.2 hcentury) hcycle
        rw [if_pos hfour, if_pos hcentury, if_neg hcycle, if_neg hleap]
        omega
    · have hcycle : ¬(q + 1) % 400 = 0 := fun h => hcentury (hhundredth h)
      have hleap : IsLeap (q + 1) := Or.inl ⟨hfour, hcentury⟩
      rw [if_pos hfour, if_neg hcentury, if_neg hcycle, if_pos hleap]
      omega
  · have hcentury : ¬(q + 1) % 100 = 0 := fun h => hfour (hfourth h)
    have hcycle : ¬(q + 1) % 400 = 0 := fun h => hcentury (hhundredth h)
    have hleap : ¬IsLeap (q + 1) := fun h => h.elim (fun h => hfour h.1) hcycle
    rw [if_neg hfour, if_neg hcentury, if_neg hcycle, if_neg hleap]
    omega

lemma daysBeforeYear_mono : Monotone daysBeforeYear := by
  apply monotone_nat_of_le_succ
  intro year
  rcases Nat.eq_zero_or_pos year with rfl | hyear
  · rfl
  · rw [daysBeforeYear_succ hyear]
    exact Nat.le_add_right _ _

/-- A year is the `r`-th one of a cycle of four, which is the `a`-th one of a cycle of 100,
which is the `b`-th one of a cycle of 400. -/
lemma daysBeforeYear_cycles {a b r : ℕ} (c : ℕ) (hb : b < 4) (ha : a < 25) (hr : r < 4) :
    daysBeforeYear (400 * c + 100 * b + 4 * a + r + 1) =
      146097 * c + 36524 * b + 1461 * a + 365 * r := by
  have h4 : (400 * c + 100 * b + 4 * a + r) / 4 = 100 * c + 25 * b + a := by omega
  have h100 : (400 * c + 100 * b + 4 * a + r) / 100 = 4 * c + b := by omega
  have h400 : (400 * c + 100 * b + 4 * a + r) / 400 = c := by omega
  unfold daysBeforeYear
  rw [Nat.add_sub_cancel, h4, h100, h400]
  omega

/-- The leap years are the last ones of their cycles of four, but for three of the last ones
in the cycles of 100. -/
lemma isLeap_cycles {a b r : ℕ} (c : ℕ) (hb : b < 4) (ha : a < 25) (hr : r < 4) :
    IsLeap (400 * c + 100 * b + 4 * a + r + 1) ↔ r = 3 ∧ (a = 24 → b = 3) := by
  have h4 : (400 * c + 100 * b + 4 * a + r + 1) % 4 = 0 ↔ r = 3 := by omega
  have h100 : (400 * c + 100 * b + 4 * a + r + 1) % 100 = 0 ↔ r = 3 ∧ a = 24 := by omega
  have h400 : (400 * c + 100 * b + 4 * a + r + 1) % 400 = 0 ↔ r = 3 ∧ a = 24 ∧ b = 3 := by
    omega
  unfold IsLeap
  rw [h4, Ne, h100, h400]
  omega

/-- The year that a day falls into. The last year of a cycle takes the day that is left
over. -/
def yearOf (n : ℕ) : ℕ :=
  let b := min 3 (n % 146097 / 36524)
  let rest := n % 146097 - 36524 * b
  400 * (n / 146097) + 100 * b + 4 * (rest / 1461) + min 3 (rest % 1461 / 365) + 1

lemma one_le_yearOf (n : ℕ) : 1 ≤ yearOf n := Nat.le_add_left 1 _

/-- The cycles that a day falls into, and how long its year is. -/
lemma yearOf_cycles (n : ℕ) :
    ∃ a b c r, b < 4 ∧ a < 25 ∧ r < 4 ∧ yearOf n = 400 * c + 100 * b + 4 * a + r + 1 ∧
      146097 * c + 36524 * b + 1461 * a + 365 * r ≤ n ∧
      (r < 3 → n < 146097 * c + 36524 * b + 1461 * a + 365 * r + 365) ∧
      (a = 24 → b < 3 → n < 146097 * c + 36524 * b + 1461 * a + 365 * r + 365) ∧
      n < 146097 * c + 36524 * b + 1461 * a + 365 * r + 366 := by
  refine ⟨_, _, _, _, ?_, ?_, ?_, rfl, ?_⟩
  · omega
  · omega
  · omega
  have hn : 146097 * (n / 146097) + n % 146097 = n := Nat.div_add_mod n 146097
  have hk : n % 146097 < 146097 := Nat.mod_lt n (by omega)
  generalize n / 146097 = c, n % 146097 = k at hn hk
  -- what is left of each cycle
  generalize hbdef : min 3 (k / 36524) = b
  generalize hrest : k - 36524 * b = rest
  have hcentury : 36524 * b ≤ k ∧ (b < 3 → rest < 36524) := by omega
  generalize ha : rest / 1461 = a, hs : rest % 1461 = s
  have hfour : 1461 * a + s = rest ∧ s < 1461 := by omega
  generalize hrdef : min 3 (s / 365) = r
  have hyear : 365 * r ≤ s ∧ (r < 3 → s < 365 * r + 365) ∧ r ≤ 3 := by omega
  refine ⟨by omega, by omega, by omega, by omega⟩

lemma yearOf_spec (n : ℕ) :
    daysBeforeYear (yearOf n) ≤ n ∧ n < daysBeforeYear (yearOf n + 1) := by
  rw [daysBeforeYear_succ (one_le_yearOf n), sum_monthLengths]
  obtain ⟨a, b, c, r, hb, ha, hr, hyear, hlo, hcommon, hcentury, hhi⟩ := yearOf_cycles n
  rw [hyear, daysBeforeYear_cycles c hb ha hr]
  refine ⟨hlo, ?_⟩
  by_cases hleap : IsLeap (400 * c + 100 * b + 4 * a + r + 1)
  · rw [if_pos hleap]
    exact hhi
  · rw [if_neg hleap]
    rw [isLeap_cycles c hb ha hr] at hleap
    omega

/-- A day is in one year only. -/
lemma yearOf_eq {n year : ℕ} (hlo : daysBeforeYear year ≤ n)
    (hhi : n < daysBeforeYear (year + 1)) : yearOf n = year := by
  obtain ⟨hlo', hhi'⟩ := yearOf_spec n
  by_contra hne
  rcases Nat.lt_or_gt_of_ne hne with hlt | hgt
  · have hle : daysBeforeYear (yearOf n + 1) ≤ daysBeforeYear year := daysBeforeYear_mono hlt
    omega
  · have hle : daysBeforeYear (year + 1) ≤ daysBeforeYear (yearOf n) := daysBeforeYear_mono hgt
    omega

/-! ## Dates -/

@[ext]
structure Date where
  year : ℕ
  month : ℕ
  day : ℕ
  one_le_year : 1 ≤ year
  month_mem : 1 ≤ month ∧ month ≤ 12
  day_mem : 1 ≤ day ∧ day ≤ monthLength year month

/-- The days from the first of January of the year 1 to the date. -/
def Date.number (date : Date) : ℕ :=
  daysBeforeYear date.year + ((monthLengths date.year).take (date.month - 1)).sum +
    (date.day - 1)

lemma locate_month_lt (n : ℕ) :
    n - daysBeforeYear (yearOf n) < (monthLengths (yearOf n)).sum := by
  have hspec := yearOf_spec n
  rw [daysBeforeYear_succ (one_le_yearOf n)] at hspec
  omega

/-- The date that is so many days after the first of January of the year 1. -/
def Date.ofNumber (n : ℕ) : Date where
  year := yearOf n
  month := (locate (monthLengths (yearOf n)) (n - daysBeforeYear (yearOf n))).1 + 1
  day := (locate (monthLengths (yearOf n)) (n - daysBeforeYear (yearOf n))).2 + 1
  one_le_year := one_le_yearOf n
  month_mem := by
    have hday := (locate_spec _ (locate_month_lt n)).1
    refine ⟨Nat.le_add_left 1 _, Nat.succ_le_of_lt ?_⟩
    by_contra hlong
    rw [List.getD_eq_default _ _ (Nat.le_of_not_lt hlong)] at hday
    exact Nat.not_lt_zero _ hday
  day_mem := ⟨Nat.le_add_left 1 _, (locate_spec _ (locate_month_lt n)).1⟩

/-- The place of the day in its month, from zero on. -/
lemma Date.pred_day_lt (date : Date) :
    date.day - 1 < (monthLengths date.year).getD (date.month - 1) 0 := by
  obtain ⟨hday, hlength⟩ := date.day_mem
  unfold monthLength at hlength
  omega

/-- A date is in its year. -/
lemma Date.number_mem (date : Date) :
    daysBeforeYear date.year ≤ date.number ∧ date.number < daysBeforeYear (date.year + 1) := by
  obtain ⟨hmonth, hmonth'⟩ := date.month_mem
  have hlt : _ < ((monthLengths date.year).take 12).sum :=
    sum_take_add_lt _ date.pred_day_lt (by omega)
  have htake : (monthLengths date.year).take 12 = monthLengths date.year := rfl
  rw [htake] at hlt
  rw [daysBeforeYear_succ date.one_le_year]
  unfold Date.number
  omega

/-- A date is the date of its number. -/
theorem Date.ofNumber_number (date : Date) : Date.ofNumber date.number = date := by
  have hyear : yearOf date.number = date.year := yearOf_eq date.number_mem.1 date.number_mem.2
  have hlocate : locate (monthLengths date.year) (date.number - daysBeforeYear date.year) =
      (date.month - 1, date.day - 1) := by
    unfold Date.number
    rw [Nat.add_assoc, Nat.add_sub_cancel_left, locate_take _ date.pred_day_lt]
  unfold Date.ofNumber
  ext
  · exact hyear
  · show (locate _ _).1 + 1 = date.month
    rw [hyear, hlocate]
    exact Nat.sub_add_cancel date.month_mem.1
  · show (locate _ _).2 + 1 = date.day
    rw [hyear, hlocate]
    exact Nat.sub_add_cancel date.day_mem.1

/-- A number is the number of its date. -/
theorem Date.number_ofNumber (n : ℕ) : (Date.ofNumber n).number = n := by
  have hsum := (locate_spec _ (locate_month_lt n)).2
  have hyear := (yearOf_spec n).1
  unfold Date.number Date.ofNumber
  dsimp only
  rw [Nat.add_sub_cancel, Nat.add_sub_cancel]
  omega

/-- The date is before the other one by its year, month or day. -/
def Date.Before (d e : Date) : Prop :=
  d.year < e.year ∨ d.year = e.year ∧ (d.month < e.month ∨ d.month = e.month ∧ d.day < e.day)

lemma Date.number_lt_of_before {d e : Date} (h : d.Before e) : d.number < e.number := by
  rcases h with hyear | ⟨hyear, hmonth | ⟨hmonth, hday⟩⟩
  · calc d.number < daysBeforeYear (d.year + 1) := d.number_mem.2
      _ ≤ daysBeforeYear e.year := daysBeforeYear_mono hyear
      _ ≤ e.number := e.number_mem.1
  · have hd := d.month_mem
    have hlt := sum_take_add_lt _ d.pred_day_lt (j := e.month - 1) (by omega)
    unfold Date.number
    rw [← hyear]
    omega
  · have hd := d.day_mem
    unfold Date.number
    rw [← hyear, ← hmonth]
    omega

/-- The numbers are in the order of the dates. -/
theorem Date.number_lt_iff (d e : Date) : d.number < e.number ↔ d.Before e := by
  refine ⟨fun hlt => ?_, number_lt_of_before⟩
  by_contra hbefore
  by_cases hrev : e.Before d
  · have hgt := number_lt_of_before hrev
    omega
  · have heq : d = e := by
      unfold Date.Before at hbefore hrev
      ext <;> omega
    rw [heq] at hlt
    exact Nat.lt_irrefl _ hlt

/-- The day of the week of the date with this number, `0` on a Sunday: the first of January of
the year 1 is a Monday. -/
def weekday (n : ℕ) : ℕ := (n + 1) % 7

end Gregorian
end ClamavWin32
