import ClamavWin32.TzApi.TimeEnvironment

/-!
# The environment of a Gregorian calendar

`gregorianEnvironment` has the conversions that count the days of the Gregorian calendar from
the first of January of the year 1601 on.
-/

namespace ClamavWin32
namespace TzApi

open Gregorian

/-- The number of the first of January of the year 1601. -/
def EPOCH : ℕ := 584388

/-- The date of a time that is valid. -/
def SystemTime.date (st : SystemTime) (h : st.Valid) : Date where
  year := st.wYear
  month := st.wMonth
  day := st.wDay
  one_le_year := le_trans (by decide) h.year.1
  month_mem := h.month
  day_mem := h.day

/-- The milliseconds since midnight. -/
def SystemTime.timeOfDay (st : SystemTime) : ℕ :=
  ((st.wHour * 60 + st.wMinute) * 60 + st.wSecond) * 1000 + st.wMilliseconds

/-- The milliseconds since the beginning of the year 1601. -/
def SystemTime.millisecond (st : SystemTime) (h : st.Valid) : ℕ :=
  ((st.date h).number - EPOCH) * 86400000 + st.timeOfDay

/-- The time of a millisecond. -/
def systemTimeOf (ms : ℕ) : SystemTime where
  wYear := (Date.ofNumber (ms / 86400000 + EPOCH)).year
  wMonth := (Date.ofNumber (ms / 86400000 + EPOCH)).month
  wDayOfWeek := weekday (ms / 86400000 + EPOCH)
  wDay := (Date.ofNumber (ms / 86400000 + EPOCH)).day
  wHour := ms % 86400000 / 3600000
  wMinute := ms % 3600000 / 60000
  wSecond := ms % 60000 / 1000
  wMilliseconds := ms % 1000

lemma SystemTime.timeOfDay_lt {st : SystemTime} (h : st.Valid) : st.timeOfDay < 86400000 := by
  have hhour := h.hour
  have hminute := h.minute
  have hsecond := h.second
  have hms := h.milliseconds
  unfold timeOfDay
  omega

/-- A valid time is in the years from 1601 to 30827. -/
lemma SystemTime.number_mem {st : SystemTime} (h : st.Valid) :
    EPOCH ≤ (st.date h).number ∧ (st.date h).number < 11259330 := by
  obtain ⟨hlo, hhi⟩ := (st.date h).number_mem
  have hfirst : daysBeforeYear 1601 ≤ daysBeforeYear (st.date h).year :=
    daysBeforeYear_mono h.year.1
  have hlast : daysBeforeYear ((st.date h).year + 1) ≤ daysBeforeYear 30828 :=
    daysBeforeYear_mono (Nat.succ_le_succ h.year.2)
  have hepoch : daysBeforeYear 1601 = EPOCH := rfl
  have hend : daysBeforeYear 30828 = 11259330 := rfl
  omega

/-- The milliseconds up to the end of the year 30827 are less than `2 ^ 63` ticks. -/
lemma SystemTime.millisecond_lt {st : SystemTime} (h : st.Valid) :
    st.millisecond h * 10000 < 2 ^ 63 := by
  obtain ⟨hlo, hhi⟩ := number_mem h
  have htime := timeOfDay_lt h
  unfold millisecond
  unfold EPOCH at *
  omega

/-- A valid time is the time of its millisecond. -/
lemma systemTimeOf_millisecond {st : SystemTime} (h : st.Valid) :
    st.SameFields (systemTimeOf (st.millisecond h)) := by
  have hnumber := (SystemTime.number_mem h).1
  have htime := SystemTime.timeOfDay_lt h
  have hday : st.millisecond h / 86400000 + EPOCH = (st.date h).number := by
    unfold SystemTime.millisecond
    omega
  have hrest : st.millisecond h % 86400000 = st.timeOfDay := by
    unfold SystemTime.millisecond
    omega
  have hdate : Date.ofNumber (st.millisecond h / 86400000 + EPOCH) = st.date h := by
    rw [hday, Date.ofNumber_number]
  have hminute := h.minute
  have hsecond := h.second
  have hms := h.milliseconds
  unfold SystemTime.timeOfDay at hrest htime
  unfold SystemTime.SameFields SystemTime.fields systemTimeOf
  dsimp only
  rw [hdate]
  refine List.cons_eq_cons.2 ⟨rfl, List.cons_eq_cons.2 ⟨rfl, List.cons_eq_cons.2 ⟨rfl, ?_⟩⟩⟩
  generalize st.millisecond h = ms at hrest
  congr 1
  · omega
  congr 1
  · omega
  congr 1
  · omega
  congr 1
  omega

/-- A later millisecond has a later time. -/
lemma systemTimeOf_before {ms ms' : ℕ} (hlt : ms < ms') :
    (systemTimeOf ms).Before (systemTimeOf ms') := by
  unfold SystemTime.Before SystemTime.fields systemTimeOf
  dsimp only
  rcases Nat.lt_or_ge (ms / 86400000) (ms' / 86400000) with hday | hday
  · -- on different days the dates decide
    have hbefore : (Date.ofNumber (ms / 86400000 + EPOCH)).Before
        (Date.ofNumber (ms' / 86400000 + EPOCH)) := by
      rw [← Date.number_lt_iff, Date.number_ofNumber, Date.number_ofNumber]
      omega
    rcases hbefore with hyear | ⟨hyear, hmonth | ⟨hmonth, hday⟩⟩
    · exact List.cons_lt_cons_iff.2 (Or.inl hyear)
    · exact List.cons_lt_cons_iff.2 (Or.inr ⟨hyear, List.cons_lt_cons_iff.2 (Or.inl hmonth)⟩)
    · exact List.cons_lt_cons_iff.2 (Or.inr ⟨hyear, List.cons_lt_cons_iff.2
        (Or.inr ⟨hmonth, List.cons_lt_cons_iff.2 (Or.inl hday)⟩)⟩)
  · have hsame : ms / 86400000 = ms' / 86400000 := by omega
    rw [hsame]
    simp only [List.cons_lt_cons_iff, List.not_lt_nil, lt_irrefl, false_or, true_and, and_false,
      or_false]
    omega

/-- `SystemTimeToFileTime`, by the calendar. -/
def fileTimeOf (st : SystemTime) : Except ErrorCode FileTime :=
  if h : st.Valid then .ok (FileTime.ofULONGLONG (UInt64.ofNat (st.millisecond h * 10000)))
  else .error ERROR_INVALID_PARAMETER

/-- The `FILETIME` of a time counts its milliseconds. -/
lemma fileTimeOf_eq_ok {st : SystemTime} {ft : FileTime} (hft : fileTimeOf st = .ok ft) :
    ∃ h : st.Valid, ft.ticks = st.millisecond h * 10000 := by
  unfold fileTimeOf at hft
  by_cases h : st.Valid
  · rw [dif_pos h] at hft
    have hlt := SystemTime.millisecond_lt h
    refine ⟨h, ?_⟩
    rw [← Except.ok.inj hft, FileTime.ticks_ofULONGLONG, UInt64.toNat_ofNat']
    omega
  · rw [dif_neg h] at hft
    cases hft

/-- The day of the week makes no difference. -/
lemma fileTimeOf_congr {st st' : SystemTime} (hsame : st.SameFields st') :
    fileTimeOf st = fileTimeOf st' := by
  obtain ⟨y, mo, w, d, h, mi, s, ms⟩ := st
  obtain ⟨y', mo', w', d', h', mi', s', ms'⟩ := st'
  unfold SystemTime.SameFields SystemTime.fields at hsame
  simp only [List.cons.injEq, and_true] at hsame
  obtain ⟨rfl, rfl, rfl, rfl, rfl, rfl, rfl⟩ := hsame
  have hiff : SystemTime.Valid ⟨y, mo, w, d, h, mi, s, ms⟩ ↔
      SystemTime.Valid ⟨y, mo, w', d, h, mi, s, ms⟩ := by
    rw [SystemTime.valid_iff, SystemTime.valid_iff]
  unfold fileTimeOf
  by_cases hvalid : SystemTime.Valid ⟨y, mo, w, d, h, mi, s, ms⟩
  · rw [dif_pos hvalid, dif_pos (hiff.1 hvalid)]
    rfl
  · rw [dif_neg hvalid, dif_neg (fun h => hvalid (hiff.2 h))]

/-- The conversions of the calendar; behind the tables of the code there are zeros. -/
def gregorianEnvironment : TimeEnvironment where
  systemTimeToFileTime := fileTimeOf
  fileTimeToSystemTime ft :=
    if ft.ticks < 2 ^ 63 then .ok (systemTimeOf (ft.ticks / 10000))
    else .error ERROR_INVALID_PARAMETER
  behindDays _ := 0
  behindT _ := 0
  accepts_iff st := by
    refine ⟨fun ⟨ft, hft⟩ => (fileTimeOf_eq_ok hft).1, fun h => ⟨_, dif_pos h⟩⟩
  ignores_wDayOfWeek := fileTimeOf_congr
  whole_milliseconds hft := by
    obtain ⟨h, hticks⟩ := fileTimeOf_eq_ok hft
    omega
  converts_iff ft := by
    by_cases h : ft.ticks < 2 ^ 63
    · rw [if_pos h]
      exact iff_of_true ⟨_, rfl⟩ h
    · rw [if_neg h]
      exact iff_of_false (fun ⟨_, hst⟩ => by cases hst) h
  converts_back {st ft} hft := by
    obtain ⟨h, hticks⟩ := fileTimeOf_eq_ok hft
    have hlt : ft.ticks < 2 ^ 63 := lt_of_eq_of_lt hticks (SystemTime.millisecond_lt h)
    refine ⟨_, if_pos hlt, ?_⟩
    rw [hticks, Nat.mul_div_cancel _ (by decide)]
    exact systemTimeOf_millisecond h
  increasing {ft ft' st st'} hst hst' hlt := by
    by_cases hft : ft.ticks < 2 ^ 63
    · by_cases hft' : ft'.ticks < 2 ^ 63
      · rw [if_pos hft] at hst
        rw [if_pos hft'] at hst'
        rw [← Except.ok.inj hst, ← Except.ok.inj hst']
        exact systemTimeOf_before hlt
      · rw [if_neg hft'] at hst'
        cases hst'
    · rw [if_neg hft] at hst
      cases hst

end TzApi
end ClamavWin32
