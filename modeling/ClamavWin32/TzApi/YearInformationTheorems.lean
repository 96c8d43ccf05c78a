import ClamavWin32.TzApi.TransitionTheorems
import ClamavWin32.TzApi.UniversalTimeTheorems
import ClamavWin32.TzApi.YearInformation

/-!
# Conversions with the information of a year

`GetTimeZoneInformationForYear` gives the dates of a year, and
`SystemTimeToTzSpecificLocalTime_compat` reads each date as a recurring rule again.

* `SystemTime.ruleDate`: the date that a rule stands for in a year;
* `ruleDate_again_iff`: when a date, read as a rule, stands for itself;
* `sameLocalTime_iff`: two zones with the same base bias, by the biases in effect;
* `yearInformation_iff`: when the information of a year converts like the rules.
-/

namespace ClamavWin32
namespace TzApi

open Gregorian

variable {env : TimeEnvironment} {tz tz' : TimeZoneInformation} {rule utc prelim : SystemTime}
  {u : ℤ} {y year : ℕ}

/-! ## Dates as rules -/

/-- The date that the rule stands for in a year. -/
def SystemTime.ruleDate (rule : SystemTime) (year : ℕ) : SystemTime :=
  { rule with wYear := year, wDay := (rule.ruleDay year).getD 0 }

/-- `ComputeTransitionDate` has the date that the rule stands for. -/
lemma computeTransitionDate_eq (hyear : 1 ≤ year) (hrule : rule.WeekdayRule) :
    computeTransitionDate env year rule = rule.ruleDate year := by
  have hmonth : ¬rule.wMonth = 0 := by
    have hlo := hrule.month.1
    omega
  unfold computeTransitionDate SystemTime.ruleDate
  rw [if_neg hmonth, if_neg hmonth, ruleDay_eq env hyear hrule]
  rfl

/-- A date is a rule again. -/
lemma ruleDate_weekdayRule (year : ℕ) (hrule : rule.WeekdayRule) :
    (rule.ruleDate year).WeekdayRule := by
  obtain ⟨d, hd⟩ := exists_ruleDay year hrule
  have hmem := (mem_weekdaysIn.1 (mem_of_ruleDay hd)).1
  refine ⟨hrule.month, hrule.weekday, ?_⟩
  unfold SystemTime.ruleDate
  rw [hd]
  exact hmem.1

/-- A date that is read as a rule stands for itself if and only if it is the first of the month
or in the last week of the month. -/
theorem ruleDate_again_iff (year : ℕ) (hrule : rule.WeekdayRule) :
    (rule.ruleDate year).ruleDate year = rule.ruleDate year ↔
      (rule.ruleDate year).wDay = 1 ∨
        monthLength year rule.wMonth < (rule.ruleDate year).wDay + 7 := by
  obtain ⟨d, hd⟩ := exists_ruleDay year hrule
  obtain ⟨e, he⟩ := exists_ruleDay year (ruleDate_weekdayRule year hrule)
  have hmem := mem_of_ruleDay hd
  have hdate : rule.ruleDate year = { rule with wYear := year, wDay := d } := by
    unfold SystemTime.ruleDate
    rw [hd, Option.getD_some]
  have hagain : (rule.ruleDate year).ruleDate year = rule.ruleDate year ↔ e = d := by
    unfold SystemTime.ruleDate at he ⊢
    rw [he, hd, Option.getD_some, Option.getD_some]
    exact ⟨fun h => congrArg SystemTime.wDay h, fun h => by rw [h]⟩
  rw [hagain]
  rw [hdate] at he ⊢
  unfold SystemTime.ruleDay at he
  dsimp only at he ⊢
  by_cases hsmall : d < 5
  · -- the day is in the first week, and it is read as a number of weeks
    obtain ⟨hlo, hhi⟩ := (mem_weekdaysIn.1 hmem).1
    obtain ⟨i, hi⟩ := (weekday_eq_iff year rule.wMonth hrule.weekday hlo).1
      (mem_weekdaysIn.1 hmem).2
    have hlength : 28 ≤ monthLength year rule.wMonth := (monthLength_mem hrule.month).1
    rw [if_pos hsmall, nth_weekday hrule.month hrule.weekday ⟨hlo, by omega⟩] at he
    have he' := Option.some.inj he
    omega
  · have hlast := @last_weekday year rule.wMonth rule.wDayOfWeek d hrule.weekday
    rw [if_neg hsmall] at he
    rw [he, Option.some.injEq, and_iff_right hmem] at hlast
    rw [hlast, or_iff_right (by omega)]

/-- The last day of a month that falls on a day of the week stands for itself. -/
lemma ruleDate_again_of_last (year : ℕ) (hrule : rule.WeekdayRule) (hlast : 5 ≤ rule.wDay) :
    (rule.ruleDate year).ruleDate year = rule.ruleDate year := by
  obtain ⟨d, hd⟩ := exists_ruleDay year hrule
  have hdate : (rule.ruleDate year).wDay = d := by
    unfold SystemTime.ruleDate
    rw [hd, Option.getD_some]
  unfold SystemTime.ruleDay at hd
  rw [if_neg (by omega), last_weekday hrule.weekday] at hd
  rw [ruleDate_again_iff year hrule, hdate]
  exact Or.inr hd.2

/-! ## Zones with the same base bias -/

/-- Both zones have the same local time for this UTC time, or none. -/
def SameLocalTime (env : TimeEnvironment) (tz tz' : TimeZoneInformation) (utc : SystemTime) :
    Prop :=
  ∀ loc, systemTimeToTzSpecificLocalTime_compat env tz utc = .ok loc ↔
    systemTimeToTzSpecificLocalTime_compat env tz' utc = .ok loc

/-- The local time is shown by the clock of the bias that the preliminary clock leads to. -/
lemma toLocalTime_at_prelim {loc : SystemTime} (hu : env.IsAt utc u)
    (hprelim : env.Shows (wallClock u tz.bias.toInt) prelim) :
    systemTimeToTzSpecificLocalTime_compat env tz utc = .ok loc ↔
      env.Shows (wallClock u (biasUsed env tz prelim)) loc := by
  rw [toLocalTime_at hu]
  constructor
  · intro ⟨prelim', hprelim', hloc⟩
    rw [hprelim.unique hprelim']
    exact hloc
  · intro hloc
    exact ⟨prelim, hprelim, hloc⟩

/-- Zones with the same base bias agree if and only if they use the same bias, or none of the
biases leads to a time. -/
theorem sameLocalTime_iff (hbias : tz'.bias = tz.bias) :
    SameLocalTime env tz tz' utc ↔
      ∀ u prelim, env.IsAt utc u → env.Shows (wallClock u tz.bias.toInt) prelim →
        biasUsed env tz prelim = biasUsed env tz' prelim ∨
          ¬InRange (wallClock u (biasUsed env tz prelim)) ∧
            ¬InRange (wallClock u (biasUsed env tz' prelim)) := by
  unfold SameLocalTime InRange
  simp only [← env.exists_shows_iff]
  constructor
  · intro hsame u prelim hu hprelim
    have hprelim' : env.Shows (wallClock u tz'.bias.toInt) prelim := by rwa [hbias]
    simp only [toLocalTime_at_prelim hu hprelim, toLocalTime_at_prelim hu hprelim'] at hsame
    by_cases hused : biasUsed env tz prelim = biasUsed env tz' prelim
    · exact Or.inl hused
    · right
      constructor
      · intro ⟨loc, hloc⟩
        exact hused (wallClock_inj hu hloc ((hsame loc).1 hloc))
      · intro ⟨loc, hloc⟩
        exact hused (wallClock_inj hu ((hsame loc).2 hloc) hloc)
  · intro h loc
    by_cases hex : ∃ u prelim, env.IsAt utc u ∧ env.Shows (wallClock u tz.bias.toInt) prelim
    · obtain ⟨u, prelim, hu, hprelim⟩ := hex
      have hprelim' : env.Shows (wallClock u tz'.bias.toInt) prelim := by rwa [hbias]
      rw [toLocalTime_at_prelim hu hprelim, toLocalTime_at_prelim hu hprelim']
      rcases h u prelim hu hprelim with hused | ⟨hnone, hnone'⟩
      · rw [hused]
      · exact iff_of_false (fun hloc => hnone ⟨loc, hloc⟩) (fun hloc => hnone' ⟨loc, hloc⟩)
    · -- without a preliminary clock neither conversion succeeds
      rw [toLocalTime_iff, toLocalTime_iff, hbias]
      exact iff_of_false (fun ⟨u, prelim, hu, hprelim, _⟩ => hex ⟨u, prelim, hu, hprelim⟩)
        (fun ⟨u, prelim, hu, hprelim, _⟩ => hex ⟨u, prelim, hu, hprelim⟩)

/-! ## The information of a year -/

/-- The clocks of `FileTimeToSystemTime` begin with the year 1601. -/
def TimeEnvironment.ShowsYears (env : TimeEnvironment) : Prop :=
  ∀ ft st, env.fileTimeToSystemTime ft = .ok st → 1601 ≤ st.wYear

/-- Daylight time is in effect by the dates of the year `y`, read as rules again, whenever it is
by the rules. -/
def TimeZoneInformation.ReadsBack (tz : TimeZoneInformation) (y : ℕ) (prelim : SystemTime) :
    Prop :=
  DaylightBetween ((tz.daylightDate.ruleDate y).ruleDate prelim.wYear)
      ((tz.standardDate.ruleDate y).ruleDate prelim.wYear) prelim ↔
    DaylightBetween (tz.daylightDate.ruleDate prelim.wYear)
      (tz.standardDate.ruleDate prelim.wYear) prelim

/-- The zone with the dates of a year. -/
def TimeZoneInformation.ofYear (env : TimeEnvironment) (tz : TimeZoneInformation) (y : ℕ) :
    TimeZoneInformation :=
  { tz with
    standardDate := computeTransitionDate env y tz.standardDate
    daylightDate := computeTransitionDate env y tz.daylightDate }

lemma yearInformation_eq {current : Except ErrorCode NamedTimeZone}
    {pdtzi : Option DynamicTimeZoneInformation} {ptzi : Option NamedTimeZone}
    {zone : DynamicTimeZoneInformation} {info : NamedTimeZone}
    (hzone : dynamicZone current pdtzi = .ok zone)
    (hinfo : getTimeZoneInformationForYear env current y pdtzi ptzi = .ok info) :
    info.toTimeZoneInformation = zone.toTimeZoneInformation.ofYear env y := by
  cases ptzi with
  | none => cases hinfo
  | some old =>
    unfold getTimeZoneInformationForYear at hinfo
    dsimp only at hinfo
    rw [hzone] at hinfo
    rw [← Except.ok.inj hinfo]
    rfl

/-- With the dates of the year the code decides by the dates that these stand for as rules. -/
lemma isDST_ofYear_iff (hy : 1 ≤ y) (hyear : 1 ≤ prelim.wYear)
    (hstandard : tz.standardDate.WeekdayRule) (hdaylight : tz.daylightDate.WeekdayRule) :
    (isDST env (tz.ofYear env y) prelim = true ↔ isDST env tz prelim = true) ↔
      tz.ReadsBack y prelim := by
  rw [isDST_eq, isDST_eq]
  unfold TimeZoneInformation.ofYear TimeZoneInformation.ReadsBack
  dsimp only
  rw [computeTransitionDate_eq hy hstandard, computeTransitionDate_eq hy hdaylight,
    computeTransitionDate_eq hyear hstandard, computeTransitionDate_eq hyear hdaylight,
    computeTransitionDate_eq hyear (ruleDate_weekdayRule y hstandard),
    computeTransitionDate_eq hyear (ruleDate_weekdayRule y hdaylight)]

lemma biasUsed_rules (hstandard : 1 ≤ tz.standardDate.wMonth)
    (hdaylight : 1 ≤ tz.daylightDate.wMonth) :
    biasUsed env tz prelim =
      (tz.bias + if isDST env tz prelim then tz.daylightBias else tz.standardBias).toInt := by
  have hrules : ¬tz.NoRules := by
    unfold TimeZoneInformation.NoRules
    omega
  unfold biasUsed effectiveBias
  rw [if_neg hrules]

lemma add_toInt_inj (a b c : Int32) : (a + b).toInt = (a + c).toInt ↔ b = c := by
  rw [Int32.toInt_inj]
  exact Int32.add_right_inj a

/-- The bias used is the same, or leads to no time, if and only if the decision is the same or
makes no difference. -/
lemma biasUsed_ofYear_iff (hy : 1 ≤ y) (hyear : 1 ≤ prelim.wYear)
    (hstandard : tz.standardDate.WeekdayRule) (hdaylight : tz.daylightDate.WeekdayRule) :
    (biasUsed env tz prelim = biasUsed env (tz.ofYear env y) prelim ∨
        ¬InRange (wallClock u (biasUsed env tz prelim)) ∧
          ¬InRange (wallClock u (biasUsed env (tz.ofYear env y) prelim))) ↔
      tz.daylightBias = tz.standardBias ∨ tz.ReadsBack y prelim ∨
        ¬InRange (wallClock u (tz.bias + tz.daylightBias).toInt) ∧
          ¬InRange (wallClock u (tz.bias + tz.standardBias).toInt) := by
  have hofYear : biasUsed env (tz.ofYear env y) prelim =
      (tz.bias +
        if isDST env (tz.ofYear env y) prelim then tz.daylightBias else tz.standardBias).toInt :=
    biasUsed_rules hstandard.month.1 hdaylight.month.1
  rw [← isDST_ofYear_iff hy hyear hstandard hdaylight, hofYear,
    biasUsed_rules hstandard.month.1 hdaylight.month.1]
  by_cases hrules : isDST env tz prelim
  · by_cases hdates : isDST env (tz.ofYear env y) prelim
    · rw [if_pos hrules, if_pos hdates]
      exact iff_of_true (Or.inl rfl) (Or.inr (Or.inl (iff_of_true hdates hrules)))
    · rw [if_pos hrules, if_neg hdates, add_toInt_inj, iff_true_right hrules, or_iff_right hdates]
  · by_cases hdates : isDST env (tz.ofYear env y) prelim
    · rw [if_neg hrules, if_pos hdates, add_toInt_inj, iff_true_left hdates,
        or_iff_right hrules, eq_comm, and_comm]
    · rw [if_neg hrules, if_neg hdates]
      exact iff_of_true (Or.inl rfl) (Or.inr (Or.inl (iff_of_false hdates hrules)))

/-- The information of a year converts like the rules it came from if and only if, at the
preliminary clock, daylight time makes no difference, the dates that are read back lead to the
same decision, or no local time is in range. -/
theorem yearInformation_iff {current : Except ErrorCode NamedTimeZone}
    {pdtzi : Option DynamicTimeZoneInformation} {ptzi : Option NamedTimeZone}
    {zone : DynamicTimeZoneInformation} {info : NamedTimeZone} (hyears : env.ShowsYears)
    (hy : 1 ≤ y) (hstandard : zone.standardDate.WeekdayRule)
    (hdaylight : zone.daylightDate.WeekdayRule) (hzone : dynamicZone current pdtzi = .ok zone)
    (hinfo : getTimeZoneInformationForYear env current y pdtzi ptzi = .ok info) :
    SameLocalTime env zone.toTimeZoneInformation info.toTimeZoneInformation utc ↔
      ∀ u prelim, env.IsAt utc u → env.Shows (wallClock u zone.bias.toInt) prelim →
        zone.daylightBias = zone.standardBias ∨ zone.ReadsBack y prelim ∨
          ¬InRange (wallClock u (zone.bias + zone.daylightBias).toInt) ∧
            ¬InRange (wallClock u (zone.bias + zone.standardBias).toInt) := by
  rw [yearInformation_eq hzone hinfo]
  generalize zone.toTimeZoneInformation = tz at *
  rw [sameLocalTime_iff (by rfl)]
  have hclock : ∀ u prelim, env.Shows (wallClock u tz.bias.toInt) prelim → 1 ≤ prelim.wYear := by
    intro u prelim ⟨ft, hft, _⟩
    exact le_trans (by decide) (hyears ft prelim hft)
  constructor
  · intro h u prelim hu hprelim
    exact (biasUsed_ofYear_iff hy (hclock u prelim hprelim) hstandard hdaylight).1
      (h u prelim hu hprelim)
  · intro h u prelim hu hprelim
    exact (biasUsed_ofYear_iff hy (hclock u prelim hprelim) hstandard hdaylight).2
      (h u prelim hu hprelim)

/-! ## The zones of Central Europe and of New York -/

/-- Transitions on the last days of their kind are read back as they were. -/
lemma readsBack_of_last (hstandard : tz.standardDate.WeekdayRule)
    (hdaylight : tz.daylightDate.WeekdayRule) (hlast : 5 ≤ tz.standardDate.wDay)
    (hlast' : 5 ≤ tz.daylightDate.wDay) : tz.ReadsBack prelim.wYear prelim := by
  unfold TimeZoneInformation.ReadsBack
  rw [ruleDate_again_of_last _ hstandard hlast, ruleDate_again_of_last _ hdaylight hlast']

lemma gregorianEnvironment_showsYears : gregorianEnvironment.ShowsYears := by
  intro ft st hst
  unfold gregorianEnvironment at hst
  dsimp only at hst
  split at hst
  · rw [← Except.ok.inj hst]
    by_contra hyear
    have hspec := (yearOf_spec (ft.ticks / 10000 / 86400000 + EPOCH)).2
    have hle : daysBeforeYear (yearOf (ft.ticks / 10000 / 86400000 + EPOCH) + 1) ≤
        daysBeforeYear 1601 := daysBeforeYear_mono (Nat.lt_of_not_le hyear)
    have hepoch : daysBeforeYear 1601 = EPOCH := rfl
    omega
  · cases hst

/-- A zone as it is given to `GetTimeZoneInformationForYear`. -/
def TimeZoneInformation.dynamic (tz : TimeZoneInformation) : DynamicTimeZoneInformation where
  toTimeZoneInformation := tz
  standardName := []
  daylightName := []
  timeZoneKeyName := []
  dynamicDaylightTimeDisabled := false

/-- The information of the year 2024 converts the first of July like the rules of Central
Europe. -/
theorem july_yearInformation :
    SameLocalTime gregorianEnvironment centralEurope
      (centralEurope.ofYear gregorianEnvironment 2024) ⟨2024, 7, 1, 1, 12, 0, 0, 0⟩ := by
  have hstandard : centralEurope.standardDate.WeekdayRule := ⟨by decide, by decide, by decide⟩
  have hdaylight : centralEurope.daylightDate.WeekdayRule := ⟨by decide, by decide, by decide⟩
  have hzone : dynamicZone (.error 0) (some centralEurope.dynamic) = .ok centralEurope.dynamic :=
    rfl
  have hinfo : getTimeZoneInformationForYear gregorianEnvironment (.error 0) 2024
      (some centralEurope.dynamic) (some centralEurope.dynamic.toNamedTimeZone) =
        .ok { centralEurope.dynamic.toNamedTimeZone with
          toTimeZoneInformation := centralEurope.ofYear gregorianEnvironment 2024 } := rfl
  apply (yearInformation_iff gregorianEnvironment_showsYears (by decide) hstandard hdaylight
    hzone hinfo).2
  intro u prelim hu hprelim
  rw [hu.unique julyClocks.isAt] at hprelim
  rw [hprelim.unique julyClocks.prelim_shown]
  exact Or.inr (Or.inl (readsBack_of_last hstandard hdaylight (by decide) (by decide)))

/-- Five hours behind UTC, and four from the second Sunday of March at 2:00 to the first one of
November at 2:00. -/
def newYork : TimeZoneInformation where
  bias := 300
  standardDate := ⟨0, 11, 0, 1, 2, 0, 0, 0⟩
  standardBias := 0
  daylightDate := ⟨0, 3, 0, 2, 2, 0, 0, 0⟩
  daylightBias := -60

/-- On the 20th of March 2024, 12:00 UTC is 8:00 by the rules of New York, and 7:00 with the
information of the year: the tenth of March is read as the last Sunday of March. -/
theorem newYork_not_same :
    (newYork.standardDate.Recurring ∧ newYork.daylightDate.Recurring) ∧
      getTimeZoneInformationForYear gregorianEnvironment (.error 0) 2024 (some newYork.dynamic)
          (some newYork.dynamic.toNamedTimeZone) =
        .ok { newYork.dynamic.toNamedTimeZone with
          toTimeZoneInformation := newYork.ofYear gregorianEnvironment 2024 } ∧
      systemTimeToTzSpecificLocalTime_compat gregorianEnvironment newYork
          ⟨2024, 3, 3, 20, 12, 0, 0, 0⟩ = .ok ⟨2024, 3, 3, 20, 8, 0, 0, 0⟩ ∧
      ¬SameLocalTime gregorianEnvironment newYork (newYork.ofYear gregorianEnvironment 2024)
        ⟨2024, 3, 3, 20, 12, 0, 0, 0⟩ := by
  have hrules : systemTimeToTzSpecificLocalTime_compat gregorianEnvironment newYork
      ⟨2024, 3, 3, 20, 12, 0, 0, 0⟩ = .ok ⟨2024, 3, 3, 20, 8, 0, 0, 0⟩ := by decide +kernel
  have hdates : systemTimeToTzSpecificLocalTime_compat gregorianEnvironment
      (newYork.ofYear gregorianEnvironment 2024) ⟨2024, 3, 3, 20, 12, 0, 0, 0⟩ =
        .ok ⟨2024, 3, 3, 20, 7, 0, 0, 0⟩ := by decide +kernel
  refine ⟨⟨⟨by decide, by decide, by decide⟩, ⟨by decide, by decide, by decide⟩⟩, rfl, hrules, ?_⟩
  intro hsame
  rw [(hsame _).1 hrules] at hdates
  exact absurd hdates (by decide)

end TzApi
end ClamavWin32
