import ClamavWin32.TzApi.GregorianTime
import ClamavWin32.TzApi.TzApi

/-!
# UTC to local time

What `systemTimeToTzSpecificLocalTime_compat` does, in terms of instants, and when it follows
the rules of the zone.

* `wallClock`: the instant that a clock shows which is so many minutes behind UTC;
* `toLocalTime_iff`: the conversion, by the clocks that it reads;
* `DaylightInEffect`: the rules of the zone, which compare the standard clock with one
  transition and the daylight clock with the other one;
* `followsRules_iff`: the code compares one preliminary clock with both.
-/

namespace ClamavWin32
namespace TzApi

variable {env : TimeEnvironment} {tz : TimeZoneInformation}

/-! ## The order of times -/

lemma compareSystemTime_neg_iff (a b : SystemTime) : compareSystemTime a b < 0 ↔ a.Before b := by
  unfold compareSystemTime SystemTime.Before SystemTime.fields
  simp only [List.cons_lt_cons_iff, List.not_lt_nil, ne_eq, ite_not]
  split_ifs with hyear hmonth hday hhour hminute hsecond
  · -- the milliseconds decide
    simp only [hyear, hmonth, hday, hhour, hminute, hsecond, lt_irrefl, true_and, false_or,
      and_false, or_false]
    omega
  all_goals omega

lemma compareSystemTime_eq_zero_iff (a b : SystemTime) :
    compareSystemTime a b = 0 ↔ a.SameFields b := by
  unfold compareSystemTime SystemTime.SameFields SystemTime.fields
  simp only [List.cons.injEq, ne_eq, ite_not, and_true]
  split_ifs with hyear hmonth hday hhour hminute hsecond
  · simp only [hyear, hmonth, hday, hhour, hminute, hsecond, true_and]
    omega
  all_goals omega

lemma compareSystemTime_nonneg_iff (a b : SystemTime) :
    compareSystemTime a b ≥ 0 ↔ ¬a.Before b := by
  rw [← compareSystemTime_neg_iff]
  exact Int.not_lt.symm

/-! ## Clocks -/

def TICKS_PER_MINUTE : ℤ := 600000000

/-- What a clock shows at the instant that is `bias` minutes behind UTC, as an instant. -/
def wallClock (t bias : ℤ) : ℤ := t - bias * TICKS_PER_MINUTE

lemma toNat_biasIntervals (bias : Int32) :
    (biasIntervals bias).toNat = (bias.toInt * TICKS_PER_MINUTE % 2 ^ 64).toNat := by
  have hofInt : biasIntervals bias = UInt64.ofInt (bias.toInt * TICKS_PER_MINUTE) :=
    (UInt64.ofInt_mul bias.toInt TICKS_PER_MINUTE).symm
  rw [hofInt]
  show (UInt64.ofNat (bias.toInt * TICKS_PER_MINUTE % 2 ^ 64).toNat).toNat = _
  rw [UInt64.toNat_ofNat']
  omega

/-- The difference of 64 bits wraps around. -/
lemma toNat_sub_biasIntervals (ull : UInt64) (bias : Int32) :
    ((ull - biasIntervals bias).toNat : ℤ) = wallClock ull.toNat bias.toInt % 2 ^ 64 := by
  have hull : ull.toNat < 2 ^ 64 := ull.toNat_lt
  unfold wallClock
  rw [UInt64.toNat_sub, toNat_biasIntervals]
  omega

/-- The sum of 64 bits wraps around. -/
lemma toNat_add_biasIntervals (ull : UInt64) (bias : Int32) :
    ((ull + biasIntervals bias).toNat : ℤ) = wallClock ull.toNat (-bias.toInt) % 2 ^ 64 := by
  unfold wallClock
  rw [UInt64.toNat_add, toNat_biasIntervals, Int.neg_mul]
  omega

/-- A clock of 64 bits shows what is shown at its instant, and nothing out of range. -/
lemma fileTimeToSystemTime_iff {ull : UInt64} {t : ℤ} {st : SystemTime}
    (hull : (ull.toNat : ℤ) = t % 2 ^ 64) (hlo : -2 ^ 63 ≤ t) (hhi : t < 2 ^ 64) :
    env.fileTimeToSystemTime (.ofULONGLONG ull) = .ok st ↔ env.Shows t st := by
  have hticks := FileTime.ticks_ofULONGLONG ull
  constructor
  · intro hst
    have hlt : (FileTime.ofULONGLONG ull).ticks < 2 ^ 63 := (env.converts_iff _).1 ⟨st, hst⟩
    exact ⟨_, hst, by omega⟩
  · rintro ⟨ft, hst, rfl⟩
    have hlt : ft.ticks < 2 ^ 63 := (env.converts_iff ft).1 ⟨st, hst⟩
    have hft : FileTime.ofULONGLONG ull = ft := FileTime.ext_ticks (by omega)
    rw [hft]
    exact hst

lemma sub_biasIntervals_iff {ft : FileTime} {st : SystemTime} (hft : ft.ticks < 2 ^ 63)
    (bias : Int32) :
    env.fileTimeToSystemTime (.ofULONGLONG (ft.toULONGLONG - biasIntervals bias)) = .ok st ↔
      env.Shows (wallClock ft.ticks bias.toInt) st := by
  have hull : ft.toULONGLONG.toNat < 2 ^ 63 := hft
  have hlo := bias.le_toInt
  have hhi := bias.toInt_lt
  apply fileTimeToSystemTime_iff (toNat_sub_biasIntervals ft.toULONGLONG bias)
  · unfold wallClock TICKS_PER_MINUTE
    omega
  · unfold wallClock TICKS_PER_MINUTE
    omega

lemma add_biasIntervals_iff {ft : FileTime} {st : SystemTime} (hft : ft.ticks < 2 ^ 63)
    (bias : Int32) :
    env.fileTimeToSystemTime (.ofULONGLONG (ft.toULONGLONG + biasIntervals bias)) = .ok st ↔
      env.Shows (wallClock ft.ticks (-bias.toInt)) st := by
  have hull : ft.toULONGLONG.toNat < 2 ^ 63 := hft
  have hlo := bias.le_toInt
  have hhi := bias.toInt_lt
  apply fileTimeToSystemTime_iff (toNat_add_biasIntervals ft.toULONGLONG bias)
  · unfold wallClock TICKS_PER_MINUTE
    omega
  · unfold wallClock TICKS_PER_MINUTE
    omega

/-! ## The conversion -/

/-- A computation succeeds if both of its parts do. -/
lemma bind_eq_ok {α β : Type} {x : Except ErrorCode α} {f : α → Except ErrorCode β} {b : β} :
    (x >>= f) = .ok b ↔ ∃ a, x = .ok a ∧ f a = .ok b := by
  cases x with
  | error e => exact iff_of_false (fun h => by cases h) (fun ⟨_, h, _⟩ => by cases h)
  | ok a => exact ⟨fun h => ⟨a, rfl, h⟩, fun ⟨_, ha, h⟩ => by rw [Except.ok.inj ha]; exact h⟩

/-- The bias that the code takes at a preliminary local time. -/
def effectiveBias (env : TimeEnvironment) (tz : TimeZoneInformation) (prelim : SystemTime) :
    Int32 :=
  tz.bias + if isDST env tz prelim then tz.daylightBias else tz.standardBias

/-- The conversion reads the preliminary clock and then the one of the bias it decided for. -/
theorem toLocalTime_iff {utc r : SystemTime} :
    systemTimeToTzSpecificLocalTime_compat env tz utc = .ok r ↔
      ∃ t prelim, env.IsAt utc t ∧ env.Shows (wallClock t tz.bias.toInt) prelim ∧
        if tz.NoRules then prelim = r
        else env.Shows (wallClock t (effectiveBias env tz prelim).toInt) r := by
  unfold systemTimeToTzSpecificLocalTime_compat
  constructor
  · intro h
    obtain ⟨ft, hft, h⟩ := bind_eq_ok.1 h
    obtain ⟨prelim, hprelim, h⟩ := bind_eq_ok.1 h
    have hlt := TimeEnvironment.ticks_lt hft
    refine ⟨ft.ticks, prelim, ⟨ft, hft, rfl⟩, (sub_biasIntervals_iff hlt _).1 hprelim, ?_⟩
    by_cases hrules : tz.NoRules
    · rw [if_pos hrules] at h ⊢
      exact Except.ok.inj h
    · rw [if_neg hrules] at h ⊢
      exact (sub_biasIntervals_iff hlt _).1 h
  · rintro ⟨_, prelim, ⟨ft, hft, rfl⟩, hprelim, h⟩
    have hlt := TimeEnvironment.ticks_lt hft
    refine bind_eq_ok.2 ⟨ft, hft, bind_eq_ok.2 ⟨prelim, ?_, ?_⟩⟩
    · exact (sub_biasIntervals_iff hlt _).2 hprelim
    by_cases hrules : tz.NoRules
    · rw [if_pos hrules] at h ⊢
      exact congrArg Except.ok h
    · rw [if_neg hrules] at h ⊢
      exact (sub_biasIntervals_iff hlt _).2 h

/-- A clock that is so many minutes behind UTC shows other times than the others. -/
lemma wallClock_inj {t a b : ℤ} {utc st : SystemTime} (ht : env.IsAt utc t)
    (ha : env.Shows (wallClock t a) st) (hb : env.Shows (wallClock t b) st) : a = b := by
  have hwhole := ht.milliseconds
  have hdiv := ha.div_eq hb rfl
  unfold wallClock TICKS_PER_MINUTE at hdiv
  omega

/-! ## The rules of the zone -/

/-- A rule for a transition in each year. -/
structure SystemTime.Recurring (rule : SystemTime) : Prop where
  year : rule.wYear = 0
  month : 1 ≤ rule.wMonth ∧ rule.wMonth ≤ 12
  day : 1 ≤ rule.wDay ∧ rule.wDay ≤ 5

/-- Daylight time is in effect from the moment when the clock `standard` reaches
`daylightDate` until the one when the clock `daylight` reaches `standardDate`, over the end of
the year if `daylightDate` is after `standardDate`. -/
def DaylightInEffect (daylightDate standardDate standard daylight : SystemTime) : Prop :=
  if standardDate.Before daylightDate then
    ¬standard.Before daylightDate ∨ daylight.Before standardDate
  else
    ¬standard.Before daylightDate ∧ daylight.Before standardDate

instance (daylightDate standardDate standard daylight : SystemTime) :
    Decidable (DaylightInEffect daylightDate standardDate standard daylight) := by
  unfold DaylightInEffect
  infer_instance

/-- Daylight time is in effect at a time of the preliminary clock, by the dates of the
transitions on that clock. -/
def DaylightBetween (daylightDate standardDate prelim : SystemTime) : Prop :=
  if daylightDate.Before standardDate then
    ¬prelim.Before daylightDate ∧ prelim.Before standardDate
  else
    ¬prelim.Before daylightDate ∨ prelim.Before standardDate

instance (daylightDate standardDate prelim : SystemTime) :
    Decidable (DaylightBetween daylightDate standardDate prelim) := by
  unfold DaylightBetween
  infer_instance

lemma isDST_eq (prelim : SystemTime) :
    isDST env tz prelim = true ↔
      DaylightBetween (computeTransitionDate env prelim.wYear tz.daylightDate)
        (computeTransitionDate env prelim.wYear tz.standardDate) prelim := by
  unfold isDST DaylightBetween
  dsimp only
  simp only [compareSystemTime_neg_iff, compareSystemTime_nonneg_iff]
  split
  · rw [Bool.and_eq_true, decide_eq_true_iff, decide_eq_true_iff]
  · rw [Bool.or_eq_true, decide_eq_true_iff, decide_eq_true_iff, or_comm]

/-- What the clocks of a zone show at a time that is given in UTC. -/
structure WallClocks (env : TimeEnvironment) (tz : TimeZoneInformation) (utc : SystemTime) where
  instant : ℤ
  isAt : env.IsAt utc instant
  /-- The clock that the base bias alone sets. -/
  prelim : SystemTime
  prelim_shown : env.Shows (wallClock instant tz.bias.toInt) prelim
  standard : SystemTime
  standard_shown :
    env.Shows (wallClock instant (tz.bias.toInt + tz.standardBias.toInt)) standard
  daylight : SystemTime
  daylight_shown :
    env.Shows (wallClock instant (tz.bias.toInt + tz.daylightBias.toInt)) daylight

namespace WallClocks

variable {utc : SystemTime} (c : WallClocks env tz utc)

/-- The transition to daylight time in the local year. -/
def daylightDate : SystemTime := computeTransitionDate env c.prelim.wYear tz.daylightDate

/-- The transition to standard time in the local year. -/
def standardDate : SystemTime := computeTransitionDate env c.prelim.wYear tz.standardDate

/-- Daylight time is in effect. -/
def InEffect : Prop := DaylightInEffect c.daylightDate c.standardDate c.standard c.daylight

instance : Decidable c.InEffect := by
  unfold InEffect
  infer_instance

/-- The local time. -/
def localTime : SystemTime := if c.InEffect then c.daylight else c.standard

/-- The bias in effect, in minutes. -/
def biasInEffect : ℤ :=
  tz.bias.toInt + if c.InEffect then tz.daylightBias.toInt else tz.standardBias.toInt

/-- The conversion to local time follows the rules of the zone. -/
def FollowsRules : Prop :=
  systemTimeToTzSpecificLocalTime_compat env tz utc = .ok c.localTime

/-- Daylight time would be in effect if both transitions were given for the preliminary clock,
and transitions at the same time were those of a period over the end of the year. -/
def PrelimInEffect : Prop :=
  if c.daylightDate.Before c.standardDate then
    ¬c.prelim.Before c.daylightDate ∧ c.prelim.Before c.standardDate
  else
    ¬c.prelim.Before c.daylightDate ∨ c.prelim.Before c.standardDate

instance : Decidable c.PrelimInEffect := by
  unfold PrelimInEffect
  infer_instance

lemma isDST_iff : isDST env tz c.prelim = true ↔ c.PrelimInEffect := isDST_eq c.prelim

lemma localTime_shown : env.Shows (wallClock c.instant c.biasInEffect) c.localTime := by
  unfold biasInEffect localTime
  by_cases h : c.InEffect
  · rw [if_pos h, if_pos h]
    exact c.daylight_shown
  · rw [if_neg h, if_neg h]
    exact c.standard_shown

/-- A zone with rules converts by the bias that the code decides for. -/
lemma followsRules_iff_bias (hrules : ¬tz.NoRules) :
    c.FollowsRules ↔ (effectiveBias env tz c.prelim).toInt = c.biasInEffect := by
  unfold FollowsRules
  rw [toLocalTime_iff]
  constructor
  · rintro ⟨t, prelim, ht, hprelim, hr⟩
    obtain rfl := ht.unique c.isAt
    obtain rfl := hprelim.unique c.prelim_shown
    rw [if_neg hrules] at hr
    exact wallClock_inj c.isAt hr c.localTime_shown
  · intro hbias
    refine ⟨c.instant, c.prelim, c.isAt, c.prelim_shown, ?_⟩
    rw [if_neg hrules, hbias]
    exact c.localTime_shown

end WallClocks

/-- A sum of two biases of 32 bits is the intended one if it is of the intended biases and
fits. -/
lemma toInt_add_eq_iff (a b c : Int32) :
    (a + b).toInt = a.toInt + c.toInt ↔
      b = c ∧ -2 ^ 31 ≤ a.toInt + c.toInt ∧ a.toInt + c.toInt < 2 ^ 31 := by
  have hb := b.le_toInt
  have hb' := b.toInt_lt
  have hc := c.le_toInt
  have hc' := c.toInt_lt
  rw [Int32.toInt_add, Int.bmod_def, ← Int32.toInt_inj]
  split <;> omega

/-- Two choices between the same values agree. -/
lemma choice_eq_iff {α : Type} {p q : Prop} [Decidable p] [Decidable q] (a b : α) :
    ((if p then a else b) = if q then a else b) ↔ a = b ∨ (p ↔ q) := by
  by_cases hp : p
  · by_cases hq : q
    · rw [if_pos hp, if_pos hq]
      exact iff_of_true rfl (Or.inr (iff_of_true hp hq))
    · rw [if_pos hp, if_neg hq, or_iff_left (fun h => hq (h.1 hp))]
  · by_cases hq : q
    · rw [if_neg hp, if_pos hq, or_iff_left (fun h => hp (h.2 hq))]
      exact eq_comm
    · rw [if_neg hp, if_neg hq]
      exact iff_of_true rfl (Or.inr (iff_of_false hp hq))

/-- The conversion to local time follows the rules if and only if the bias in effect fits an
`int` and the preliminary clock leads to the same decision, or to one with the same bias. -/
theorem followsRules_iff {utc : SystemTime} (hstandard : tz.standardDate.Recurring)
    (hdaylight : tz.daylightDate.Recurring) (c : WallClocks env tz utc) :
    c.FollowsRules ↔
      (-2 ^ 31 ≤ c.biasInEffect ∧ c.biasInEffect < 2 ^ 31) ∧
        (tz.daylightBias = tz.standardBias ∨ (c.PrelimInEffect ↔ c.InEffect)) := by
  have hrules : ¬tz.NoRules := by
    rintro (h | h)
    · exact absurd hstandard.month.1 (by omega)
    · exact absurd hdaylight.month.1 (by omega)
  have hbias : c.biasInEffect =
      tz.bias.toInt + (if c.InEffect then tz.daylightBias else tz.standardBias).toInt := by
    unfold WallClocks.biasInEffect
    split <;> rfl
  rw [c.followsRules_iff_bias hrules, ← c.isDST_iff, hbias]
  unfold effectiveBias
  rw [toInt_add_eq_iff, choice_eq_iff]
  exact and_comm

/-! ## A zone of Central Europe -/

/-- One hour ahead of UTC, and two from the last Sunday of March at 2:00 to the last one of
October at 3:00. -/
def centralEurope : TimeZoneInformation where
  bias := -60
  standardDate := ⟨0, 10, 0, 5, 3, 0, 0, 0⟩
  standardBias := 0
  daylightDate := ⟨0, 3, 0, 5, 2, 0, 0, 0⟩
  daylightBias := -60

lemma centralEurope_recurring :
    centralEurope.standardDate.Recurring ∧ centralEurope.daylightDate.Recurring :=
  ⟨⟨by decide, by decide, by decide⟩, ⟨by decide, by decide, by decide⟩⟩

/-- The clocks on the first of July 2024, at 12:00 UTC. -/
def julyClocks : WallClocks gregorianEnvironment centralEurope ⟨2024, 7, 1, 1, 12, 0, 0, 0⟩ where
  instant := 133643088000000000
  isAt := ⟨.ofULONGLONG 133643088000000000, by decide +kernel, by decide +kernel⟩
  prelim := ⟨2024, 7, 1, 1, 13, 0, 0, 0⟩
  prelim_shown := ⟨.ofULONGLONG 133643124000000000, by decide +kernel, by decide +kernel⟩
  standard := ⟨2024, 7, 1, 1, 13, 0, 0, 0⟩
  standard_shown := ⟨.ofULONGLONG 133643124000000000, by decide +kernel, by decide +kernel⟩
  daylight := ⟨2024, 7, 1, 1, 14, 0, 0, 0⟩
  daylight_shown := ⟨.ofULONGLONG 133643160000000000, by decide +kernel, by decide +kernel⟩

theorem july_followsRules : julyClocks.FollowsRules :=
  (followsRules_iff centralEurope_recurring.1 centralEurope_recurring.2 julyClocks).2
    (by decide +kernel)

/-- The clocks on the 27th of October 2024, at 1:30 UTC: half an hour ago the daylight clock
reached 3:00, and standard time began. -/
def octoberClocks :
    WallClocks gregorianEnvironment centralEurope ⟨2024, 10, 0, 27, 1, 30, 0, 0⟩ where
  instant := 133744662000000000
  isAt := ⟨.ofULONGLONG 133744662000000000, by decide +kernel, by decide +kernel⟩
  prelim := ⟨2024, 10, 0, 27, 2, 30, 0, 0⟩
  prelim_shown := ⟨.ofULONGLONG 133744698000000000, by decide +kernel, by decide +kernel⟩
  standard := ⟨2024, 10, 0, 27, 2, 30, 0, 0⟩
  standard_shown := ⟨.ofULONGLONG 133744698000000000, by decide +kernel, by decide +kernel⟩
  daylight := ⟨2024, 10, 0, 27, 3, 30, 0, 0⟩
  daylight_shown := ⟨.ofULONGLONG 133744734000000000, by decide +kernel, by decide +kernel⟩

/-- Half an hour after the end of daylight time, daylight time is still converted to. -/
theorem october_not_followsRules :
    (centralEurope.standardDate.Recurring ∧ centralEurope.daylightDate.Recurring) ∧
      ¬octoberClocks.FollowsRules := by
  refine ⟨centralEurope_recurring, ?_⟩
  unfold WallClocks.FollowsRules
  decide +kernel

end TzApi
end ClamavWin32
