import ClamavWin32.TzApi.TimeEnvironment

/-!
# Conversions between UTC and local time

The functions of `src/legacy/shared/tzapi.c`.

* `computeTransitionDate`: the date of a recurring rule in a year;
* `compareSystemTime`: the order of two times;
* `systemTimeToTzSpecificLocalTime_compat`: from UTC to local time;
* `tzSpecificLocalTimeToSystemTime_compat`: from local time to UTC.

A function that returns `TRUE` and a time, or `FALSE` and a last error, is an `Except` here.
The type `LONG` of the biases is `Int32`, and their sums wrap around.
-/

namespace ClamavWin32
namespace TzApi

/-- A `TIME_ZONE_INFORMATION` without the names. -/
structure TimeZoneInformation where
  bias : Int32
  standardDate : SystemTime
  standardBias : Int32
  daylightDate : SystemTime
  daylightBias : Int32
  deriving DecidableEq

/-- The zone has no daylight saving time. -/
def TimeZoneInformation.NoRules (tz : TimeZoneInformation) : Prop :=
  tz.standardDate.wMonth = 0 ∨ tz.daylightDate.wMonth = 0

instance (tz : TimeZoneInformation) : Decidable tz.NoRules := by
  unfold TimeZoneInformation.NoRules
  infer_instance

/-- The cast `(WORD) x`. -/
def word (x : ℤ) : ℕ := (x % 2 ^ 16).toNat

variable (env : TimeEnvironment)

/-! ## Transitions -/

def daysTable : List ℤ := [31, 28, 31, 30, 31, 30, 31, 31, 30, 31, 30, 31]

/-- `DaysInMonth` -/
def daysInMonth (year : ℤ) (month : ℕ) : ℤ :=
  let d := daysTable.getD (month - 1) (env.behindDays (month - 1))
  if month = 2 ∧ (year.tmod 4 = 0 ∧ year.tmod 100 ≠ 0 ∨ year.tmod 400 = 0) then 29 else d

def tTable : List ℤ := [0, 3, 2, 5, 0, 3, 5, 1, 4, 6, 2, 4]

def day_of_week (year : ℤ) (month : ℕ) (day : ℤ) : ℤ :=
  let year := if month < 3 then year - 1 else year
  (year + year.tdiv 4 - year.tdiv 100 + year.tdiv 400 +
    tTable.getD (month - 1) (env.behindT (month - 1)) + day).tmod 7

/-- The day of the month that `ComputeTransitionDate` stores for a rule with a month. -/
def transitionDay (wYear : ℕ) (rule : SystemTime) : ℕ :=
  let dim := daysInMonth env wYear rule.wMonth
  if rule.wDay < 5 then
    let firstDow := day_of_week env wYear rule.wMonth 1
    let day := 1 + (rule.wDayOfWeek - firstDow + 7).tmod 7 + ((rule.wDay : ℤ) - 1) * 7
    word (if day > dim then day - 7 else day)
  else
    let lastDow := day_of_week env wYear rule.wMonth dim
    word (dim - (lastDow - rule.wDayOfWeek + 7).tmod 7)

/-- `ComputeTransitionDate` -/
def computeTransitionDate (wYear : ℕ) (rule : SystemTime) : SystemTime where
  wYear := wYear
  wMonth := rule.wMonth
  wDayOfWeek := if rule.wMonth = 0 then 0 else rule.wDayOfWeek
  wDay := if rule.wMonth = 0 then 0 else transitionDay env wYear rule
  wHour := rule.wHour
  wMinute := rule.wMinute
  wSecond := rule.wSecond
  wMilliseconds := rule.wMilliseconds

/-- `CompareSystemTime` -/
def compareSystemTime (a b : SystemTime) : ℤ :=
  if a.wYear ≠ b.wYear then a.wYear - b.wYear
  else if a.wMonth ≠ b.wMonth then a.wMonth - b.wMonth
  else if a.wDay ≠ b.wDay then a.wDay - b.wDay
  else if a.wHour ≠ b.wHour then a.wHour - b.wHour
  else if a.wMinute ≠ b.wMinute then a.wMinute - b.wMinute
  else if a.wSecond ≠ b.wSecond then a.wSecond - b.wSecond
  else a.wMilliseconds - b.wMilliseconds

/-! ## Conversions -/

/-- `(ULONGLONG) bias * 600000000ULL` -/
def biasIntervals (bias : Int32) : UInt64 := UInt64.ofInt bias.toInt * 600000000

/-- Whether daylight time is in effect at a preliminary local time. -/
def isDST (tz : TimeZoneInformation) (stPrelim : SystemTime) : Bool :=
  let stStandard := computeTransitionDate env stPrelim.wYear tz.standardDate
  let stDaylight := computeTransitionDate env stPrelim.wYear tz.daylightDate
  if compareSystemTime stDaylight stStandard < 0 then
    compareSystemTime stPrelim stDaylight ≥ 0 && compareSystemTime stPrelim stStandard < 0
  else
    compareSystemTime stPrelim stStandard < 0 || compareSystemTime stPrelim stDaylight ≥ 0

/-- `SystemTimeToTzSpecificLocalTime_compat` -/
def systemTimeToTzSpecificLocalTime_compat (tz : TimeZoneInformation)
    (universalTime : SystemTime) : Except ErrorCode SystemTime := do
  let ftUniversal ← env.systemTimeToFileTime universalTime
  let ullUniversal := ftUniversal.toULONGLONG
  let stPrelim ← env.fileTimeToSystemTime (.ofULONGLONG (ullUniversal - biasIntervals tz.bias))
  if tz.NoRules then
    .ok stPrelim
  else
    let effectiveBias :=
      tz.bias + if isDST env tz stPrelim then tz.daylightBias else tz.standardBias
    env.fileTimeToSystemTime (.ofULONGLONG (ullUniversal - biasIntervals effectiveBias))

/-- A candidate for the UTC time, with this bias in effect, and the local time that it
converts back to. -/
def convertCandidate (tz : TimeZoneInformation) (ullLocal : UInt64) (bias : Int32) :
    Except ErrorCode (SystemTime × SystemTime) := do
  let effectiveBias := tz.bias + bias
  let stCandidate ←
    env.fileTimeToSystemTime (.ofULONGLONG (ullLocal + biasIntervals effectiveBias))
  let stBackConverted ← systemTimeToTzSpecificLocalTime_compat env tz stCandidate
  .ok (stCandidate, stBackConverted)

/-- `TzSpecificLocalTimeToSystemTime_compat` -/
def tzSpecificLocalTimeToSystemTime_compat (tz : TimeZoneInformation) (localTime : SystemTime) :
    Except ErrorCode SystemTime := do
  let ftLocal ← env.systemTimeToFileTime localTime
  let (daylight, daylightBack) ← convertCandidate env tz ftLocal.toULONGLONG tz.daylightBias
  if compareSystemTime localTime daylightBack = 0 then
    .ok daylight
  else
    let (standard, standardBack) ← convertCandidate env tz ftLocal.toULONGLONG tz.standardBias
    if compareSystemTime localTime standardBack = 0 then
      .ok standard
    else
      .error ERROR_INVALID_PARAMETER

end TzApi
end ClamavWin32
