import ClamavWin32.TzApi.TzApi

/-!
# The time zone information of a year

`GetTimeZoneInformationForYear` of `src/legacy/shared/tzapi.c`.

* `NamedTimeZone` and `DynamicTimeZoneInformation`: a zone with its names;
* `dynamicZone`: the zone that the caller gives, or the current one;
* `getTimeZoneInformationForYear`: the zone, with the dates of one year for its rules.
-/

namespace ClamavWin32
namespace TzApi

/-- A `TIME_ZONE_INFORMATION` with the names. -/
structure NamedTimeZone extends TimeZoneInformation where
  standardName : List UInt16
  daylightName : List UInt16
  deriving DecidableEq

structure DynamicTimeZoneInformation extends NamedTimeZone where
  timeZoneKeyName : List UInt16
  dynamicDaylightTimeDisabled : Bool
  deriving DecidableEq

/-- The zone that `pDTZI` points to. The current one is an answer of
`GetTimeZoneInformation`. -/
def dynamicZone (current : Except ErrorCode NamedTimeZone)
    (pdtzi : Option DynamicTimeZoneInformation) : Except ErrorCode DynamicTimeZoneInformation :=
  match pdtzi with
  | some dtzi => .ok dtzi
  | none => do
    let tzi ← current
    .ok { toNamedTimeZone := tzi, timeZoneKeyName := [0], dynamicDaylightTimeDisabled := false }

/-- `GetTimeZoneInformationForYear`, which overwrites what `ptzi` points to. -/
def getTimeZoneInformationForYear (env : TimeEnvironment)
    (current : Except ErrorCode NamedTimeZone) (wYear : ℕ)
    (pdtzi : Option DynamicTimeZoneInformation) (ptzi : Option NamedTimeZone) :
    Except ErrorCode NamedTimeZone :=
  match ptzi with
  | none => .error ERROR_INVALID_PARAMETER
  | some _ => do
    let dtzi ← dynamicZone current pdtzi
    .ok {
      bias := dtzi.bias
      standardBias := dtzi.standardBias
      daylightBias := dtzi.daylightBias
      standardName := dtzi.standardName
      daylightName := dtzi.daylightName
      standardDate := computeTransitionDate env wYear dtzi.standardDate
      daylightDate := computeTransitionDate env wYear dtzi.daylightDate }

end TzApi
end ClamavWin32
