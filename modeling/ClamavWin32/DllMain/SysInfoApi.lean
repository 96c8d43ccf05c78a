import ClamavWin32.TzApi.SystemTime

/-!
# The precise clock

`init_sysinfoapi` and `GetSystemTimePreciseAsFileTime_compat` of `src/dllmain/sysinfoapi.c`.

The system's clock is read once, together with the performance counter; from then on the time
is that of the first reading, and the ticks of the counter since then. What the system answers
is an argument here. A `LONGLONG` is an `Int64`, and the code's conversions to `ULONGLONG` are
those of `Int64.toUInt64`.
-/

namespace ClamavWin32
namespace SysInfoApi

open TzApi (FileTime)

/-- A reading of the performance counter, which counts up from 0. -/
abbrev Counter := {q : Int64 // 0 ≤ q}

/-- The ticks of the performance counter in one second. -/
abbrev Frequency := {f : Int64 // 0 < f}

/-- The static variables with the baseline. -/
structure Statics where
  qpcBase : Int64
  ftBase : FileTime
  qpcFrequency : Int64
  deriving DecidableEq, Repr

/-- `init_sysinfoapi`, with what the three functions of the system store. -/
def init_sysinfoapi (qpcFrequency : Frequency) (qpcBase : Counter) (ftBase : FileTime) :
    Statics where
  qpcBase := qpcBase.val
  ftBase := ftBase
  qpcFrequency := qpcFrequency.val

/-- `GetSystemTimePreciseAsFileTime_compat`, when the counter reads `qpcNow`. -/
def getSystemTimePreciseAsFileTime_compat (s : Statics) (qpcNow : Counter) : FileTime :=
  let ticksElapsed : Int64 := qpcNow.val - s.qpcBase
  -- the factor is unsigned, and so are the product and the quotient
  let timeOffset : UInt64 := ticksElapsed.toUInt64 * 10000000 / s.qpcFrequency.toUInt64
  let baseTime := s.ftBase.toULONGLONG
  let preciseTime := baseTime + timeOffset
  FileTime.ofULONGLONG preciseTime

end SysInfoApi
end ClamavWin32
