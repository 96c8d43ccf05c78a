import ClamavWin32.DllMain.SysInfoApi

/-!
# When the precise clock is right

* `Clock.time`: the time that the clock should show, as a number;
* `Clock.InRange`: neither the product nor the sum of the computation leaves 64 bits;
* `ticks_preciseTime`: what the clock shows, with both reduced modulo `2 ^ 64`;
* `preciseClock_iff`: the clock is exact, and does not run backwards, as long as it is in range.
-/

namespace ClamavWin32
namespace SysInfoApi

open TzApi (FileTime)

/-! ## The clock as it is meant -/

/-- The frequency of the counter, and one of its readings with the time of that reading. -/
structure Clock where
  qpcFrequency : Frequency
  qpcBase : Counter
  ftBase : FileTime

def Counter.toNat (q : Counter) : ℕ := q.val.toNatClampNeg

def Frequency.toNat (f : Frequency) : ℕ := f.val.toNatClampNeg

lemma Frequency.toNat_pos (f : Frequency) : 0 < f.toNat := by
  rw [Frequency.toNat, Int64.toNatClampNeg_pos_iff]
  exact f.property

lemma Counter.toNat_mono {q q' : Counter} (h : q ≤ q') : q.toNat ≤ q'.toNat :=
  Int64.toNatClampNeg_le h

namespace Clock

variable (c : Clock)

/-- The ticks of the counter since the baseline, each of them `10 ^ 7` intervals over the
frequency. -/
def scaled (q : Counter) : ℕ := (q.toNat - c.qpcBase.toNat) * 10 ^ 7

/-- The time at a reading, in intervals of 100 nanoseconds. -/
def time (q : Counter) : ℕ := c.ftBase.ticks + c.scaled q / c.qpcFrequency.toNat

/-- The clock as `GetSystemTimePreciseAsFileTime_compat` shows it. -/
def preciseTime (q : Counter) : FileTime :=
  getSystemTimePreciseAsFileTime_compat
    (init_sysinfoapi c.qpcFrequency c.qpcBase c.ftBase) q

/-- The ticks can be scaled within 64 bits, and the time is one that fits a `FILETIME`. -/
def InRange (q : Counter) : Prop := c.scaled q < 2 ^ 64 ∧ c.time q < 2 ^ 64

instance (q : Counter) : Decidable (c.InRange q) := inferInstanceAs (Decidable (_ ∧ _))

variable {c} {q q' : Counter}

lemma scaled_mono (h : q ≤ q') : c.scaled q ≤ c.scaled q' := by
  have hmono := Counter.toNat_mono h
  apply Nat.mul_le_mul_right
  omega

/-- Time does not run backwards. -/
lemma time_mono (h : q ≤ q') : c.time q ≤ c.time q' := by
  apply Nat.add_le_add_left
  exact Nat.div_le_div_right (scaled_mono h)

lemma InRange.of_le (h : c.InRange q') (hle : q ≤ q') : c.InRange q :=
  ⟨(scaled_mono hle).trans_lt h.1, (time_mono hle).trans_lt h.2⟩

/-! ## The clock as it is computed -/

/-- The difference of two readings, as the code converts it. -/
lemma toNat_ticksElapsed {base : Counter} (h : base ≤ q) :
    (q.val - base.val).toUInt64.toNat = q.toNat - base.toNat := by
  have hle : base.val.toUInt64 ≤ q.val.toUInt64 := Int64.toUInt64_le base.property h
  rw [Int64.toUInt64_sub, UInt64.toNat_sub_of_le _ _ hle,
    Int64.toNat_toUInt64_of_le q.property, Int64.toNat_toUInt64_of_le base.property]
  rfl

lemma toNat_qpcFrequency (f : Frequency) : f.val.toUInt64.toNat = f.toNat :=
  Int64.toNat_toUInt64_of_le (Int64.le_of_lt f.property)

/-- **What the clock shows**: both the product and the sum are reduced modulo `2 ^ 64`. -/
lemma ticks_preciseTime (h : c.qpcBase ≤ q) :
    (c.preciseTime q).ticks =
      (c.ftBase.ticks + c.scaled q % 2 ^ 64 / c.qpcFrequency.toNat) % 2 ^ 64 := by
  unfold preciseTime getSystemTimePreciseAsFileTime_compat
  rw [FileTime.ticks_ofULONGLONG, UInt64.toNat_add, UInt64.toNat_div, UInt64.toNat_mul]
  show (c.ftBase.ticks + (q.val - c.qpcBase.val).toUInt64.toNat * 10 ^ 7 % 2 ^ 64 /
    c.qpcFrequency.val.toUInt64.toNat) % 2 ^ 64 = _
  rw [toNat_ticksElapsed h, toNat_qpcFrequency]
  rfl

/-- A number that is reduced has a smaller quotient than before. -/
lemma mod_div_lt {n m f : ℕ} (hf : 0 < f) (hfm : f ≤ m) (hmn : m ≤ n) :
    n % m / f < n / f := by
  have hsub : n % m ≤ n - m := by
    rw [Nat.mod_eq_sub_mod hmn]
    exact Nat.mod_le _ _
  calc n % m / f ≤ (n - f) / f := Nat.div_le_div_right (by omega)
    _ < (n - f) / f + 1 := Nat.lt_succ_self _
    _ = n / f := (Nat.div_eq_sub_div hf (hfm.trans hmn)).symm

lemma toNat_qpcFrequency_lt (f : Frequency) : f.toNat < 2 ^ 64 := by
  rw [← toNat_qpcFrequency]
  exact f.val.toUInt64.toNat_lt

/-- The clock is exact just where it is in range. -/
lemma ticks_eq_time_iff (h : c.qpcBase ≤ q) :
    (c.preciseTime q).ticks = c.time q ↔ c.InRange q := by
  rw [ticks_preciseTime h]
  constructor
  · intro heq
    have htime : c.time q < 2 ^ 64 := heq ▸ Nat.mod_lt _ (by decide)
    refine ⟨?_, htime⟩
    by_contra hscaled
    -- the quotient is too small, and nothing makes up for it
    have hlt := mod_div_lt c.qpcFrequency.toNat_pos (toNat_qpcFrequency_lt _).le
      (not_lt.mp hscaled)
    unfold time at heq htime
    rw [Nat.mod_eq_of_lt (by omega)] at heq
    omega
  · intro hrange
    rw [Nat.mod_eq_of_lt hrange.1]
    exact Nat.mod_eq_of_lt hrange.2

end Clock

/-- **The precise clock** is exact at two readings, and does not run backwards between them,
if and only if it is in range at the later one. -/
theorem preciseClock_iff (c : Clock) (q q' : Counter) (hq : c.qpcBase ≤ q) (hle : q ≤ q') :
    ((c.preciseTime q).ticks = c.time q ∧ (c.preciseTime q').ticks = c.time q' ∧
      (c.preciseTime q).ticks ≤ (c.preciseTime q').ticks) ↔ c.InRange q' := by
  have hq' : c.qpcBase ≤ q' := Int64.le_trans hq hle
  rw [Clock.ticks_eq_time_iff hq, Clock.ticks_eq_time_iff hq']
  constructor
  · intro h
    exact h.2.1
  · intro h
    refine ⟨h.of_le hle, h, ?_⟩
    rw [(Clock.ticks_eq_time_iff hq).mpr (h.of_le hle), (Clock.ticks_eq_time_iff hq').mpr h]
    exact Clock.time_mono hle

/-- A counter of 10 MHz, at 0 when the clock is set. -/
def tenMegahertz : Clock where
  qpcFrequency := ⟨10000000, by decide⟩
  qpcBase := ⟨0, by decide⟩
  ftBase := ⟨0, 0x01DB0000⟩

/-- One second. -/
theorem preciseClock_second :
    (tenMegahertz.preciseTime ⟨10000000, by decide⟩).ticks =
      tenMegahertz.time ⟨10000000, by decide⟩ :=
  ((preciseClock_iff tenMegahertz ⟨0, by decide⟩ ⟨10000000, by decide⟩
    (Int64.le_iff_toInt_le.mpr (by decide)) (Int64.le_iff_toInt_le.mpr (by decide))).mpr
    (by decide)).2.1

/-- After 51 hours, from one tick to the next, the clock goes back to its baseline. -/
theorem preciseClock_backwards :
    (tenMegahertz.preciseTime ⟨1844674407371, by decide⟩).ticks ≠
      tenMegahertz.time ⟨1844674407371, by decide⟩ ∧
    (tenMegahertz.preciseTime ⟨1844674407371, by decide⟩).ticks = tenMegahertz.ftBase.ticks ∧
    tenMegahertz.ftBase.ticks < (tenMegahertz.preciseTime ⟨1844674407370, by decide⟩).ticks := by
  decide

end SysInfoApi
end ClamavWin32
