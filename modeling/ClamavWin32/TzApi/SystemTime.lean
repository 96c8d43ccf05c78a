import ClamavWin32.Semantics.GregorianCalendar
import ClamavWin32.Win32

/-!
# The times of the Windows API

`SYSTEMTIME`, `FILETIME` and the two functions that convert them into each other.

* `FileTime.ticks`: a `FILETIME` as the number of its intervals of 100 nanoseconds;
* `TimeEnvironment`: the conversions, with what is documented of them, and the memory behind
  the code's own tables;
* `TimeEnvironment.IsAt` and `TimeEnvironment.Shows`: the instant of a `SYSTEMTIME`, and what
  a clock shows at an instant.
-/

namespace ClamavWin32
namespace TzApi

/-! ## `SYSTEMTIME` -/

/-- A `SYSTEMTIME`; the fields of the code are of the type `WORD`. -/
structure SystemTime where
  wYear : ℕ
  wMonth : ℕ
  wDayOfWeek : ℕ
  wDay : ℕ
  wHour : ℕ
  wMinute : ℕ
  wSecond : ℕ
  wMilliseconds : ℕ
  deriving DecidableEq, Repr

/-- The fields from the year on, without the day of the week. -/
def SystemTime.fields (st : SystemTime) : List ℕ :=
  [st.wYear, st.wMonth, st.wDay, st.wHour, st.wMinute, st.wSecond, st.wMilliseconds]

/-- The first field that differs is the smaller one. -/
def SystemTime.Before (a b : SystemTime) : Prop := a.fields < b.fields

instance (a b : SystemTime) : Decidable (a.Before b) :=
  inferInstanceAs (Decidable (a.fields < b.fields))

/-- Equal but for the day of the week. -/
def SystemTime.SameFields (a b : SystemTime) : Prop := a.fields = b.fields

instance (a b : SystemTime) : Decidable (a.SameFields b) :=
  inferInstanceAs (Decidable (a.fields = b.fields))

/-- A time that `SystemTimeToFileTime` takes. -/
structure SystemTime.Valid (st : SystemTime) : Prop where
  year : 1601 ≤ st.wYear ∧ st.wYear ≤ 30827
  month : 1 ≤ st.wMonth ∧ st.wMonth ≤ 12
  day : 1 ≤ st.wDay ∧ st.wDay ≤ Gregorian.monthLength st.wYear st.wMonth
  hour : st.wHour < 24
  minute : st.wMinute < 60
  second : st.wSecond < 60
  milliseconds : st.wMilliseconds < 1000

lemma SystemTime.valid_iff (st : SystemTime) :
    st.Valid ↔ (1601 ≤ st.wYear ∧ st.wYear ≤ 30827) ∧ (1 ≤ st.wMonth ∧ st.wMonth ≤ 12) ∧
      (1 ≤ st.wDay ∧ st.wDay ≤ Gregorian.monthLength st.wYear st.wMonth) ∧
      st.wHour < 24 ∧ st.wMinute < 60 ∧ st.wSecond < 60 ∧ st.wMilliseconds < 1000 :=
  ⟨fun ⟨hyear, hmonth, hday, hh, hm, hs, hms⟩ => ⟨hyear, hmonth, hday, hh, hm, hs, hms⟩,
    fun ⟨hyear, hmonth, hday, hh, hm, hs, hms⟩ => ⟨hyear, hmonth, hday, hh, hm, hs, hms⟩⟩

instance (st : SystemTime) : Decidable st.Valid := decidable_of_iff _ st.valid_iff.symm

namespace SystemTime

lemma SameFields.symm {a b : SystemTime} (h : a.SameFields b) : b.SameFields a := Eq.symm h

lemma SameFields.trans {a b c : SystemTime} (hab : a.SameFields b) (hbc : b.SameFields c) :
    a.SameFields c :=
  Eq.trans hab hbc

lemma SameFields.not_before {a b : SystemTime} (h : a.SameFields b) : ¬a.Before b := by
  unfold Before
  rw [h]
  exact List.lt_irrefl b.fields

end SystemTime

/-! ## `FILETIME` -/

structure FileTime where
  dwLowDateTime : UInt32
  dwHighDateTime : UInt32
  deriving DecidableEq, Repr

namespace FileTime

/-- `((ULONGLONG) ft.dwHighDateTime << 32) | ft.dwLowDateTime` -/
def toULONGLONG (ft : FileTime) : UInt64 :=
  (ft.dwHighDateTime.toUInt64 <<< 32) ||| ft.dwLowDateTime.toUInt64

/-- The low and the high half of a `ULONGLONG`. -/
def ofULONGLONG (ull : UInt64) : FileTime where
  dwLowDateTime := (ull &&& 0xFFFFFFFF).toUInt32
  dwHighDateTime := (ull >>> 32).toUInt32

/-- The number of intervals of 100 nanoseconds since the beginning of the year 1601. -/
def ticks (ft : FileTime) : ℕ := ft.toULONGLONG.toNat

lemma ticks_eq (ft : FileTime) :
    ft.ticks = ft.dwHighDateTime.toNat * 2 ^ 32 + ft.dwLowDateTime.toNat := by
  have hhigh : ft.dwHighDateTime.toNat < 2 ^ 32 := ft.dwHighDateTime.toNat_lt
  have hlow : ft.dwLowDateTime.toNat < 2 ^ 32 := ft.dwLowDateTime.toNat_lt
  have hshift : ft.dwHighDateTime.toNat <<< 32 % 2 ^ 64 = ft.dwHighDateTime.toNat <<< 32 := by
    rw [Nat.shiftLeft_eq]
    omega
  unfold ticks toULONGLONG
  rw [UInt64.toNat_or, UInt64.toNat_shiftLeft, UInt32.toNat_toUInt64, UInt32.toNat_toUInt64]
  show ft.dwHighDateTime.toNat <<< 32 % 2 ^ 64 ||| ft.dwLowDateTime.toNat = _
  rw [hshift, ← Nat.shiftLeft_add_eq_or_of_lt hlow, Nat.shiftLeft_eq]

/-- A number that is split is put together again. -/
lemma ticks_ofULONGLONG (ull : UInt64) : (ofULONGLONG ull).ticks = ull.toNat := by
  have hlt : ull.toNat < 2 ^ 64 := ull.toNat_lt
  have hmask : ull.toNat &&& 0xFFFFFFFF = ull.toNat % 2 ^ 32 :=
    Nat.and_two_pow_sub_one_eq_mod ull.toNat 32
  rw [ticks_eq]
  unfold ofULONGLONG
  rw [UInt64.toNat_toUInt32, UInt64.toNat_toUInt32, UInt64.toNat_shiftRight, UInt64.toNat_and]
  show ull.toNat >>> 32 % 2 ^ 32 * 2 ^ 32 + (ull.toNat &&& 0xFFFFFFFF) % 2 ^ 32 = ull.toNat
  rw [hmask, Nat.shiftRight_eq_div_pow]
  omega

lemma ext_ticks {ft ft' : FileTime} (h : ft.ticks = ft'.ticks) : ft = ft' := by
  have hlow := ft.dwLowDateTime.toNat_lt
  have hlow' := ft'.dwLowDateTime.toNat_lt
  rw [ticks_eq, ticks_eq] at h
  obtain ⟨low, high⟩ := ft
  obtain ⟨low', high'⟩ := ft'
  have hl : low = low' := UInt32.toNat_inj.1 (by dsimp only at *; omega)
  have hh : high = high' := UInt32.toNat_inj.1 (by dsimp only at *; omega)
  rw [hl, hh]

end FileTime

end TzApi
end ClamavWin32
