import ClamavWin32.TzApi.SystemTime

/-!
# The environment of the time zone functions

* `TimeEnvironment`: the conversions between `SYSTEMTIME` and `FILETIME`, with what is
  documented of them, and the memory behind the tables of the code;
* `TimeEnvironment.IsAt` and `TimeEnvironment.Shows`: the instant that a `SYSTEMTIME` stands
  for, and what a clock shows at an instant.

Instants are numbers of ticks, of 100 nanoseconds each.
-/

namespace ClamavWin32
namespace TzApi

structure TimeEnvironment where
  systemTimeToFileTime : SystemTime → Except ErrorCode FileTime
  fileTimeToSystemTime : FileTime → Except ErrorCode SystemTime
  /-- What is read from behind the table `days`, at an index over 11. -/
  behindDays : ℕ → ℤ
  /-- What is read from behind the table `t`, at an index over 11. -/
  behindT : ℕ → ℤ
  accepts_iff (st : SystemTime) : (∃ ft, systemTimeToFileTime st = .ok ft) ↔ st.Valid
  ignores_wDayOfWeek {st st' : SystemTime} (h : st.SameFields st') :
    systemTimeToFileTime st = systemTimeToFileTime st'
  /-- A `FILETIME` is a number of whole milliseconds if it was made from a `SYSTEMTIME`. -/
  whole_milliseconds {st : SystemTime} {ft : FileTime} (h : systemTimeToFileTime st = .ok ft) :
    ft.ticks % 10000 = 0
  /-- A `FILETIME` has to be less than `0x8000000000000000`. -/
  converts_iff (ft : FileTime) :
    (∃ st, fileTimeToSystemTime ft = .ok st) ↔ ft.ticks < 2 ^ 63
  converts_back {st : SystemTime} {ft : FileTime} (h : systemTimeToFileTime st = .ok ft) :
    ∃ st', fileTimeToSystemTime ft = .ok st' ∧ st.SameFields st'
  /-- A later millisecond is shown as a later time. -/
  increasing {ft ft' : FileTime} {st st' : SystemTime} (h : fileTimeToSystemTime ft = .ok st)
    (h' : fileTimeToSystemTime ft' = .ok st') (hlt : ft.ticks / 10000 < ft'.ticks / 10000) :
    st.Before st'

namespace TimeEnvironment

variable {env : TimeEnvironment} {st st' : SystemTime} {t t' : ℤ}

/-- The `SYSTEMTIME` stands for the instant. -/
def IsAt (env : TimeEnvironment) (st : SystemTime) (t : ℤ) : Prop :=
  ∃ ft, env.systemTimeToFileTime st = .ok ft ∧ (ft.ticks : ℤ) = t

/-- At the instant, a clock that shows `SYSTEMTIME`s shows this one. -/
def Shows (env : TimeEnvironment) (t : ℤ) (st : SystemTime) : Prop :=
  ∃ ft, env.fileTimeToSystemTime ft = .ok st ∧ (ft.ticks : ℤ) = t

/-! ## What a clock shows -/

/-- A clock shows something at every instant that a signed number of 64 bits holds. -/
lemma exists_shows_iff (env : TimeEnvironment) (t : ℤ) :
    (∃ st, env.Shows t st) ↔ 0 ≤ t ∧ t < 2 ^ 63 := by
  constructor
  · rintro ⟨st, ft, hst, hticks⟩
    have hlt : ft.ticks < 2 ^ 63 := (env.converts_iff ft).1 ⟨st, hst⟩
    omega
  · intro ⟨hlo, hhi⟩
    have hticks : (FileTime.ofULONGLONG (UInt64.ofNat t.toNat)).ticks = t.toNat := by
      rw [FileTime.ticks_ofULONGLONG, UInt64.toNat_ofNat']
      omega
    obtain ⟨st, hst⟩ := (env.converts_iff _).2 (lt_of_eq_of_lt hticks (by omega))
    exact ⟨st, _, hst, by omega⟩

lemma Shows.unique (h : env.Shows t st) (h' : env.Shows t st') : st = st' := by
  obtain ⟨ft, hst, hticks⟩ := h
  obtain ⟨ft', hst', hticks'⟩ := h'
  have hft : ft = ft' := FileTime.ext_ticks (by omega)
  rw [hft, hst'] at hst
  exact (Except.ok.inj hst).symm

/-- Different milliseconds are shown as different times. -/
lemma Shows.div_eq (h : env.Shows t st) (h' : env.Shows t' st') (hsame : st.SameFields st') :
    t / 10000 = t' / 10000 := by
  obtain ⟨ft, hst, hticks⟩ := h
  obtain ⟨ft', hst', hticks'⟩ := h'
  by_contra hne
  rcases Nat.lt_or_gt_of_ne (show ft.ticks / 10000 ≠ ft'.ticks / 10000 by omega) with hlt | hgt
  · exact hsame.not_before (env.increasing hst hst' hlt)
  · exact hsame.symm.not_before (env.increasing hst' hst hgt)

/-! ## The instant of a time -/

lemma ticks_lt {ft : FileTime} (h : env.systemTimeToFileTime st = .ok ft) :
    ft.ticks < 2 ^ 63 := by
  obtain ⟨st', hst', -⟩ := env.converts_back h
  exact (env.converts_iff ft).1 ⟨st', hst'⟩

lemma isAt_iff_valid : (∃ t, env.IsAt st t) ↔ st.Valid := by
  rw [← env.accepts_iff]
  exact ⟨fun ⟨_, ft, hft, _⟩ => ⟨ft, hft⟩, fun ⟨ft, hft⟩ => ⟨ft.ticks, ft, hft, rfl⟩⟩

lemma IsAt.unique (h : env.IsAt st t) (h' : env.IsAt st t') : t = t' := by
  obtain ⟨ft, hft, rfl⟩ := h
  obtain ⟨ft', hft', rfl⟩ := h'
  rw [hft] at hft'
  rw [Except.ok.inj hft']

lemma IsAt.milliseconds (h : env.IsAt st t) : t % 10000 = 0 := by
  obtain ⟨ft, hft, rfl⟩ := h
  have hwhole := env.whole_milliseconds hft
  omega

lemma IsAt.congr (h : env.IsAt st t) (hsame : st.SameFields st') : env.IsAt st' t := by
  obtain ⟨ft, hft, hticks⟩ := h
  rw [env.ignores_wDayOfWeek hsame] at hft
  exact ⟨ft, hft, hticks⟩

lemma IsAt.shows (h : env.IsAt st t) : ∃ st', env.Shows t st' ∧ st.SameFields st' := by
  obtain ⟨ft, hft, hticks⟩ := h
  obtain ⟨st', hst', hsame⟩ := env.converts_back hft
  exact ⟨st', ⟨ft, hst', hticks⟩, hsame⟩

/-- What is shown at a whole millisecond stands for that instant, if it stands for any. -/
lemma IsAt.eq_of_shows (h : env.IsAt st t) (hshows : env.Shows t' st) (ht' : t' % 10000 = 0) :
    t = t' := by
  have hwhole := h.milliseconds
  obtain ⟨st', hst', hsame⟩ := h.shows
  have hdiv := hshows.div_eq hst' hsame
  omega

end TimeEnvironment

end TzApi
end ClamavWin32
