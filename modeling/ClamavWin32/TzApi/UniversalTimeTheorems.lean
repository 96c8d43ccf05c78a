import ClamavWin32.TzApi.LocalTimeTheorems

/-!
# Local time to UTC

What `tzSpecificLocalTimeToSystemTime_compat` finds, and when it is the inverse of the
conversion to local time.

* `Converts` and `ConvertsTo`: the instants whose UTC time can be converted, and those that
  are converted to a given local time;
* `toUniversalTime_iff`: the code tries the daylight candidate, and the standard one only if
  the daylight candidate can be converted;
* `inverts_iff`: when that finds a UTC time if there is one.
-/

namespace ClamavWin32
namespace TzApi

variable {env : TimeEnvironment} {tz : TimeZoneInformation} {utc loc r prelim : SystemTime}
  {t u b : ℤ}

/-! ## Conversions by instants -/

/-- The instant is in the range of a `FILETIME`. -/
def InRange (t : ℤ) : Prop := 0 ≤ t ∧ t < 2 ^ 63

instance (t : ℤ) : Decidable (InRange t) := by
  unfold InRange
  infer_instance

/-- The bias, in minutes, of the local time when the preliminary clock shows this time. -/
def biasUsed (env : TimeEnvironment) (tz : TimeZoneInformation) (prelim : SystemTime) : ℤ :=
  if tz.NoRules then tz.bias.toInt else (effectiveBias env tz prelim).toInt

/-- The UTC time of the instant can be converted: it is in the range of a `SYSTEMTIME`, and
its preliminary clock and its local time are in that of a `FILETIME`. -/
def Converts (env : TimeEnvironment) (tz : TimeZoneInformation) (u : ℤ) : Prop :=
  (∃ utc, env.IsAt utc u) ∧ ∃ prelim, env.Shows (wallClock u tz.bias.toInt) prelim ∧
    InRange (wallClock u (biasUsed env tz prelim))

/-- The UTC time of the instant `u` is converted to the local time of the instant `t`. -/
def ConvertsTo (env : TimeEnvironment) (tz : TimeZoneInformation) (u t : ℤ) : Prop :=
  (∃ utc, env.IsAt utc u) ∧ ∃ prelim, env.Shows (wallClock u tz.bias.toInt) prelim ∧
    wallClock u (biasUsed env tz prelim) = t

/-- The local time is what the clock of the bias used shows. -/
lemma toLocalTime_at (hutc : env.IsAt utc u) :
    systemTimeToTzSpecificLocalTime_compat env tz utc = .ok r ↔
      ∃ prelim, env.Shows (wallClock u tz.bias.toInt) prelim ∧
        env.Shows (wallClock u (biasUsed env tz prelim)) r := by
  rw [toLocalTime_iff]
  unfold biasUsed
  constructor
  · rintro ⟨u', prelim, hutc', hprelim, hr⟩
    obtain rfl := hutc'.unique hutc
    refine ⟨prelim, hprelim, ?_⟩
    by_cases hrules : tz.NoRules
    · rw [if_pos hrules] at hr ⊢
      rwa [← hr]
    · rw [if_neg hrules] at hr ⊢
      exact hr
  · rintro ⟨prelim, hprelim, hr⟩
    refine ⟨u, prelim, hutc, hprelim, ?_⟩
    by_cases hrules : tz.NoRules
    · rw [if_pos hrules] at hr ⊢
      exact hprelim.unique hr
    · rw [if_neg hrules] at hr ⊢
      exact hr

/-- A clock shows a time at its own instant only. -/
lemma shows_iff_eq (hloc : env.IsAt loc t) (hutc : env.IsAt utc u) (bias : ℤ) :
    (∃ r, env.Shows (wallClock u bias) r ∧ loc.SameFields r) ↔ wallClock u bias = t := by
  constructor
  · rintro ⟨r, hr, hsame⟩
    have hwhole : wallClock u bias % 10000 = 0 := by
      have hu := hutc.milliseconds
      unfold wallClock TICKS_PER_MINUTE
      omega
    exact ((hloc.congr hsame).eq_of_shows hr hwhole).symm
  · rintro rfl
    exact hloc.shows

lemma converts_iff (hutc : env.IsAt utc u) :
    Converts env tz u ↔ ∃ r, systemTimeToTzSpecificLocalTime_compat env tz utc = .ok r := by
  unfold Converts InRange
  simp only [toLocalTime_at hutc, ← env.exists_shows_iff]
  exact ⟨fun ⟨_, prelim, hprelim, r, hr⟩ => ⟨r, prelim, hprelim, hr⟩,
    fun ⟨r, prelim, hprelim, hr⟩ => ⟨⟨utc, hutc⟩, prelim, hprelim, r, hr⟩⟩

lemma convertsTo_iff (hloc : env.IsAt loc t) (hutc : env.IsAt utc u) :
    ConvertsTo env tz u t ↔
      ∃ r, systemTimeToTzSpecificLocalTime_compat env tz utc = .ok r ∧ loc.SameFields r := by
  unfold ConvertsTo
  simp only [toLocalTime_at hutc, ← shows_iff_eq hloc hutc]
  exact ⟨fun ⟨_, prelim, hprelim, r, hr, hsame⟩ => ⟨r, ⟨prelim, hprelim, hr⟩, hsame⟩,
    fun ⟨r, ⟨prelim, hprelim, hr⟩, hsame⟩ => ⟨⟨utc, hutc⟩, prelim, hprelim, r, hr, hsame⟩⟩

/-! ## Candidates -/

/-- The candidate for a UTC time, when this bias is the one in effect. -/
def candidate (tz : TimeZoneInformation) (t : ℤ) (bias : Int32) : ℤ :=
  wallClock t (-(tz.bias + bias).toInt)

/-- A candidate is converted back by its instant. -/
lemma convertCandidate_iff {ft : FileTime} {bias : Int32} {cand back : SystemTime}
    (hft : env.systemTimeToFileTime loc = .ok ft) :
    convertCandidate env tz ft.toULONGLONG bias = .ok (cand, back) ↔
      env.Shows (candidate tz ft.ticks bias) cand ∧
        systemTimeToTzSpecificLocalTime_compat env tz cand = .ok back := by
  unfold convertCandidate candidate
  rw [← add_biasIntervals_iff (TimeEnvironment.ticks_lt hft)]
  constructor
  · intro h
    obtain ⟨cand', hcand, h⟩ := bind_eq_ok.1 h
    obtain ⟨back', hback, h⟩ := bind_eq_ok.1 h
    obtain ⟨rfl, rfl⟩ := Prod.mk.inj (Except.ok.inj h)
    exact ⟨hcand, hback⟩
  · intro ⟨hcand, hback⟩
    exact bind_eq_ok.2 ⟨cand, hcand, bind_eq_ok.2 ⟨back, hback, rfl⟩⟩

lemma exists_shown (hutc : env.IsAt utc u) : ∃ cand, env.Shows u cand ∧ env.IsAt cand u := by
  obtain ⟨cand, hcand, hsame⟩ := hutc.shows
  exact ⟨cand, hcand, hutc.congr hsame⟩

/-- A candidate that is converted back stands for its instant. -/
lemma isAt_candidate {bias : Int32} {cand back : SystemTime} (hloc : env.IsAt loc t)
    (hcand : env.Shows (candidate tz t bias) cand)
    (hback : systemTimeToTzSpecificLocalTime_compat env tz cand = .ok back) :
    env.IsAt cand (candidate tz t bias) := by
  obtain ⟨u, -, hu, -⟩ := toLocalTime_iff.1 hback
  have hwhole : candidate tz t bias % 10000 = 0 := by
    have ht := hloc.milliseconds
    unfold candidate wallClock TICKS_PER_MINUTE
    omega
  rwa [hu.eq_of_shows hcand hwhole] at hu

section Candidates

variable {ft : FileTime} (hft : env.systemTimeToFileTime loc = .ok ft) (bias : Int32)

include hft

lemma exists_convertCandidate_iff :
    (∃ cand back, convertCandidate env tz ft.toULONGLONG bias = .ok (cand, back)) ↔
      Converts env tz (candidate tz ft.ticks bias) := by
  have hloc : env.IsAt loc ft.ticks := ⟨ft, hft, rfl⟩
  simp only [convertCandidate_iff hft]
  constructor
  · rintro ⟨cand, back, hcand, hback⟩
    exact (converts_iff (isAt_candidate hloc hcand hback)).2 ⟨back, hback⟩
  · intro h
    obtain ⟨utc, hutc⟩ := h.1
    obtain ⟨cand, hcand, hat⟩ := exists_shown hutc
    obtain ⟨back, hback⟩ := (converts_iff hat).1 h
    exact ⟨cand, back, hcand, hback⟩

lemma exists_convertCandidate_same_iff :
    (∃ cand back, convertCandidate env tz ft.toULONGLONG bias = .ok (cand, back) ∧
      loc.SameFields back) ↔ ConvertsTo env tz (candidate tz ft.ticks bias) ft.ticks := by
  have hloc : env.IsAt loc ft.ticks := ⟨ft, hft, rfl⟩
  simp only [convertCandidate_iff hft]
  constructor
  · rintro ⟨cand, back, ⟨hcand, hback⟩, hsame⟩
    exact (convertsTo_iff hloc (isAt_candidate hloc hcand hback)).2 ⟨back, hback, hsame⟩
  · intro h
    obtain ⟨utc, hutc⟩ := h.1
    obtain ⟨cand, hcand, hat⟩ := exists_shown hutc
    obtain ⟨back, hback, hsame⟩ := (convertsTo_iff hloc hat).1 h
    exact ⟨cand, back, ⟨hcand, hback⟩, hsame⟩

end Candidates

/-! ## The inverse conversion -/

/-- The UTC time that is found is the daylight candidate, or the standard one if the daylight
candidate was converted to another local time. -/
lemma toUniversalTime_eq_ok_iff {ft : FileTime} (hft : env.systemTimeToFileTime loc = .ok ft) :
    tzSpecificLocalTimeToSystemTime_compat env tz loc = .ok utc ↔
      ∃ cand back, convertCandidate env tz ft.toULONGLONG tz.daylightBias = .ok (cand, back) ∧
        if loc.SameFields back then cand = utc
        else ∃ back', convertCandidate env tz ft.toULONGLONG tz.standardBias = .ok (utc, back') ∧
          loc.SameFields back' := by
  unfold tzSpecificLocalTimeToSystemTime_compat
  constructor
  · intro h
    obtain ⟨ft', hft', h⟩ := bind_eq_ok.1 h
    rw [hft] at hft'
    obtain rfl := Except.ok.inj hft'
    obtain ⟨⟨cand, back⟩, hcand, h⟩ := bind_eq_ok.1 h
    simp only [compareSystemTime_eq_zero_iff] at h
    refine ⟨cand, back, hcand, ?_⟩
    -- the daylight bias is tried first, and the standard bias if it does not lead back
    by_cases hsame : loc.SameFields back
    · rw [if_pos hsame] at h ⊢
      exact Except.ok.inj h
    · rw [if_neg hsame] at h ⊢
      obtain ⟨⟨cand', back'⟩, hcand', h⟩ := bind_eq_ok.1 h
      by_cases hsame' : loc.SameFields back'
      · dsimp only at h
        rw [if_pos hsame'] at h
        obtain rfl := Except.ok.inj h
        exact ⟨back', hcand', hsame'⟩
      · dsimp only at h
        rw [if_neg hsame'] at h
        cases h
  · rintro ⟨cand, back, hcand, h⟩
    refine bind_eq_ok.2 ⟨ft, hft, bind_eq_ok.2 ⟨(cand, back), hcand, ?_⟩⟩
    simp only [compareSystemTime_eq_zero_iff]
    by_cases hsame : loc.SameFields back
    · rw [if_pos hsame] at h ⊢
      exact congrArg Except.ok h
    · rw [if_neg hsame] at h ⊢
      obtain ⟨back', hcand', hsame'⟩ := h
      refine bind_eq_ok.2 ⟨(utc, back'), hcand', ?_⟩
      dsimp only
      rw [if_pos hsame']

/-- A UTC time is found if the daylight candidate is converted to the local time, or if it can
be converted and the standard one is converted to the local time. -/
lemma exists_toUniversalTime_iff {ft : FileTime}
    (hft : env.systemTimeToFileTime loc = .ok ft) :
    (∃ utc, tzSpecificLocalTimeToSystemTime_compat env tz loc = .ok utc) ↔
      ConvertsTo env tz (candidate tz ft.ticks tz.daylightBias) ft.ticks ∨
        Converts env tz (candidate tz ft.ticks tz.daylightBias) ∧
          ConvertsTo env tz (candidate tz ft.ticks tz.standardBias) ft.ticks := by
  simp only [toUniversalTime_eq_ok_iff hft, ← exists_convertCandidate_iff hft,
    ← exists_convertCandidate_same_iff hft]
  constructor
  · rintro ⟨utc, cand, back, hcand, h⟩
    by_cases hsame : loc.SameFields back
    · exact Or.inl ⟨cand, back, hcand, hsame⟩
    · rw [if_neg hsame] at h
      exact Or.inr ⟨⟨cand, back, hcand⟩, utc, h⟩
  · rintro (⟨cand, back, hcand, hsame⟩ | ⟨⟨cand, back, hcand⟩, cand', hstandard⟩)
    · exact ⟨cand, cand, back, hcand, by rw [if_pos hsame]⟩
    · by_cases hsame : loc.SameFields back
      · exact ⟨cand, cand, back, hcand, by rw [if_pos hsame]⟩
      · exact ⟨cand', cand, back, hcand, by rwa [if_neg hsame]⟩

/-- A UTC time that is found is converted back to the local time. -/
lemma toUniversalTime_sound (hloc : env.IsAt loc t)
    (h : tzSpecificLocalTimeToSystemTime_compat env tz loc = .ok utc) :
    ∃ r, systemTimeToTzSpecificLocalTime_compat env tz utc = .ok r ∧ loc.SameFields r := by
  obtain ⟨ft, hft, -⟩ := hloc
  obtain ⟨cand, back, hcand, h⟩ := (toUniversalTime_eq_ok_iff hft).1 h
  by_cases hsame : loc.SameFields back
  · rw [if_pos hsame] at h
    rw [← h]
    exact ⟨back, ((convertCandidate_iff hft).1 hcand).2, hsame⟩
  · rw [if_neg hsame] at h
    obtain ⟨back', hcand', hsame'⟩ := h
    exact ⟨back', ((convertCandidate_iff hft).1 hcand').2, hsame'⟩

/-! ## When a UTC time is found -/

/-- `TzSpecificLocalTimeToSystemTime_compat` is the inverse of the conversion to local time,
for this local time. -/
def Inverts (env : TimeEnvironment) (tz : TimeZoneInformation) (loc : SystemTime) : Prop :=
  ((∃ utc, tzSpecificLocalTimeToSystemTime_compat env tz loc = .ok utc) ↔
    ∃ utc r, systemTimeToTzSpecificLocalTime_compat env tz utc = .ok r ∧ loc.SameFields r) ∧
  ∀ utc, tzSpecificLocalTimeToSystemTime_compat env tz loc = .ok utc →
    ∃ r, systemTimeToTzSpecificLocalTime_compat env tz utc = .ok r ∧ loc.SameFields r

/-- The candidates lead to a UTC time for the local time of this instant if there is one. -/
def CandidatesSuffice (env : TimeEnvironment) (tz : TimeZoneInformation) (t : ℤ) : Prop :=
  if tz.NoRules then
    (∃ utc, env.IsAt utc (wallClock t (-tz.bias.toInt))) →
      tz.daylightBias = 0 ∨
        tz.standardBias = 0 ∧ Converts env tz (candidate tz t tz.daylightBias)
  else
    ConvertsTo env tz (candidate tz t tz.standardBias) t →
      Converts env tz (candidate tz t tz.daylightBias)

/-- Some UTC time is converted to a local time if and only if some instant is. -/
lemma exists_convertsTo_iff (hloc : env.IsAt loc t) :
    (∃ utc r, systemTimeToTzSpecificLocalTime_compat env tz utc = .ok r ∧ loc.SameFields r) ↔
      ∃ u, ConvertsTo env tz u t := by
  constructor
  · rintro ⟨utc, r, hr, hsame⟩
    obtain ⟨u, -, hu, -⟩ := toLocalTime_iff.1 hr
    exact ⟨u, (convertsTo_iff hloc hu).2 ⟨r, hr, hsame⟩⟩
  · rintro ⟨u, h⟩
    obtain ⟨utc, hutc⟩ := h.1
    exact ⟨utc, (convertsTo_iff hloc hutc).1 h⟩

/-- The instants that are converted to a local time differ from it by a bias. -/
lemma eq_wallClock (h : wallClock u b = t) : u = wallClock t (-b) := by
  unfold wallClock at *
  rw [← h, Int.neg_mul]
  omega

lemma wallClock_cancel (t b : ℤ) : wallClock (wallClock t (-b)) b = t := by
  unfold wallClock
  rw [Int.neg_mul]
  omega

/-- A zone with rules uses one of the biases of the two candidates. -/
lemma exists_convertsTo_rules (hrules : ¬tz.NoRules) :
    (∃ u, ConvertsTo env tz u t) ↔
      ConvertsTo env tz (candidate tz t tz.daylightBias) t ∨
        ConvertsTo env tz (candidate tz t tz.standardBias) t := by
  constructor
  · rintro ⟨u, h⟩
    obtain ⟨hutc, prelim, hprelim, hbias⟩ := h
    have hu := eq_wallClock hbias
    unfold biasUsed effectiveBias at hu
    unfold candidate
    rw [if_neg hrules] at hu
    by_cases hdst : isDST env tz prelim
    · rw [if_pos hdst] at hu
      rw [← hu]
      exact Or.inl ⟨hutc, prelim, hprelim, hbias⟩
    · rw [if_neg hdst] at hu
      rw [← hu]
      exact Or.inr ⟨hutc, prelim, hprelim, hbias⟩
  · rintro (h | h)
    · exact ⟨_, h⟩
    · exact ⟨_, h⟩

/-- A zone without rules uses the base bias. -/
lemma convertsTo_noRules_iff (hrules : tz.NoRules) (hloc : env.IsAt loc t) :
    ConvertsTo env tz u t ↔ (∃ utc, env.IsAt utc u) ∧ u = wallClock t (-tz.bias.toInt) := by
  unfold ConvertsTo biasUsed
  simp only [if_pos hrules]
  refine and_congr_right fun hutc => ⟨fun ⟨_, _, hbias⟩ => eq_wallClock hbias, ?_⟩
  rintro rfl
  obtain ⟨prelim, hprelim, -⟩ := hloc.shows
  rw [wallClock_cancel]
  exact ⟨prelim, hprelim, rfl⟩

/-- Without rules a candidate is right only if its own bias is zero. -/
lemma convertsTo_candidate_noRules_iff (hrules : tz.NoRules) (hloc : env.IsAt loc t)
    (bias : Int32) :
    ConvertsTo env tz (candidate tz t bias) t ↔
      bias = 0 ∧ ∃ utc, env.IsAt utc (wallClock t (-tz.bias.toInt)) := by
  have hzero : candidate tz t bias = wallClock t (-tz.bias.toInt) ↔ bias = 0 := by
    have hlo := tz.bias.le_toInt
    have hhi := tz.bias.toInt_lt
    have hsum := toInt_add_eq_iff tz.bias bias 0
    have hnull : (0 : Int32).toInt = 0 := rfl
    unfold candidate wallClock TICKS_PER_MINUTE
    rw [hnull, Int.add_zero, and_iff_left ⟨hlo, hhi⟩] at hsum
    rw [← hsum]
    omega
  rw [convertsTo_noRules_iff hrules hloc, hzero, and_comm]
  refine and_congr_right fun hbias => ?_
  rw [hzero.2 hbias]

/-- What is converted to a local time that is valid can be converted. -/
lemma ConvertsTo.converts (h : ConvertsTo env tz u t) (hloc : env.IsAt loc t) :
    Converts env tz u := by
  obtain ⟨hutc, prelim, hprelim, rfl⟩ := h
  obtain ⟨st, hst, -⟩ := hloc.shows
  exact ⟨hutc, prelim, hprelim, (env.exists_shows_iff _).1 ⟨st, hst⟩⟩

/-- The conversion to UTC is the inverse of the one to local time if and only if the
candidates suffice. -/
theorem inverts_iff (hloc : loc.Valid) :
    Inverts env tz loc ↔ ∃ t, env.IsAt loc t ∧ CandidatesSuffice env tz t := by
  obtain ⟨t, ht⟩ := TimeEnvironment.isAt_iff_valid.2 hloc
  obtain ⟨ft, hft, rfl⟩ := id ht
  have hinstant : (∃ t, env.IsAt loc t ∧ CandidatesSuffice env tz t) ↔
      CandidatesSuffice env tz ft.ticks :=
    ⟨fun ⟨t, ht', h⟩ => ht.unique ht' ▸ h, fun h => ⟨_, ht, h⟩⟩
  rw [hinstant]
  unfold Inverts CandidatesSuffice
  rw [and_iff_left (fun utc h => toUniversalTime_sound ht h), exists_toUniversalTime_iff hft,
    exists_convertsTo_iff ht]
  by_cases hrules : tz.NoRules
  · have hexists : (∃ u, ConvertsTo env tz u ft.ticks) ↔
        ∃ utc, env.IsAt utc (wallClock ft.ticks (-tz.bias.toInt)) := by
      simp only [convertsTo_noRules_iff hrules ht]
      exact ⟨fun ⟨_, hutc, hu⟩ => hu ▸ hutc, fun hutc => ⟨_, hutc, rfl⟩⟩
    rw [if_pos hrules, hexists, convertsTo_candidate_noRules_iff hrules ht,
      convertsTo_candidate_noRules_iff hrules ht]
    constructor
    · intro h hutc
      rcases h.2 hutc with ⟨hdaylight, -⟩ | ⟨hconverts, hstandard, -⟩
      · exact Or.inl hdaylight
      · exact Or.inr ⟨hstandard, hconverts⟩
    · intro h
      refine ⟨fun hfound => hfound.elim (fun h => h.2) (fun h => h.2.2), fun hutc => ?_⟩
      rcases h hutc with hdaylight | ⟨hstandard, hconverts⟩
      · exact Or.inl ⟨hdaylight, hutc⟩
      · exact Or.inr ⟨hconverts, hstandard, hutc⟩
  · rw [if_neg hrules, exists_convertsTo_rules hrules]
    constructor
    · intro h hstandard
      rcases h.2 (Or.inr hstandard) with hdaylight | ⟨hconverts, -⟩
      · exact hdaylight.converts ht
      · exact hconverts
    · intro h
      refine ⟨fun hfound => hfound.imp_right (fun h => h.2), fun hexists => ?_⟩
      -- only the standard candidate can be missed
      exact hexists.imp_right fun hstandard => ⟨h hstandard, hstandard⟩

/-- On the first of July 2024, 14:00 in Central Europe is 12:00 UTC. -/
theorem july_inverts : Inverts gregorianEnvironment centralEurope ⟨2024, 7, 1, 1, 14, 0, 0, 0⟩ :=
  (inverts_iff (by decide)).2
    ⟨133643160000000000,
      ⟨.ofULONGLONG 133643160000000000, by decide +kernel, by decide +kernel⟩,
      fun _ => ⟨⟨_, julyClocks.isAt⟩, _, julyClocks.prelim_shown, by decide +kernel⟩⟩

/-- UTC as a zone without rules, with biases that are not in effect. -/
def withoutRules : TimeZoneInformation where
  bias := 0
  standardDate := ⟨0, 0, 0, 0, 0, 0, 0, 0⟩
  standardBias := -30
  daylightDate := ⟨0, 0, 0, 0, 0, 0, 0, 0⟩
  daylightBias := -60

/-- No UTC time is found for 12:00, which 12:00 UTC is converted to. -/
theorem withoutRules_not_inverts :
    SystemTime.Valid ⟨2024, 7, 1, 1, 12, 0, 0, 0⟩ ∧
      ¬Inverts gregorianEnvironment withoutRules ⟨2024, 7, 1, 1, 12, 0, 0, 0⟩ := by
  refine ⟨by decide, fun h => ?_⟩
  obtain ⟨utc, hutc⟩ := h.1.2 ⟨⟨2024, 7, 1, 1, 12, 0, 0, 0⟩, ⟨2024, 7, 1, 1, 12, 0, 0, 0⟩,
    by decide +kernel, rfl⟩
  have hfails : tzSpecificLocalTimeToSystemTime_compat gregorianEnvironment withoutRules
      ⟨2024, 7, 1, 1, 12, 0, 0, 0⟩ = .error ERROR_INVALID_PARAMETER := by decide +kernel
  rw [hfails] at hutc
  cases hutc

end TzApi
end ClamavWin32
