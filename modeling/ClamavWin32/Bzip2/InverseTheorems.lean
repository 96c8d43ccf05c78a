import ClamavWin32.Bzip2.Inverse
import Mathlib.Dynamics.PeriodicPts.Lemmas

/-!
# The two ways back read the same letters

* `generateCftab_spec`: a letter's rows begin behind those of the smaller letters;
* `forUpto_linkFast`, `forUpto_link`: what is in the vectors;
* `reversePointers_spec`: the reversal ends, and the vector leads the other way on its cycle;
* `startSmall_yields_iff`: the small mode reads what the fast one reads, and no read leaves the
  block;
* `startFast_yields_text`: from the last letters of sorted rows that is the text.
-/

namespace ClamavWin32
namespace Bzip2

open CanonicalCode

/-! ## Where the rows of a letter begin -/

section

variable {key : ℕ → ℕ} {n : ℕ} {unzftab : ℕ → ℕ}

lemma forUpto_copyCounts (unzftab cftab : ℕ → ℕ) :
    ∀ c, forUpto 1 257 (fun i cftab => Function.update cftab i (unzftab (i - 1)))
      (Function.update cftab 0 0) c =
        if c = 0 then 0 else if c < 257 then unzftab (c - 1) else cftab c := by
  refine forUpto_invariant (P := fun i (t : ℕ → ℕ) => ∀ c, t c =
    if c = 0 then 0 else if c < i then unzftab (c - 1) else cftab c) (by omega) ?_ ?_
  · intro c
    rw [Function.update_apply]
    split_ifs
    · rfl
    · omega
    · rfl
  · intro i t hlo hhi ht c
    rw [Function.update_apply, ht]
    by_cases heq : c = i
    · rw [if_pos heq, if_neg (by omega), if_pos (by omega), heq]
    · rw [if_neg heq]
      split_ifs
      · rfl
      · rfl
      · omega
      · omega
      · rfl

lemma generateCftab_spec (h : ∀ c < 256, unzftab c = count key n c) (cftab : ℕ → ℕ) :
    ∀ c ≤ 256, generateCftab unzftab cftab c = below key n c := by
  have hsum := forUpto_invariant (P := fun i (t : ℕ → ℕ) =>
    (∀ c < i, t c = below key n c) ∧ ∀ c, i ≤ c → c ≤ 256 → t c = count key n (c - 1))
    (show 1 ≤ 257 by omega)
    (f := fun i t => Function.update t i (t i + t (i - 1)))
    (s := forUpto 1 257 (fun i cftab => Function.update cftab i (unzftab (i - 1)))
      (Function.update cftab 0 0)) ⟨?_, ?_⟩ ?_
  · exact fun c hc => hsum.1 c (by omega)
  · intro c hc
    rw [forUpto_copyCounts, if_pos (show c = 0 by omega), show c = 0 by omega]
    exact (below_eq_zero fun i _ => Nat.zero_le _).symm
  · intro c hlo hhi
    rw [forUpto_copyCounts, if_neg (show c ≠ 0 by omega), if_pos (show c < 257 by omega),
      h _ (by omega)]
  · rintro i t hlo hhi ⟨hdone, hrest⟩
    constructor
    · intro c hc
      by_cases heq : c = i
      · obtain ⟨m, rfl⟩ : ∃ m, i = m + 1 := ⟨i - 1, by omega⟩
        rw [heq, Function.update_self, hrest _ (le_refl _) (by omega), hdone _ (by omega),
          Nat.add_sub_cancel, below_succ, Nat.add_comm]
      · rw [Function.update_of_ne heq, hdone c (by omega)]
    · intro c hc hle
      rw [Function.update_of_ne (by omega), hrest c (by omega) hle]

/-- The rows of a letter end where those of the next one begin. -/
lemma indexBetween_spec {cftab : ℕ → ℕ} {indx : ℕ} {nb na : ℕ} (hlt : nb < na)
    (hlo : cftab nb ≤ indx) (hhi : indx < cftab na) :
    nb ≤ indexBetween indx cftab nb na ∧ indexBetween indx cftab nb na < na ∧
      cftab (indexBetween indx cftab nb na) ≤ indx ∧
      indx < cftab (indexBetween indx cftab nb na + 1) := by
  induction nb, na using indexBetween.induct indx cftab with
  | case1 nb na h =>
    have hna : na = nb + 1 := by omega
    rw [indexBetween, if_pos h]
    exact ⟨le_refl _, hlt, hlo, hna ▸ hhi⟩
  | case2 nb na h mid hge ih =>
    have hmid : mid = (nb + na) / 2 := Nat.shiftRight_eq_div_pow _ _
    rw [indexBetween, if_neg h]
    dsimp only
    rw [if_pos hge]
    obtain ⟨h1, h2, h3⟩ := ih (by omega) hge hhi
    exact ⟨(show nb ≤ mid by omega).trans h1, h2, h3⟩
  | case3 nb na h mid hge ih =>
    have hmid : mid = (nb + na) / 2 := Nat.shiftRight_eq_div_pow _ _
    rw [indexBetween, if_neg h]
    dsimp only
    rw [if_neg hge]
    obtain ⟨h1, h2, h3⟩ := ih (by omega) hlo (not_le.mp hge)
    exact ⟨h1, h2.trans (show mid < na by omega), h3⟩

/-- The letter whose rows a place is among. -/
lemma indexIntoF_position {cftab : ℕ → ℕ} (hcftab : ∀ c ≤ 256, cftab c = below key n c)
    (hkey : ∀ i < n, key i < 256) {i : ℕ} (hi : i < n) :
    BZ2_indexIntoF (position key n i) cftab = key i := by
  have hrank := rank_lt key hi
  have hsucc : below key n (key i + 1) = below key n (key i) + count key n (key i) :=
    below_succ (key i)
  have hpos : position key n i = below key n (key i) + rank key i := rfl
  have hlo : cftab 0 ≤ position key n i := by
    rw [hcftab 0 (Nat.zero_le _), below_eq_zero fun i _ => Nat.zero_le _]
    exact Nat.zero_le _
  have hhi : position key n i < cftab 256 := by
    rw [hcftab 256 (le_refl _), below_eq_all hkey]
    exact position_lt key hi
  obtain ⟨-, hle, h1, h2⟩ := indexBetween_spec (Nat.zero_lt_succ 255) hlo hhi
  rw [BZ2_indexIntoF]
  generalize indexBetween (position key n i) cftab 0 256 = c at hle h1 h2
  rw [hcftab _ (by omega)] at h1 h2
  rcases Nat.lt_trichotomy c (key i) with h | h | h
  · have hmono := below_mono key n (show c + 1 ≤ key i by omega)
    omega
  · exact h
  · have hmono := below_mono key n (show key i + 1 ≤ c by omega)
    omega

end

/-! ## The entries of the small mode -/

namespace SmallBlock

/-- Half of a byte is changed, and the other half stays. -/
lemma nibbles (x : ℕ) {m : ℕ} (hm : m < 16) :
    (((x &&& 0xf0) ||| m) % 256) % 16 = m ∧
      ((x &&& 0xf0) ||| m) % 256 / 16 % 16 = x / 16 % 16 ∧
      (((x &&& 0x0f) ||| (m <<< 4)) % 256) / 16 % 16 = m ∧
      ((x &&& 0x0f) ||| (m <<< 4)) % 256 % 16 = x % 16 := by
  have hhigh : x &&& 0xf0 = (x / 16 % 16) <<< 4 := by
    have hdiv : (x &&& 0xf0) / 2 ^ 4 = x / 2 ^ 4 % 2 ^ 4 := by
      rw [Nat.and_div_two_pow]
      exact Nat.and_two_pow_sub_one_eq_mod _ 4
    have hmod : (x &&& 0xf0) % 2 ^ 4 = 0 := by
      rw [Nat.and_mod_two_pow]
      exact Nat.and_zero _
    rw [Nat.shiftLeft_eq]
    omega
  have hlow : x &&& 0x0f = x % 16 := Nat.and_two_pow_sub_one_eq_mod x 4
  have hset0 : (x &&& 0xf0) ||| m = x / 16 % 16 * 16 + m := by
    rw [hhigh, ← Nat.shiftLeft_add_eq_or_of_lt hm, Nat.shiftLeft_eq]
  have hset1 : (x &&& 0x0f) ||| (m <<< 4) = m * 16 + x % 16 := by
    have hlt : x % 16 < 2 ^ 4 := Nat.mod_lt _ (by omega)
    rw [hlow, Nat.lor_comm, ← Nat.shiftLeft_add_eq_or_of_lt hlt, Nat.shiftLeft_eq]
  rw [hset0, hset1]
  omega

lemma GET_LL4_eq (s : SmallBlock) (i : ℕ) :
    s.GET_LL4 i = if i % 2 = 0 then s.ll4 (i / 2) % 16 else s.ll4 (i / 2) / 16 % 16 := by
  have hmask : ∀ y : ℕ, y &&& 0xF = y % 16 := fun y => Nat.and_two_pow_sub_one_eq_mod y 4
  have hshift : (i <<< 2) &&& 4 = i % 2 * 4 := by
    have hdiv : ((i <<< 2) &&& 4) / 2 ^ 2 = i % 2 := by
      rw [Nat.and_div_two_pow, Nat.shiftLeft_eq, Nat.mul_div_cancel _ (by omega)]
      exact Nat.and_two_pow_sub_one_eq_mod i 1
    have hmod : ((i <<< 2) &&& 4) % 2 ^ 2 = 0 := by
      rw [Nat.and_mod_two_pow]
      exact Nat.and_zero _
    omega
  rw [GET_LL4, hmask, hshift, Nat.shiftRight_eq_div_pow i 1]
  rcases Nat.mod_two_eq_zero_or_one i with h | h
  · rw [h, if_pos rfl]
    rfl
  · rw [h, if_neg one_ne_zero, Nat.shiftRight_eq_div_pow]

lemma ll4_SET_LL4 (s : SmallBlock) {i m : ℕ} (hm : m < 16) (j : ℕ) :
    (s.SET_LL4 i m).GET_LL4 j = if j = i then m else s.GET_LL4 j := by
  have hmask : i &&& 1 = i % 2 := Nat.and_two_pow_sub_one_eq_mod i 1
  have hhalf : i >>> 1 = i / 2 := Nat.shiftRight_eq_div_pow i 1
  obtain ⟨h0, h0', h1, h1'⟩ := nibbles (s.ll4 (i / 2)) hm
  rw [GET_LL4_eq, GET_LL4_eq, SET_LL4, hmask, hhalf]
  by_cases heven : i % 2 = 0
  · rw [if_pos heven]
    dsimp only
    by_cases hbyte : j / 2 = i / 2
    · rw [hbyte, Function.update_self, h0, h0']
      split_ifs <;> omega
    · rw [if_neg (fun h => hbyte (congrArg (· / 2) h)), Function.update_of_ne hbyte]
  · rw [if_neg heven]
    dsimp only
    by_cases hbyte : j / 2 = i / 2
    · rw [hbyte, Function.update_self, h1, h1']
      split_ifs <;> omega
    · rw [if_neg (fun h => hbyte (congrArg (· / 2) h)), Function.update_of_ne hbyte]

lemma ll16_SET_LL (s : SmallBlock) (i m : ℕ) :
    (s.SET_LL i m).ll16 = Function.update s.ll16 i (m &&& 0x0000ffff) := by
  rw [SET_LL, SET_LL4]
  split <;> rfl

/-- **An entry is changed, and the others stay.** -/
lemma GET_LL_SET_LL (s : SmallBlock) {i m : ℕ} (hm : m < 2 ^ 20) (j : ℕ) :
    (s.SET_LL i m).GET_LL j = if j = i then m else s.GET_LL j := by
  have hhigh : m >>> 16 < 16 := by
    rw [Nat.shiftRight_eq_div_pow]
    omega
  have hlow : m &&& 0x0000ffff = m % 2 ^ 16 := Nat.and_two_pow_sub_one_eq_mod m 16
  rw [GET_LL, ll16_SET_LL, SET_LL, ll4_SET_LL4 _ hhigh]
  by_cases heq : j = i
  · rw [if_pos heq, if_pos heq, heq, Function.update_self, hlow, Nat.lor_comm,
      ← Nat.shiftLeft_add_eq_or_of_lt (Nat.mod_lt m (Nat.two_pow_pos 16)), Nat.shiftLeft_eq,
      Nat.shiftRight_eq_div_pow]
    omega
  · rw [if_neg heq, if_neg heq, Function.update_of_ne heq]
    rfl

end SmallBlock

/-! ## The vectors -/

section

variable {key : ℕ → ℕ} {n : ℕ} {tt cftab : ℕ → ℕ}

/-- Where letter `i` is put when `i` letters have been. -/
lemma below_add_count (i : ℕ) : below key n (key i) + count key i (key i) = position key n i := rfl

/-- The next row of a letter is one further on. -/
lemma update_cftab {cf : ℕ → ℕ} {i : ℕ}
    (h : ∀ c ≤ 256, cf c = below key n c + count key i c) :
    ∀ c ≤ 256,
      Function.update cf (key i) (cf (key i) + 1) c = below key n c + count key (i + 1) c := by
  intro c hc
  by_cases heq : c = key i
  · rw [heq, Function.update_self, h _ (heq ▸ hc), count_succ_of_eq rfl, Nat.add_assoc]
  · rw [Function.update_of_ne heq, h c hc, count_succ_of_ne (Ne.symm heq)]

/-- An entry of `tt` has its letter, and the place that came there. -/
lemma forUpto_linkFast (hkey : ∀ i < n, key i < 256) (htt : ∀ i < n, tt i = key i)
    (hcftab : ∀ c ≤ 256, cftab c = below key n c) (q : Fin n) :
    (forUpto 0 n linkFast (tt, cftab)).1 q = key q + 256 * ((places key n).symm q : ℕ) := by
  have hrun : (∀ c ≤ 256, (forUpto 0 n linkFast (tt, cftab)).2 c = below key n c + count key n c) ∧
      ∀ q : Fin n, (forUpto 0 n linkFast (tt, cftab)).1 q =
        key q +
          256 * if ((places key n).symm q : ℕ) < n then ((places key n).symm q : ℕ) else 0 := by
    refine forUpto_invariant (P := fun i (s : (ℕ → ℕ) × (ℕ → ℕ)) =>
      (∀ c ≤ 256, s.2 c = below key n c + count key i c) ∧
        ∀ q : Fin n, s.1 q =
          key q + 256 * if ((places key n).symm q : ℕ) < i then ((places key n).symm q : ℕ) else 0)
      (Nat.zero_le n) ⟨?_, ?_⟩ ?_
    · intro c hc
      exact hcftab c hc
    · intro q
      rw [if_neg (Nat.not_lt_zero _)]
      exact htt q q.isLt
    · rintro i s - hi ⟨hcf, htt⟩
      have huc : s.1 i &&& 0xff = key i := by
        have hlt := hkey i hi
        have hmask : s.1 i &&& 0xff = s.1 i % 256 := Nat.and_two_pow_sub_one_eq_mod _ 8
        have hi' : s.1 i = _ := htt ⟨i, hi⟩
        rw [hmask, hi', Nat.add_mul_mod_self_left, Nat.mod_eq_of_lt hlt]
      have hplace : s.2 (key i) = (places key n ⟨i, hi⟩ : ℕ) := by
        rw [hcf _ (hkey i hi).le]
        rfl
      rw [linkFast, huc]
      refine ⟨update_cftab hcf, fun q => ?_⟩
      dsimp only
      rw [hplace]
      by_cases heq : q = places key n ⟨i, hi⟩
      · have hlt := hkey _ q.isLt
        have hold := htt q
        rw [heq, Equiv.symm_apply_apply, if_neg (lt_irrefl _)] at hold
        rw [heq] at hlt
        rw [heq, Function.update_self, hold, Equiv.symm_apply_apply, if_pos (Nat.lt_succ_self i),
          Nat.mul_zero, Nat.add_zero, Nat.lor_comm, ← Nat.shiftLeft_add_eq_or_of_lt hlt,
          Nat.shiftLeft_eq]
        dsimp only
        omega
      · have hne : ((places key n).symm q : ℕ) ≠ i := by
          intro h
          exact heq ((Equiv.symm_apply_eq _).mp (Fin.ext h))
        rw [Function.update_of_ne (fun h => heq (Fin.ext h)), htt]
        split_ifs <;> omega
  rw [hrun.2 q, if_pos (Fin.isLt _)]

/-- An entry of the small vector is the place of its letter. -/
lemma forUpto_link {s : SmallBlock} (hn : n ≤ 900000) (hkey : ∀ i < n, key i < 256)
    (hll : ∀ i < n, s.ll16 i = key i) (hcftab : ∀ c ≤ 256, cftab c = below key n c) (q : Fin n) :
    (forUpto 0 n SmallBlock.link (s, cftab)).1.GET_LL q = (places key n q : ℕ) := by
  have hrun : (∀ c ≤ 256, (forUpto 0 n SmallBlock.link (s, cftab)).2 c =
        below key n c + count key n c) ∧
      (∀ i, n ≤ i → i < n → (forUpto 0 n SmallBlock.link (s, cftab)).1.ll16 i = key i) ∧
      ∀ q : Fin n, (q : ℕ) < n →
        (forUpto 0 n SmallBlock.link (s, cftab)).1.GET_LL q = (places key n q : ℕ) := by
    refine forUpto_invariant (P := fun k (s : SmallBlock × (ℕ → ℕ)) =>
      (∀ c ≤ 256, s.2 c = below key n c + count key k c) ∧
        (∀ i, k ≤ i → i < n → s.1.ll16 i = key i) ∧
        ∀ q : Fin n, (q : ℕ) < k → s.1.GET_LL q = (places key n q : ℕ))
      (Nat.zero_le n) ⟨?_, ?_, ?_⟩ ?_
    · intro c hc
      exact hcftab c hc
    · exact fun i _ hi => hll i hi
    · exact fun q hq => absurd hq (Nat.not_lt_zero _)
    · rintro i s - hi ⟨hcf, hll, hdone⟩
      have huc : s.1.ll16 i % 256 = key i := by
        rw [hll i (le_refl i) hi, Nat.mod_eq_of_lt (hkey i hi)]
      have hplace : s.2 (key i) = (places key n ⟨i, hi⟩ : ℕ) := by
        rw [hcf _ (hkey i hi).le]
        rfl
      have hsmall : s.2 (key i) < 2 ^ 20 := by
        have hlt := (places key n ⟨i, hi⟩).isLt
        omega
      rw [SmallBlock.link, huc]
      refine ⟨update_cftab hcf, fun k hk hkn => ?_, fun q hq => ?_⟩
      · dsimp only
        rw [SmallBlock.ll16_SET_LL, Function.update_of_ne (by omega), hll k (by omega) hkn]
      · dsimp only
        rw [SmallBlock.GET_LL_SET_LL _ hsmall]
        by_cases heq : (q : ℕ) = i
        · rw [if_pos heq, hplace]
          congr 2
          exact Fin.ext heq.symm
        · rw [if_neg heq, hdone q (by omega)]
  exact hrun.2.2 q q.isLt

end

/-! ## The reversal -/

section

variable {n : ℕ} {place : Equiv.Perm (Fin n)} {o : Fin n}

open Function (minimalPeriod)

lemma minimalPeriod_pos (place : Equiv.Perm (Fin n)) (o : Fin n) : 0 < minimalPeriod place o :=
  Function.minimalPeriod_pos_of_mem_periodicPts (place.injective.mem_periodicPts o)

/-- The places on the way round are different. -/
lemma iterate_succ_ne {r m : ℕ} (hr : r < minimalPeriod place o) (hm : m < minimalPeriod place o)
    (hne : r ≠ m) : (place^[r + 1] o : ℕ) ≠ place^[m + 1] o := by
  intro h
  rw [Function.iterate_succ_apply', Function.iterate_succ_apply'] at h
  exact hne (Function.iterate_injOn_Iio_minimalPeriod hr hm (place.injective (Fin.ext h)))

/-- The way round ends where it began. -/
lemma iterate_succ_eq_iff {m : ℕ} (hm : m < minimalPeriod place o) :
    (place^[m + 1] o : ℕ) = o ↔ m + 1 = minimalPeriod place o := by
  constructor
  · intro h
    have hle : minimalPeriod place o ≤ m + 1 :=
      Function.IsPeriodicPt.minimalPeriod_le (Nat.succ_pos m) (Fin.ext h)
    omega
  · intro h
    rw [h]
    exact congrArg Fin.val (Function.isPeriodicPt_minimalPeriod place o)

/-- The first `m` links of the way round lead back, and the others on. -/
structure Reversed (place : Equiv.Perm (Fin n)) (o : Fin n) (m : ℕ) (s : SmallBlock) : Prop where
  back : ∀ r < m, s.GET_LL (place^[r + 1] o) = place^[r] o
  on : ∀ r, m ≤ r → r < minimalPeriod place o → s.GET_LL (place^[r + 1] o) = place^[r + 2] o

/-- A link is turned. -/
lemma Reversed.step {m : ℕ} {s : SmallBlock} (hn : n ≤ 900000) (h : Reversed place o m s)
    (hm : m < minimalPeriod place o) :
    Reversed place o (m + 1) (s.SET_LL (place^[m + 1] o) (place^[m] o)) := by
  have hsmall : (place^[m] o : ℕ) < 2 ^ 20 := by
    have hlt := (place^[m] o).isLt
    omega
  constructor
  · intro r hr
    rw [SmallBlock.GET_LL_SET_LL _ hsmall]
    by_cases heq : r = m
    · rw [heq, if_pos rfl]
    · rw [if_neg (iterate_succ_ne (by omega) hm heq), h.back r (by omega)]
  · intro r hle hr
    rw [SmallBlock.GET_LL_SET_LL _ hsmall, if_neg (iterate_succ_ne hr hm (by omega)),
      h.on r (by omega) hr]

/-- **The reversal ends**, with every link on the way turned. -/
lemma reversePointers_spec (hn : n ≤ 900000) (fuel : ℕ) :
    ∀ {m : ℕ} {s : SmallBlock}, m < minimalPeriod place o → minimalPeriod place o ≤ m + fuel →
      Reversed place o m s →
      ∃ s', s.reversePointers o fuel (place^[m] o) (place^[m + 1] o) = some s' ∧
        Reversed place o (minimalPeriod place o) s' := by
  induction fuel with
  | zero =>
    intro m s hm hfuel h
    omega
  | succ fuel ih =>
    intro m s hm hfuel h
    rw [SmallBlock.reversePointers, h.on m (le_refl m) hm]
    by_cases hend : m + 1 = minimalPeriod place o
    · have hback := (iterate_succ_eq_iff hm).mpr hend
      refine ⟨_, if_neg (not_not.mpr hback), ?_⟩
      rw [← hend]
      exact h.step hn hm
    · have hback : (place^[m + 1] o : ℕ) ≠ o := fun h => hend ((iterate_succ_eq_iff hm).mp h)
      obtain ⟨s', hrun, hs'⟩ := ih (m := m + 1) (by omega) (by omega) (h.step hn hm)
      exact ⟨s', (if_pos hback).trans hrun, hs'⟩

/-- Every place on the way back is on the way round. -/
lemma exists_iterate_symm (place : Equiv.Perm (Fin n)) (o : Fin n) (k : ℕ) :
    ∃ r < minimalPeriod place o, place.symm^[k] o = place^[r + 1] o := by
  have hpos := minimalPeriod_pos place o
  have hround : o = place^[minimalPeriod place o - 1 + 1] o := by
    rw [Nat.sub_add_cancel hpos]
    exact (Function.isPeriodicPt_minimalPeriod place o).symm
  induction k with
  | zero => exact ⟨_, by omega, hround⟩
  | succ k ih =>
    obtain ⟨r, hr, hk⟩ := ih
    rw [Function.iterate_succ_apply', hk, Function.iterate_succ_apply', Equiv.symm_apply_apply]
    cases r with
    | zero => exact ⟨_, by omega, hround⟩
    | succ r => exact ⟨r, by omega, rfl⟩

lemma Reversed.symm {s : SmallBlock} (h : Reversed place o (minimalPeriod place o) s) (k : ℕ) :
    s.GET_LL (place.symm^[k] o) = place.symm^[k + 1] o := by
  obtain ⟨r, hr, hk⟩ := exists_iterate_symm place o k
  rw [Function.iterate_succ_apply' _ k, hk, h.back r hr, Function.iterate_succ_apply',
    Equiv.symm_apply_apply]

end

/-! ## Both ways -/

section

variable {ll : ℕ → UInt8} {n blockSize100k : ℕ} {unzftab : ℕ → ℕ}

lemma letter_lt (ll : ℕ → UInt8) (n : ℕ) : ∀ i < n, (ll i).toNat < 256 :=
  fun i _ => (ll i).toNat_lt

/-- What is read where every read leads to the next one. -/
lemma yields_iff {σ : Type*} {get : σ → Option (UInt8 × σ)} (pos : ℕ → σ) {letter : ℕ → UInt8}
    (hget : ∀ k, get (pos k) = some (letter k, pos (k + 1))) (bs : List UInt8) (k : ℕ) :
    Yields get (pos k) bs ↔ bs = (List.range bs.length).map fun j => letter (k + j) := by
  induction bs generalizing k with
  | nil => exact iff_of_true trivial rfl
  | cons b bs ih =>
    have hrest : (fun j => letter (k + j)) ∘ Nat.succ = fun j => letter (k + 1 + j) := by
      funext j
      rw [Function.comp_apply, Nat.succ_eq_add_one, Nat.add_assoc, Nat.add_comm 1]
    rw [List.length_cons, List.range_succ_eq_map, List.map_cons, List.map_map, List.cons.injEq,
      hrest, ← ih]
    constructor
    · rintro ⟨c, hc, hyields⟩
      rw [hget, Option.some_inj, Prod.mk.injEq] at hc
      exact ⟨hc.1.symm, hc.2 ▸ hyields⟩
    · rintro ⟨hb, hyields⟩
      refine ⟨_, ?_, hyields⟩
      rw [hget, hb]
      rfl

/-- Letter `k` that is read, starting from the place `o`. -/
noncomputable def letterRead (ll : ℕ → UInt8) {n : ℕ} (o : Fin n) (k : ℕ) : UInt8 :=
  ll ((places (fun i => (ll i).toNat) n).symm^[k + 1] o)

lemma startFast_yields_iff {tt cftab : ℕ → ℕ} (hsize : n ≤ 100000 * blockSize100k)
    (htt : ∀ i < n, tt i = (ll i).toNat)
    (hcftab : ∀ c ≤ 256, cftab c = below (fun i => (ll i).toNat) n c) (o : Fin n)
    (bs : List UInt8) :
    Yields (BZ_GET_FAST blockSize100k (startFast n o tt cftab).1) (startFast n o tt cftab).2 bs ↔
      bs = (List.range bs.length).map (letterRead ll o) := by
  have hentry := forUpto_linkFast (letter_lt ll n) htt hcftab
  have hshift : ∀ q : Fin n, (forUpto 0 n linkFast (tt, cftab)).1 q >>> 8 =
      ((places (fun i => (ll i).toNat) n).symm q : ℕ) := by
    intro q
    have hlt := (ll q).toNat_lt
    rw [hentry, Nat.shiftRight_eq_div_pow]
    omega
  have hget : ∀ k, BZ_GET_FAST blockSize100k (startFast n o tt cftab).1
      ((places (fun i => (ll i).toNat) n).symm^[k + 1] o : ℕ) =
        some (letterRead ll o k, ((places (fun i => (ll i).toNat) n).symm^[k + 1 + 1] o : ℕ)) := by
    intro k
    have hlt := ((places (fun i => (ll i).toNat) n).symm^[k + 1] o).isLt
    rw [BZ_GET_FAST, if_neg (by omega), startFast]
    dsimp only
    rw [hshift, Function.iterate_succ_apply' _ (k + 1), hentry,
      Nat.and_two_pow_sub_one_eq_mod _ 8, Nat.add_mul_mod_self_left,
      Nat.mod_eq_of_lt (UInt8.toNat_lt _),
      UInt8.ofNat_toNat, letterRead]
  have hstart : (startFast n o tt cftab).2 =
      ((places (fun i => (ll i).toNat) n).symm^[0 + 1] o : ℕ) := hshift o
  rw [hstart, yields_iff (fun k => ((places (fun i => (ll i).toNat) n).symm^[k + 1] o : ℕ)) hget
    bs 0]
  simp only [Nat.zero_add]

lemma startSmall_yields_iff_letters {s : SmallBlock} {cftab : ℕ → ℕ} (hn : n ≤ 900000)
    (hsize : n ≤ 100000 * blockSize100k) (hll16 : ∀ i < n, s.ll16 i = (ll i).toNat)
    (hcftab : ∀ c ≤ 256, cftab c = below (fun i => (ll i).toNat) n c) (o : Fin n) :
    ∃ s', startSmall n o s cftab = some s' ∧ ∀ bs,
      (Yields (BZ_GET_SMALL blockSize100k s' cftab) o bs ↔
        bs = (List.range bs.length).map (letterRead ll o)) := by
  have hplace := forUpto_link hn (letter_lt ll n) hll16 hcftab
  have hpos := minimalPeriod_pos (places (fun i => (ll i).toNat) n) o
  have hstart : Reversed (places (fun i => (ll i).toNat) n) o 0
      (forUpto 0 n SmallBlock.link (s, cftab)).1 := by
    constructor
    · exact fun r hr => absurd hr (Nat.not_lt_zero r)
    · intro r _ _
      rw [hplace, Function.iterate_succ_apply' _ (r + 1)]
  have hfuel : Function.minimalPeriod (places (fun i => (ll i).toNat) n) o ≤ 0 + n := by
    have hle := Function.minimalPeriod_le_card (f := places (fun i => (ll i).toNat) n) (x := o)
    rw [Fintype.card_fin] at hle
    omega
  obtain ⟨s', hrun, hs'⟩ := reversePointers_spec hn n hpos hfuel hstart
  refine ⟨s', ?_, fun bs => ?_⟩
  · rw [startSmall, hplace]
    exact hrun
  · have hget : ∀ k, BZ_GET_SMALL blockSize100k s' cftab
        ((places (fun i => (ll i).toNat) n).symm^[k] o : ℕ) =
          some (letterRead ll o k, ((places (fun i => (ll i).toNat) n).symm^[k + 1] o : ℕ)) := by
      intro k
      have hlt := ((places (fun i => (ll i).toNat) n).symm^[k] o).isLt
      have hback : ((places (fun i => (ll i).toNat) n).symm^[k] o : ℕ) =
          position (fun i => (ll i).toNat) n
            ((places (fun i => (ll i).toNat) n).symm^[k + 1] o) := by
        rw [← val_places, Function.iterate_succ_apply', Equiv.apply_symm_apply]
      rw [BZ_GET_SMALL, if_neg (by omega), hs'.symm k, hback,
        indexIntoF_position hcftab (letter_lt ll n) (Fin.isLt _), UInt8.ofNat_toNat, letterRead]
    have hyields := yields_iff (fun k => ((places (fun i => (ll i).toNat) n).symm^[k] o : ℕ))
      hget bs 0
    simp only [Nat.zero_add] at hyields
    exact hyields

/-- **The small mode reads what the fast one reads**, and neither leaves the block, however much is
read. Both are given the letters, whatever they are, and how often each occurs. -/
theorem startSmall_yields_iff (ll : ℕ → UInt8) (blockSize100k : ℕ) (tt : ℕ → ℕ) (s : SmallBlock)
    (cftab : ℕ → ℕ) {origPtr : ℕ} (h9 : blockSize100k ≤ 9) (hsize : n ≤ 100000 * blockSize100k)
    (htt : ∀ i < n, tt i = (ll i).toNat) (hll16 : ∀ i < n, s.ll16 i = (ll i).toNat)
    (hunzftab : ∀ c < 256, unzftab c = count (fun i => (ll i).toNat) n c) (ho : origPtr < n) :
    ∃ s', startSmall n origPtr s (generateCftab unzftab cftab) = some s' ∧
      (∀ bs, Yields (BZ_GET_SMALL blockSize100k s' (generateCftab unzftab cftab)) origPtr bs ↔
        Yields (BZ_GET_FAST blockSize100k
          (startFast n origPtr tt (generateCftab unzftab cftab)).1)
          (startFast n origPtr tt (generateCftab unzftab cftab)).2 bs) ∧
      ∀ k, ∃ bs, bs.length = k ∧
        Yields (BZ_GET_SMALL blockSize100k s' (generateCftab unzftab cftab)) origPtr bs := by
  have hcftab := generateCftab_spec hunzftab cftab
  have hfast := startFast_yields_iff hsize htt hcftab ⟨origPtr, ho⟩
  obtain ⟨s', hrun, hsmall⟩ :=
    startSmall_yields_iff_letters (by omega) hsize hll16 hcftab ⟨origPtr, ho⟩
  refine ⟨s', hrun, fun bs => (hsmall bs).trans (hfast bs).symm, fun k => ?_⟩
  refine ⟨(List.range k).map (letterRead ll ⟨origPtr, ho⟩), ?_, (hsmall _).mpr ?_⟩
  · rw [List.length_map, List.length_range]
  · rw [List.length_map, List.length_range]

theorem startSmall_yields_iff_three :
    ∃ s', startSmall 3 2 ⟨fun i => ([98, 97, 98] : List UInt8)[i]!.toNat, fun _ => 0⟩
        (generateCftab (count (fun i => ([98, 97, 98] : List UInt8)[i]!.toNat) 3) fun _ => 0) =
          some s' ∧
      ∀ k, ∃ bs, bs.length = k ∧
        Yields (BZ_GET_SMALL 1 s'
          (generateCftab (count (fun i => ([98, 97, 98] : List UInt8)[i]!.toNat) 3) fun _ => 0))
          2 bs := by
  obtain ⟨s', hrun, -, hreads⟩ := startSmall_yields_iff (fun i => ([98, 97, 98] : List UInt8)[i]!) 1
    (fun i => ([98, 97, 98] : List UInt8)[i]!.toNat)
    ⟨fun i => ([98, 97, 98] : List UInt8)[i]!.toNat, fun _ => 0⟩ (fun _ => 0) (by decide)
    (by decide) (fun _ _ => rfl) (fun _ _ => rfl) (fun _ _ => rfl) (show 2 < 3 by decide)
  exact ⟨s', hrun, hreads⟩

end

section

open BurrowsWheeler

variable {n : ℕ} [NeZero n] {text : Fin n → UInt8} {ptr : Equiv.Perm (Fin n)}

/-- The letters of the sorted rows are read in the order of the text. -/
lemma letterRead_eq_text {ll : ℕ → UInt8} (hsorts : Sorts (fun i => (text i).toNat) ptr)
    (hll : ∀ i : Fin n, ll i = text (ptr i - 1)) {o : Fin n} (ho : ptr o = 0) (k : ℕ) :
    letterRead ll o k = text (Fin.ofNat n k) := by
  have hkey : last (fun i => (text i).toNat) ptr = fun i : Fin n => (ll i).toNat :=
    funext fun i => congrArg UInt8.toNat (hll i).symm
  have hstably := stablySorts_places (fun i => (ll i).toNat) n
  have hlast := last_iterate hsorts (hkey ▸ hstably) ho k
  rw [hkey] at hlast
  exact UInt8.toNat_inj.mp hlast

/-- **The text is read again.** What is read from the last letters of the sorted rows of a text,
from the row that begins with it, is the text, over and over. -/
theorem startFast_yields_text (text : Fin n → UInt8) (ptr : Equiv.Perm (Fin n)) (ll : ℕ → UInt8)
    (blockSize100k : ℕ) (cftab : ℕ → ℕ) {origPtr : ℕ} {unzftab tt : ℕ → ℕ}
    (hsize : n ≤ 100000 * blockSize100k)
    (htt : ∀ i < n, tt i = (ll i).toNat)
    (hunzftab : ∀ c < 256, unzftab c = count (fun i => (ll i).toNat) n c)
    (hsorts : Sorts (fun i => (text i).toNat) ptr) (hll : ∀ i : Fin n, ll i = text (ptr i - 1))
    (ho : origPtr < n) (horig : ptr ⟨origPtr, ho⟩ = 0) (m : ℕ) :
    Yields (BZ_GET_FAST blockSize100k (startFast n origPtr tt (generateCftab unzftab cftab)).1)
      (startFast n origPtr tt (generateCftab unzftab cftab)).2
      ((List.range m).map fun k => text (Fin.ofNat n k)) := by
  have hcftab := generateCftab_spec hunzftab cftab
  rw [startFast_yields_iff hsize htt hcftab ⟨origPtr, ho⟩, List.length_map, List.length_range]
  refine List.map_congr_left fun k _ => ?_
  exact (letterRead_eq_text hsorts hll horig k).symm

theorem startFast_yields_text_two :
    Yields (BZ_GET_FAST 1 (startFast 2 1 (fun i => if i = 0 then 98 else 97)
        (generateCftab (count (fun i => (if i = 0 then 98 else 97 : UInt8).toNat) 2) fun _ => 0)).1)
      (startFast 2 1 (fun i => if i = 0 then 98 else 97)
        (generateCftab (count (fun i => (if i = 0 then 98 else 97 : UInt8).toNat) 2) fun _ => 0)).2
      ((List.range 5).map fun k => if Fin.ofNat 2 k = 0 then 98 else 97) := by
  refine startFast_yields_text (fun i : Fin 2 => if i = 0 then 98 else 97) (Equiv.swap 0 1)
    (fun i => if i = 0 then 98 else 97) 1 (fun _ => 0) (by decide) ?_ (fun _ _ => rfl) ?_
    (by decide) (by decide) (by decide) 5
  · intro i _
    split <;> rfl
  · intro i j hij
    rcases hij.lt_or_eq with hlt | heq
    · have hi : i = 0 := by omega
      have hj : j = 1 := by omega
      rw [hi, hj]
      exact le_of_lt ⟨0, fun k hk => absurd hk (Fin.not_lt_zero k), by decide⟩
    · rw [heq]

end

end Bzip2
end ClamavWin32
