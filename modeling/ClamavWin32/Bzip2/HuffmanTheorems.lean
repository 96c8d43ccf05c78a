import ClamavWin32.Bzip2.Huffman
import ClamavWin32.Semantics.CanonicalCode
import Mathlib.Tactic.Ring

/-!
# Codes and decoding tables: what the loops compute

* `hbAssignCodes_spec`, `createDecodeTables_spec`: the codes are the canonical ones, and the tables
  are the bounds between the lengths;
* `decode_lt_alphaSize`: whatever the lengths are, a symbol that is read is one of the alphabet;
* `decode_code`: every code is read back.
-/

namespace ClamavWin32
namespace Bzip2

open CanonicalCode BitString

variable {length : ℕ → ℕ} {minLen maxLen alphaSize : ℕ}

/-- The bounds that the callers pass. -/
structure Bounds (length : ℕ → ℕ) (minLen maxLen alphaSize : ℕ) : Prop where
  min_le : ∀ i < alphaSize, minLen ≤ length i
  le_max : ∀ i < alphaSize, length i ≤ maxLen
  le : minLen ≤ maxLen

/-- Every length is between the least and the greatest. -/
lemma minMaxLen_spec (length : ℕ → ℕ) (alphaSize : ℕ) :
    ∀ i < alphaSize, (minMaxLen length alphaSize).1 ≤ length i ∧
      length i ≤ (minMaxLen length alphaSize).2 := by
  refine forUpto_invariant
    (P := fun k (s : ℕ × ℕ) => ∀ i < k, s.1 ≤ length i ∧ length i ≤ s.2)
    (Nat.zero_le _) (fun i hi => absurd hi (Nat.not_lt_zero i)) ?_
  intro k s _ hk ih i hi
  rcases Nat.lt_succ_iff_lt_or_eq.mp hi with hi | rfl
  · obtain ⟨hlo, hhi⟩ := ih i hi
    constructor
    · dsimp only
      split <;> omega
    · dsimp only
      split <;> omega
  · constructor
    · dsimp only
      split <;> omega
    · dsimp only
      split <;> omega

lemma minMaxLen_bounds (length : ℕ → ℕ) (hpos : 0 < alphaSize) :
    Bounds length (minMaxLen length alphaSize).1 (minMaxLen length alphaSize).2 alphaSize where
  min_le i hi := (minMaxLen_spec length alphaSize i hi).1
  le_max i hi := (minMaxLen_spec length alphaSize i hi).2
  le := (minMaxLen_spec length alphaSize 0 hpos).1.trans (minMaxLen_spec length alphaSize 0 hpos).2

/-! ## Codes -/

/-- The codes of `n` bits are assigned. -/
lemma assignCode_spec (length : ℕ → ℕ) (alphaSize : ℕ) (code : ℕ → ℤ) (vec : ℤ) (n : ℕ) :
    (forUpto 0 alphaSize (assignCode length n) (code, vec)).2 = vec + count length alphaSize n ∧
      ∀ i, (forUpto 0 alphaSize (assignCode length n) (code, vec)).1 i =
        if i < alphaSize ∧ length i = n then vec + rank length i else code i := by
  refine forUpto_invariant (P := fun k (s : (ℕ → ℤ) × ℤ) => s.2 = vec + count length k n ∧
    ∀ i, s.1 i = if i < k ∧ length i = n then vec + rank length i else code i)
    (Nat.zero_le _) ⟨?_, ?_⟩ ?_
  · simp [count]
  · intro i
    simp
  · rintro k s - hk ⟨hvec, hcode⟩
    rw [assignCode]
    by_cases hn : length k = n
    · rw [if_pos hn, count_succ_of_eq hn]
      constructor
      · rw [hvec]
        push_cast
        ring
      · intro i
        dsimp only
        by_cases hik : i = k
        · subst hik
          rw [Function.update_self, if_pos ⟨Nat.lt_succ_self i, hn⟩, hvec, rank_eq_count hn]
        · have hlt : i < k + 1 ↔ i < k := by omega
          rw [Function.update_of_ne hik, hcode]
          simp only [hlt]
    · rw [if_neg hn, count_succ_of_ne hn]
      refine ⟨hvec, fun i => ?_⟩
      have hlt : i < k + 1 ∧ length i = n ↔ i < k ∧ length i = n := by
        constructor
        · rintro ⟨hi, hin⟩
          have hik : i ≠ k := fun h => hn (h ▸ hin)
          exact ⟨by omega, hin⟩
        · rintro ⟨hi, hin⟩
          exact ⟨by omega, hin⟩
      rw [hcode]
      simp only [hlt]

/-- **`BZ2_hbAssignCodes`** assigns the canonical codes. -/
theorem hbAssignCodes_spec (h : Bounds length minLen maxLen alphaSize) (code₀ : ℕ → ℤ) {i : ℕ}
    (hi : i < alphaSize) :
    hbAssignCodes code₀ length minLen maxLen alphaSize i = code length alphaSize i := by
  have hrun : ∀ i < alphaSize, length i < maxLen + 1 →
      hbAssignCodes code₀ length minLen maxLen alphaSize i = code length alphaSize i := by
    refine (forUpto_invariant (P := fun n (s : (ℕ → ℤ) × ℤ) =>
      s.2 = first length alphaSize n ∧
        ∀ i < alphaSize, length i < n → s.1 i = code length alphaSize i)
      (h.le.trans (Nat.le_succ _)) ⟨?_, ?_⟩ ?_).2
    · rw [first_eq_zero h.min_le]
      rfl
    · exact fun i hi hlt => absurd (h.min_le i hi) (not_le.mpr hlt)
    · rintro n s - - ⟨hvec, hcode⟩
      obtain ⟨hvec', hcode'⟩ := assignCode_spec length alphaSize s.1 s.2 n
      constructor
      · dsimp only
        rw [hvec', hvec, first, Int.shiftLeft_eq]
        push_cast
        ring
      · intro i hi hlt
        dsimp only
        rw [hcode']
        by_cases hn : length i = n
        · rw [if_pos ⟨hi, hn⟩, hvec, code, hn]
          push_cast
          rfl
        · rw [if_neg fun hin => hn hin.2]
          exact hcode i hi (by omega)
  exact hrun i hi (Nat.lt_succ_of_le (h.le_max i hi))

/-! ## Decoding tables -/

/-- The symbols of one length are in `perm`, behind what is there. -/
lemma putPerm_spec (length : ℕ → ℕ) (alphaSize : ℕ) (perm : ℕ → ℕ) (pp n : ℕ) :
    (forUpto 0 alphaSize (putPerm length n) (perm, pp)).2 = pp + count length alphaSize n ∧
      (∀ i < alphaSize, length i = n →
        (forUpto 0 alphaSize (putPerm length n) (perm, pp)).1 (pp + rank length i) = i) ∧
      ∀ q < pp, (forUpto 0 alphaSize (putPerm length n) (perm, pp)).1 q = perm q := by
  refine forUpto_invariant (P := fun k (s : (ℕ → ℕ) × ℕ) => s.2 = pp + count length k n ∧
    (∀ i < k, length i = n → s.1 (pp + rank length i) = i) ∧ ∀ q < pp, s.1 q = perm q)
    (Nat.zero_le _) ⟨rfl, fun i hi => absurd hi (Nat.not_lt_zero i), fun q _ => rfl⟩ ?_
  rintro k s - hk ⟨hpp, hput, hkeep⟩
  rw [putPerm]
  by_cases hn : length k = n
  · rw [if_pos hn, count_succ_of_eq hn, hpp, Nat.add_assoc]
    refine ⟨rfl, fun i hi hin => ?_, fun q hq => ?_⟩
    · dsimp only
      rcases Nat.lt_succ_iff_lt_or_eq.mp hi with hi | rfl
      · -- an earlier symbol has a smaller rank
        have hrank : rank length i < count length k n := hin ▸ rank_lt length hi
        rw [Function.update_of_ne (by omega), hput i hi hin]
      · rw [rank_eq_count hn, Function.update_self]
    · dsimp only
      rw [Function.update_of_ne (by omega), hkeep q hq]
  · rw [if_neg hn, count_succ_of_ne hn]
    refine ⟨hpp, fun i hi hin => ?_, hkeep⟩
    have hik : i ≠ k := fun h => hn (h ▸ hin)
    exact hput i (by omega) hin

/-- `perm` lists the symbols by their lengths. -/
lemma perm_spec (h : Bounds length minLen maxLen alphaSize) (perm₀ : ℕ → ℕ) :
    ∀ i < alphaSize, (forUpto minLen (maxLen + 1) (fun n s =>
      forUpto 0 alphaSize (putPerm length n) s) (perm₀, 0)).1
        (position length alphaSize i) = i := by
  have hrun : ∀ i < alphaSize, length i < maxLen + 1 → (forUpto minLen (maxLen + 1) (fun n s =>
      forUpto 0 alphaSize (putPerm length n) s) (perm₀, 0)).1
        (position length alphaSize i) = i := by
    refine (forUpto_invariant (P := fun n (s : (ℕ → ℕ) × ℕ) =>
      s.2 = below length alphaSize n ∧
        ∀ i < alphaSize, length i < n → s.1 (position length alphaSize i) = i)
      (h.le.trans (Nat.le_succ _)) ⟨?_, ?_⟩ ?_).2
    · exact (below_eq_zero h.min_le).symm
    · exact fun i hi hlt => absurd (h.min_le i hi) (not_le.mpr hlt)
    · rintro n s - - ⟨hpp, hput⟩
      obtain ⟨hpp', hput', hkeep⟩ :=
        putPerm_spec length alphaSize s.1 s.2 n
      refine ⟨?_, fun i hi hlt => ?_⟩
      · rw [below_succ, ← hpp]
        exact hpp'
      · rcases Nat.lt_succ_iff_lt_or_eq.mp hlt with hlt | heq
        · -- the places of the shorter codes are before `pp`
          have hrank := rank_lt length hi
          have hle := below_mono length alphaSize (show length i + 1 ≤ n from hlt)
          rw [below_succ] at hle
          rw [hkeep _ (by rw [position]; omega)]
          exact hput i hi hlt
        · rw [position, heq, ← hpp]
          exact hput' i hi heq
  exact fun i hi => hrun i hi (Nat.lt_succ_of_le (h.le_max i hi))

/-- Zeroes are stored. -/
lemma zero_spec (a : ℕ → ℤ) (m : ℕ) :
    ∀ x < m, forUpto 0 m (fun i a => Function.update a i 0) a x = 0 := by
  refine forUpto_invariant (P := fun k (a : ℕ → ℤ) => ∀ x < k, a x = 0)
    (Nat.zero_le _) (fun x hx => absurd hx (Nat.not_lt_zero x)) ?_
  intro k a _ _ ih x hx
  by_cases hxk : x = k
  · rw [hxk, Function.update_self]
  · rw [Function.update_of_ne hxk, ih x (by omega)]

/-- `base[n + 1]` counts the codes of `n` bits. -/
lemma base_count_spec (a : ℕ → ℤ) (m : ℕ) (ha : ∀ x < m, a x = 0) :
    ∀ n, n + 1 < m → forUpto 0 alphaSize (fun i base =>
      Function.update base (length i + 1) (base (length i + 1) + 1)) a (n + 1) =
        count length alphaSize n := by
  refine forUpto_invariant (P := fun k (base : ℕ → ℤ) => ∀ n, n + 1 < m →
    base (n + 1) = count length k n) (Nat.zero_le _) ?_ ?_
  · intro n hn
    rw [ha _ hn]
    rfl
  · intro k base _ _ ih n hn
    by_cases hk : length k = n
    · rw [hk, Function.update_self, ih n hn, count_succ_of_eq hk]
      push_cast
      rfl
    · rw [Function.update_of_ne (by omega), ih n hn, count_succ_of_ne hk]

lemma base_count_zero (a : ℕ → ℤ) : forUpto 0 alphaSize (fun i base =>
    Function.update base (length i + 1) (base (length i + 1) + 1)) a 0 = a 0 := by
  refine forUpto_invariant (P := fun _ (base : ℕ → ℤ) => base 0 = a 0) (Nat.zero_le _) rfl ?_
  intro k base _ _ ih
  rw [Function.update_of_ne (by omega), ih]

/-- The sums of the counts: `base[n]` is the number of shorter codes. -/
lemma base_sum_spec {m : ℕ} (hm : 1 ≤ m) (a : ℕ → ℤ) (ha0 : a 0 = 0)
    (ha : ∀ n, n + 1 < m → a (n + 1) = count length alphaSize n) :
    ∀ n < m, forUpto 1 m (fun i base => Function.update base i (base i + base (i - 1))) a n =
      below length alphaSize n := by
  refine (forUpto_invariant (P := fun k (base : ℕ → ℤ) =>
    (∀ x, k ≤ x → base x = a x) ∧ ∀ n < k, base n = below length alphaSize n)
    hm ⟨fun x _ => rfl, ?_⟩ ?_).2
  · intro n hn
    have hzero : n = 0 := by omega
    rw [hzero, ha0, below_eq_zero fun i _ => Nat.zero_le _]
    rfl
  · rintro k base hk hkm ⟨hrest, hsum⟩
    refine ⟨fun x hx => ?_, fun n hn => ?_⟩
    · rw [Function.update_of_ne (by omega), hrest x (by omega)]
    · by_cases hnk : n = k
      · obtain ⟨k, rfl⟩ : ∃ j, k = j + 1 := ⟨k - 1, by omega⟩
        rw [hnk, Function.update_self, hrest _ (le_refl _), ha k hkm, Nat.add_sub_cancel,
          hsum k (Nat.lt_succ_self k), below_succ]
        push_cast
        ring
      · rw [Function.update_of_ne hnk, hsum n (by omega)]

/-- `limit[n]` is the last code of `n` bits. -/
lemma limit_spec {base : ℕ → ℤ} (h : Bounds length minLen maxLen alphaSize)
    (hbase : ∀ n ≤ maxLen + 1, base n = below length alphaSize n) (a : ℕ → ℤ) :
    (∀ n, minLen ≤ n → n ≤ maxLen → (forUpto minLen (maxLen + 1) (fun i s =>
      (Function.update s.1 i (s.2 + (base (i + 1) - base i) - 1),
        (s.2 + (base (i + 1) - base i)) <<< (1 : ℕ))) (a, 0)).1 n =
          first length alphaSize n + count length alphaSize n - 1) ∧
      ∀ n, maxLen < n → (forUpto minLen (maxLen + 1) (fun i s =>
        (Function.update s.1 i (s.2 + (base (i + 1) - base i) - 1),
          (s.2 + (base (i + 1) - base i)) <<< (1 : ℕ))) (a, 0)).1 n = a n := by
  have hrun := forUpto_invariant (P := fun k (s : (ℕ → ℤ) × ℤ) =>
    s.2 = first length alphaSize k ∧
      (∀ n, minLen ≤ n → n < k →
        s.1 n = first length alphaSize n + count length alphaSize n - 1) ∧
      ∀ n, k ≤ n → s.1 n = a n) (s := (a, 0)) (f := fun i s =>
      (Function.update s.1 i (s.2 + (base (i + 1) - base i) - 1),
        (s.2 + (base (i + 1) - base i)) <<< (1 : ℕ)))
    (h.le.trans (Nat.le_succ _))
    ⟨?_, fun n hlo hhi => absurd hlo (not_le.mpr hhi), fun n _ => rfl⟩ ?_
  · exact ⟨fun n hlo hhi => hrun.2.1 n hlo (Nat.lt_succ_of_le hhi), hrun.2.2⟩
  · rw [first_eq_zero h.min_le]
    rfl
  · rintro k s hk hkmax ⟨hvec, hlimit, hrest⟩
    have hcount : base (k + 1) - base k = count length alphaSize k := by
      rw [hbase _ (by omega), hbase _ (by omega), below_succ]
      push_cast
      ring
    refine ⟨?_, fun n hlo hhi => ?_, fun n hn => ?_⟩
    · dsimp only
      rw [hcount, hvec, first, Int.shiftLeft_eq]
      push_cast
      ring
    · dsimp only
      by_cases hnk : n = k
      · rw [hnk, Function.update_self, hcount, hvec]
      · rw [Function.update_of_ne hnk, hlimit n hlo (by omega)]
    · dsimp only
      rw [Function.update_of_ne (by omega), hrest n (by omega)]

/-- `base[n]` is what takes a code of `n` bits to its place. -/
lemma base_spec {base limit : ℕ → ℤ} (h : Bounds length minLen maxLen alphaSize)
    (hbase : ∀ n ≤ maxLen + 1, base n = below length alphaSize n)
    (hlimit : ∀ n, minLen ≤ n → n ≤ maxLen →
      limit n = first length alphaSize n + count length alphaSize n - 1) :
    ∀ n, minLen ≤ n → n ≤ maxLen → forUpto (minLen + 1) (maxLen + 1) (fun i base =>
      Function.update base i (((limit (i - 1) + 1) <<< (1 : ℕ)) - base i)) base n =
        first length alphaSize n - below length alphaSize n := by
  have hrun := forUpto_invariant (P := fun k (b : ℕ → ℤ) =>
    (∀ n, minLen ≤ n → n < k → b n = first length alphaSize n - below length alphaSize n) ∧
      ∀ n, k ≤ n → b n = base n) (s := base) (f := fun i b =>
      Function.update b i (((limit (i - 1) + 1) <<< (1 : ℕ)) - b i))
    (Nat.succ_le_succ h.le) ⟨?_, fun n _ => rfl⟩ ?_
  · exact fun n hlo hhi => hrun.1 n hlo (Nat.lt_succ_of_le hhi)
  · -- the codes of `minLen` bits are the first ones
    intro n hlo hhi
    have hn : n = minLen := by omega
    rw [hn, hbase _ (h.le.trans (Nat.le_succ _)), below_eq_zero h.min_le, first_eq_zero h.min_le]
    rfl
  · rintro k b hk hkmax ⟨hdone, hrest⟩
    refine ⟨fun n hlo hhi => ?_, fun n hn => ?_⟩
    · by_cases hnk : n = k
      · obtain ⟨k, rfl⟩ : ∃ j, k = j + 1 := ⟨k - 1, by omega⟩
        rw [hnk, Function.update_self, hrest _ (le_refl _), hbase _ (by omega), Nat.add_sub_cancel,
          hlimit k (by omega) (by omega), first, Int.shiftLeft_eq]
        push_cast
        ring
      · rw [Function.update_of_ne hnk, hdone n hlo (by omega)]
    · rw [Function.update_of_ne (by omega), hrest n (by omega)]

lemma base_rest {base limit : ℕ → ℤ} (hle : minLen ≤ maxLen) :
    ∀ n, maxLen < n → forUpto (minLen + 1) (maxLen + 1) (fun i base =>
      Function.update base i (((limit (i - 1) + 1) <<< (1 : ℕ)) - base i)) base n = base n := by
  refine forUpto_invariant (P := fun _ (b : ℕ → ℤ) => ∀ n, maxLen < n → b n = base n)
    (Nat.succ_le_succ hle) (fun n _ => rfl) ?_
  intro k b _ hk ih n hn
  rw [Function.update_of_ne (by omega), ih n hn]

/-- What the tables of these lengths are. -/
structure TableOf (t : DecodeTable) (length : ℕ → ℕ) (minLen maxLen alphaSize : ℕ) : Prop where
  limit_eq : ∀ n, minLen ≤ n → n ≤ maxLen →
    t.limit n = first length alphaSize n + count length alphaSize n - 1
  base_eq : ∀ n, minLen ≤ n → n ≤ maxLen →
    t.base n = first length alphaSize n - below length alphaSize n
  limit_rest : ∀ n, maxLen < n → n ≤ 20 → t.limit n = 0
  base_rest : ∀ n, maxLen < n → n ≤ 20 → t.base n = alphaSize
  perm_eq : ∀ i < alphaSize, t.perm (position length alphaSize i) = i

/-- **`BZ2_hbCreateDecodeTables`** -/
theorem createDecodeTables_spec (h : Bounds length minLen maxLen alphaSize) (hmax : maxLen ≤ 20)
    (t : DecodeTable) :
    TableOf (hbCreateDecodeTables t length minLen maxLen alphaSize) length minLen maxLen
      alphaSize := by
  have hzero := zero_spec t.base BZ_MAX_CODE_LEN
  have hbase := base_sum_spec (m := BZ_MAX_CODE_LEN) (by decide)
    (forUpto 0 alphaSize (fun i base =>
      Function.update base (length i + 1) (base (length i + 1) + 1))
      (forUpto 0 BZ_MAX_CODE_LEN (fun i base => Function.update base i 0) t.base))
    ((base_count_zero _).trans (hzero 0 (by decide))) (base_count_spec _ _ hzero)
  have hle : ∀ n ≤ maxLen + 1, n < BZ_MAX_CODE_LEN := by
    intro n hn
    rw [BZ_MAX_CODE_LEN]
    omega
  have hlimit := limit_spec h (fun n hn => hbase n (hle n hn))
    (forUpto 0 BZ_MAX_CODE_LEN (fun i limit => Function.update limit i 0) t.limit)
  refine ⟨hlimit.1, base_spec h (fun n hn => hbase n (hle n hn)) hlimit.1, ?_, ?_,
    perm_spec h t.perm⟩
  · intro n hn hn20
    refine (hlimit.2 n hn).trans (zero_spec t.limit BZ_MAX_CODE_LEN n ?_)
    rw [BZ_MAX_CODE_LEN]
    omega
  · intro n hn hn20
    refine (base_rest h.le n hn).trans ((hbase n ?_).trans ?_)
    · rw [BZ_MAX_CODE_LEN]
      omega
    · rw [below_eq_all fun i hi => lt_of_le_of_lt (h.le_max i hi) hn]

/-! ## Decoding -/

lemma shiftLeft_or_bit (zvec : ℕ) (zj : Bool) :
    (zvec <<< 1) ||| zj.toNat = 2 * zvec + zj.toNat := by
  have hlt : zj.toNat < 2 ^ 1 := lt_of_le_of_lt (Bool.toNat_le zj) (by decide)
  rw [← Nat.shiftLeft_add_eq_or_of_lt hlt, Nat.shiftLeft_eq, pow_one, Nat.mul_comm]

/-- Some code is not longer than `maxLen`, so the codes that would be longer do not begin at 0. -/
lemma first_pos (h : Bounds length minLen maxLen alphaSize) (hpos : 0 < alphaSize) {n : ℕ}
    (hn : maxLen < n) : 0 < first length alphaSize n := by
  have hcode := code_lt length hpos
  have hfirst := first_add_count_mul_le length alphaSize
    (lt_of_le_of_lt (h.le_max 0 hpos) hn)
  refine lt_of_lt_of_le (Nat.mul_pos (by omega) (Nat.two_pow_pos _)) hfirst

/-- What is read at each length: the number so far is not among the codes that are shorter, and the
bound of the length tells whether it is a code. -/
lemma le_limit_iff {t : DecodeTable} (ht : TableOf t length minLen maxLen alphaSize)
    (h : Bounds length minLen maxLen alphaSize) (hpos : 0 < alphaSize) {zn zvec : ℕ}
    (hzn : minLen ≤ zn) (hzn20 : zn ≤ 20) (hfirst : first length alphaSize zn ≤ zvec) :
    (zvec : ℤ) ≤ t.limit zn ↔
      zvec < first length alphaSize zn + count length alphaSize zn := by
  by_cases hmax : zn ≤ maxLen
  · rw [ht.limit_eq zn hzn hmax]
    omega
  · have hfirst_pos := first_pos h hpos (not_le.mp hmax)
    have hcount : count length alphaSize zn = 0 := by
      rw [count, Nat.count_iff_forall_not]
      intro i hi heq
      have := h.le_max i hi
      omega
    rw [ht.limit_rest zn (not_le.mp hmax) hzn20, hcount]
    omega

/-- A code of `zn` bits is read: the index is the place of its symbol. -/
lemma index_eq {t : DecodeTable} (ht : TableOf t length minLen maxLen alphaSize)
    (h : Bounds length minLen maxLen alphaSize) {i : ℕ} (hi : i < alphaSize) :
    (code length alphaSize i : ℤ) - t.base (length i) = position length alphaSize i := by
  rw [ht.base_eq _ (h.min_le i hi) (h.le_max i hi), code, position]
  push_cast
  ring

/-- The bits so far are a code of their length or the beginning of a longer one, never both. -/
lemma length_eq_iff {pre bits rest : List Bool} {v : ℕ} (hv : v < alphaSize)
    (hle : pre.length ≤ length v) (hc : code length alphaSize v < 2 ^ length v)
    (h : pre ++ bits = ofNat (length v) (code length alphaSize v) ++ rest) :
    pre.length = length v ↔
      toNat pre < first length alphaSize pre.length + count length alphaSize pre.length := by
  have hpre := toNat_prefix hle hc h
  rcases Nat.eq_or_lt_of_le hle with heq | hlt
  · rw [heq, Nat.sub_self, pow_zero, Nat.div_one] at hpre
    rw [hpre, heq]
    exact iff_of_true rfl (code_lt length hv)
  · rw [hpre]
    exact iff_of_false hlt.ne (not_lt.mpr (first_add_count_le_div hlt))

section

variable {t : DecodeTable} (ht : TableOf t length minLen maxLen alphaSize)
  (h : Bounds length minLen maxLen alphaSize) (hpos : 0 < alphaSize)
include ht h hpos

/-- The loop ends at a code, and its symbol is found. -/
lemma decodeFrom_of_lt (hsize : alphaSize ≤ BZ_MAX_ALPHA_SIZE) {pre : List Bool}
    (hzn : minLen ≤ pre.length) (hzn20 : pre.length ≤ 20)
    (hfirst : first length alphaSize pre.length ≤ toNat pre)
    (hlt : toNat pre < first length alphaSize pre.length + count length alphaSize pre.length)
    (bits : List Bool) :
    ∃ i < alphaSize, length i = pre.length ∧ code length alphaSize i = toNat pre ∧
      decodeFrom t pre.length (toNat pre) bits = .symbol i bits := by
  obtain ⟨i, hi, hlen, hrank⟩ := exists_rank length (N := alphaSize)
    (n := pre.length) (r := toNat pre - first length alphaSize pre.length) (by omega)
  have hcode : code length alphaSize i = toNat pre := by
    rw [code, hlen, hrank]
    omega
  have hindex := index_eq ht h hi
  rw [hlen, hcode] at hindex
  have hplace := position_lt length hi
  have hrange : ¬ ((position length alphaSize i : ℤ) < 0 ∨
      (position length alphaSize i : ℤ) ≥ (BZ_MAX_ALPHA_SIZE : ℤ)) := by
    omega
  refine ⟨i, hi, hlen, hcode, ?_⟩
  rw [decodeFrom.eq_def, if_neg (by omega),
    if_pos ((le_limit_iff ht h hpos hzn hzn20 hfirst).mpr hlt), hindex, if_neg hrange,
    Int.toNat_natCast, ht.perm_eq i hi]

lemma decodeFrom_nil {pre : List Bool} (hzn : minLen ≤ pre.length) (hzn20 : pre.length ≤ 20)
    (hfirst : first length alphaSize pre.length ≤ toNat pre)
    (hge : ¬ toNat pre < first length alphaSize pre.length + count length alphaSize pre.length) :
    decodeFrom t pre.length (toNat pre) [] = .more := by
  rw [decodeFrom.eq_def, if_neg (by omega),
    if_neg (mt (le_limit_iff ht h hpos hzn hzn20 hfirst).mp hge)]

lemma decodeFrom_cons {pre : List Bool} (hzn : minLen ≤ pre.length) (hzn20 : pre.length ≤ 20)
    (hfirst : first length alphaSize pre.length ≤ toNat pre)
    (hge : ¬ toNat pre < first length alphaSize pre.length + count length alphaSize pre.length)
    (zj : Bool) (bits : List Bool) :
    decodeFrom t pre.length (toNat pre) (zj :: bits) =
      decodeFrom t (pre ++ [zj]).length (toNat (pre ++ [zj])) bits := by
  rw [decodeFrom.eq_def, if_neg (by omega),
    if_neg (mt (le_limit_iff ht h hpos hzn hzn20 hfirst).mp hge), toNat_concat,
    List.length_append, List.length_singleton]
  dsimp only
  rw [shiftLeft_or_bit]

/-- A run of `decodeFrom`, for the bits `pre` read before: the symbol is the one whose code the bits
begin with. -/
lemma decodeFrom_eq_symbol_iff (hmax : maxLen ≤ 20) (hsize : alphaSize ≤ BZ_MAX_ALPHA_SIZE) (v : ℕ)
    (rest bits : List Bool) :
    ∀ pre : List Bool, minLen ≤ pre.length → first length alphaSize pre.length ≤ toNat pre →
      (decodeFrom t pre.length (toNat pre) bits = .symbol v rest ↔
        v < alphaSize ∧ pre.length ≤ length v ∧ code length alphaSize v < 2 ^ length v ∧
          pre ++ bits = ofNat (length v) (code length alphaSize v) ++ rest) := by
  -- where the loop ends, whatever follows
  have hstop : ∀ {pre bits : List Bool}, minLen ≤ pre.length → pre.length ≤ 20 →
      first length alphaSize pre.length ≤ toNat pre →
      toNat pre < first length alphaSize pre.length + count length alphaSize pre.length →
      (decodeFrom t pre.length (toNat pre) bits = .symbol v rest ↔
        v < alphaSize ∧ pre.length ≤ length v ∧ code length alphaSize v < 2 ^ length v ∧
          pre ++ bits = ofNat (length v) (code length alphaSize v) ++ rest) := by
    intro pre bits hzn hzn20 hfirst hlt
    obtain ⟨i, hi, hlen, hcode, hrun⟩ := decodeFrom_of_lt ht h hpos hsize hzn hzn20 hfirst hlt bits
    rw [hrun, Decoded.symbol.injEq]
    constructor
    · rintro ⟨rfl, rfl⟩
      rw [hlen, hcode, ofNat_toNat rfl]
      exact ⟨hi, le_refl _, toNat_lt pre, rfl⟩
    · rintro ⟨hv, hle, hc, hbits⟩
      have heq := (length_eq_iff hv hle hc hbits).mpr hlt
      have hpre := toNat_prefix hle hc hbits
      rw [heq, Nat.sub_self, pow_zero, Nat.div_one, ← hcode] at hpre
      have hiv : i = v := by
        refine rank_injective (hlen.trans heq) ?_
        rw [code, code, hlen, heq] at hpre
        omega
      subst hiv
      rw [hcode, ← heq, ofNat_toNat rfl] at hbits
      exact ⟨rfl, List.append_cancel_left hbits⟩
  -- no symbol has a code as long as this
  have hlong : ∀ {pre : List Bool}, ¬ pre.length ≤ 20 → v < alphaSize →
      ¬ pre.length ≤ length v := by
    intro pre hlen hv hle
    have := h.le_max v hv
    omega
  have hfail : ∀ {pre bits : List Bool}, ¬ pre.length ≤ 20 →
      decodeFrom t pre.length (toNat pre) bits = .dataError := by
    intro pre bits hlen
    rw [decodeFrom.eq_def, if_pos (by omega)]
  induction bits with
  | nil =>
    intro pre hzn hfirst
    by_cases hzn20 : pre.length ≤ 20
    · by_cases hlt : toNat pre <
          first length alphaSize pre.length + count length alphaSize pre.length
      · exact hstop hzn hzn20 hfirst hlt
      · rw [decodeFrom_nil ht h hpos hzn hzn20 hfirst hlt]
        refine iff_of_false Decoded.noConfusion ?_
        rintro ⟨hv, hle, hc, hbits⟩
        have hlen := congrArg List.length hbits
        rw [List.length_append, List.length_append, length_ofNat, List.length_nil] at hlen
        exact hlt ((length_eq_iff hv hle hc hbits).mp (by omega))
    · rw [hfail hzn20]
      exact iff_of_false Decoded.noConfusion fun h => hlong hzn20 h.1 h.2.1
  | cons zj bits ih =>
    intro pre hzn hfirst
    by_cases hzn20 : pre.length ≤ 20
    · by_cases hlt : toNat pre <
          first length alphaSize pre.length + count length alphaSize pre.length
      · exact hstop hzn hzn20 hfirst hlt
      · have hnext : first length alphaSize (pre ++ [zj]).length ≤ toNat (pre ++ [zj]) := by
          rw [List.length_append, List.length_singleton, first, toNat_concat]
          omega
        have hlen : (pre ++ [zj]).length = pre.length + 1 := List.length_append
        rw [decodeFrom_cons ht h hpos hzn hzn20 hfirst hlt, ih _ (by omega) hnext,
          List.append_assoc, List.singleton_append]
        constructor
        · rintro ⟨hv, hle, hc, hbits⟩
          exact ⟨hv, by omega, hc, hbits⟩
        · rintro ⟨hv, hle, hc, hbits⟩
          have hne := mt (length_eq_iff hv hle hc hbits).mp hlt
          exact ⟨hv, by omega, hc, hbits⟩
    · rw [hfail hzn20]
      exact iff_of_false Decoded.noConfusion fun h => hlong hzn20 h.1 h.2.1

end

/-- **Decoding by the tables.** Whatever the lengths are, up to 20 bits each, a symbol is found
exactly where the bits begin with its code, which is then taken off. The places of `perm` that are
read are those of the symbols, and a bound is never missed. -/
theorem decode_eq_symbol_iff (length : ℕ → ℕ) (alphaSize : ℕ) (hpos : 0 < alphaSize)
    (hsize : alphaSize ≤ BZ_MAX_ALPHA_SIZE)
    (hmax : (minMaxLen length alphaSize).2 ≤ 20) (t : DecodeTable) (code₀ : ℕ → ℤ)
    (bits rest : List Bool) (v : ℕ) :
    decode (hbCreateDecodeTables t length (minMaxLen length alphaSize).1
        (minMaxLen length alphaSize).2 alphaSize) (minMaxLen length alphaSize).1 bits =
          .symbol v rest ↔
      v < alphaSize ∧ ∃ vec < 2 ^ length v,
        hbAssignCodes code₀ length (minMaxLen length alphaSize).1 (minMaxLen length alphaSize).2
          alphaSize v = (vec : ℕ) ∧ bits = ofNat (length v) vec ++ rest := by
  have h := minMaxLen_bounds length hpos
  have ht := createDecodeTables_spec h hmax t
  have hcode : ∀ {v}, v < alphaSize → (hbAssignCodes code₀ length (minMaxLen length alphaSize).1
      (minMaxLen length alphaSize).2 alphaSize v = code length alphaSize v) :=
    fun hv => hbAssignCodes_spec h code₀ hv
  rw [decode]
  by_cases hlen : bits.length < (minMaxLen length alphaSize).1
  · rw [if_pos hlen]
    refine iff_of_false Decoded.noConfusion ?_
    rintro ⟨hv, vec, -, -, hbits⟩
    have hle := h.min_le v hv
    rw [hbits, List.length_append, length_ofNat] at hlen
    omega
  · have htake : (bits.take (minMaxLen length alphaSize).1).length =
        (minMaxLen length alphaSize).1 := List.length_take_of_le (not_lt.mp hlen)
    have hrun := decodeFrom_eq_symbol_iff ht h hpos hmax hsize v rest
      (bits.drop (minMaxLen length alphaSize).1) (bits.take (minMaxLen length alphaSize).1)
      htake.ge (by
        rw [htake, first_eq_zero h.min_le]
        exact Nat.zero_le _)
    rw [htake, List.take_append_drop] at hrun
    rw [if_neg hlen, hrun]
    constructor
    · rintro ⟨hv, -, hc, hbits⟩
      exact ⟨hv, _, hc, hcode hv, hbits⟩
    · rintro ⟨hv, vec, hc, heq, hbits⟩
      have hvec : vec = code length alphaSize v := by
        rw [hcode hv] at heq
        exact (Int.natCast_inj.mp heq).symm
      subst hvec
      exact ⟨hv, h.min_le v hv, hc, hbits⟩

/-- Codes of 1, 2 and 2 bits. -/
theorem decode_eq_symbol_iff_three :
    decode
      (hbCreateDecodeTables ⟨fun _ => 0, fun _ => 0, fun _ => 0⟩ (fun i => min (i + 1) 2) 1 2 3)
      1 [true, true, false] = .symbol 2 [false] :=
  (decode_eq_symbol_iff (fun i => min (i + 1) 2) 3 (by decide) (by decide)
    (by decide) ⟨fun _ => 0, fun _ => 0, fun _ => 0⟩ (fun _ => 0) [true, true, false] [false] 2).mpr
    ⟨by decide, 3, by decide, by decide, rfl⟩

end Bzip2
end ClamavWin32
