import Mathlib.Algebra.BigOperators.Ring.Finset
import Mathlib.Algebra.Order.BigOperators.Group.Finset
import Mathlib.Data.Nat.Count
import Mathlib.Data.Nat.Nth
import Mathlib.Tactic.Ring

/-!
# Canonical codes

The symbols are the numbers below `N`, and symbol `i` has a code of `len i` bits. The codes of one
length are consecutive numbers, in the order of their symbols, and the first one of a length is
twice what follows the last one of the length before.

* `first`, `count`, `rank`: the first code of a length, how many there are, and which one of them
  is that of a symbol;
* `first_add_count_le_div`: the beginning of a longer code is behind all the codes of its length,
  so that a reader can tell where a code ends;
* `position`, `places`: the place of a symbol among all of them, the shorter codes first;
* `first_add_count_le`: the codes fit if the lengths meet Kraft's inequality.
-/

namespace ClamavWin32
namespace CanonicalCode

variable (len : ℕ → ℕ) (N : ℕ)

/-- How many codes have `n` bits. -/
def count (n : ℕ) : ℕ := Nat.count (fun i => len i = n) N

/-- How many codes are shorter. -/
def below (n : ℕ) : ℕ := Nat.count (fun i => len i < n) N

/-- The codes of the same length before that of symbol `i`. -/
def rank (i : ℕ) : ℕ := Nat.count (fun j => len j = len i) i

/-- The first code of `n` bits. -/
def first : ℕ → ℕ
  | 0 => 0
  | n + 1 => (first n + count len N n) * 2

/-- The code of a symbol. -/
def code (i : ℕ) : ℕ := first len N (len i) + rank len i

/-- The place of a symbol, the shorter codes first. -/
def position (i : ℕ) : ℕ := below len N (len i) + rank len i

variable {len N}

lemma rank_lt (len : ℕ → ℕ) {N i : ℕ} (hi : i < N) : rank len i < count len N (len i) :=
  Nat.count_strict_mono rfl hi

/-- Symbols with codes of one length are told apart by their ranks. -/
lemma rank_injective {i j : ℕ} (hlen : len i = len j) (h : rank len i = rank len j) : i = j := by
  rw [rank, rank, hlen] at h
  exact Nat.count_injective (p := fun k => len k = len j) hlen rfl h

lemma count_succ_of_eq {k n : ℕ} (h : len k = n) : count len (k + 1) n = count len k n + 1 := by
  rw [count, Nat.count_succ, if_pos h]
  rfl

lemma count_succ_of_ne {k n : ℕ} (h : len k ≠ n) : count len (k + 1) n = count len k n := by
  rw [count, Nat.count_succ, if_neg h]
  rfl

lemma rank_eq_count {k n : ℕ} (h : len k = n) : rank len k = count len k n := by
  rw [rank, count, h]

/-- Every number below the count is the rank of a symbol. -/
lemma exists_rank (len : ℕ → ℕ) {N n r : ℕ} (hr : r < count len N n) :
    ∃ i < N, len i = n ∧ rank len i = r := by
  have hr' : r < Nat.count (fun i => len i = n) N := hr
  have hcard : ∀ hf : (Set.ofPred fun i => len i = n).Finite, r < hf.toFinset.card :=
    fun hf => hr'.trans_le (Nat.count_le_card hf N)
  have hmem := Nat.nth_mem r hcard
  refine ⟨Nat.nth (fun i => len i = n) r, Nat.nth_lt_of_lt_count hr', hmem, ?_⟩
  rw [rank_eq_count hmem, count]
  exact Nat.count_nth hcard

lemma below_succ (n : ℕ) : below len N (n + 1) = below len N n + count len N n := by
  rw [below, below, count]
  induction N with
  | zero => rfl
  | succ N ih =>
    rw [Nat.count_succ, Nat.count_succ, Nat.count_succ, ih]
    rcases Nat.lt_trichotomy (len N) n with h | h | h
    · simp [h, Nat.lt_succ_of_lt h, h.ne]
      omega
    · simp [h]
      omega
    · have hlt : ¬ len N < n + 1 := by omega
      simp [hlt, not_lt_of_gt h, h.ne']

variable (len N) in
lemma below_le (n : ℕ) : below len N n ≤ N := Nat.count_le _

variable (len N) in
lemma below_mono {m n : ℕ} (h : m ≤ n) : below len N m ≤ below len N n :=
  Nat.count_mono_left fun _ _ hlt => lt_of_lt_of_le hlt h

variable (len N) in
lemma below_add_count_le (n : ℕ) : below len N n + count len N n ≤ N := by
  rw [← below_succ]
  exact below_le len N _

lemma position_lt (len : ℕ → ℕ) {N i : ℕ} (hi : i < N) : position len N i < N := by
  have hrank := rank_lt len hi
  have hle := below_add_count_le len N (len i)
  rw [position]
  omega

/-- **Places are different.** -/
lemma position_injective {i j : ℕ} (hi : i < N) (hj : j < N)
    (h : position len N i = position len N j) : i = j := by
  have hranki := rank_lt len hi
  have hrankj := rank_lt len hj
  rw [position, position] at h
  rcases Nat.lt_trichotomy (len i) (len j) with hlt | heq | hlt
  · have hle := below_mono len N (show len i + 1 ≤ len j by omega)
    rw [below_succ] at hle
    omega
  · rw [heq] at h
    exact rank_injective heq (by omega)
  · have hle := below_mono len N (show len j + 1 ≤ len i by omega)
    rw [below_succ] at hle
    omega

lemma position_lt_of_len_lt {i j : ℕ} (hi : i < N) (h : len i < len j) :
    position len N i < position len N j := by
  have hrank := rank_lt len hi
  have hle := below_mono len N (show len i + 1 ≤ len j by omega)
  rw [below_succ] at hle
  rw [position, position]
  omega

lemma position_lt_of_lt (N : ℕ) {i j : ℕ} (h : len i = len j) (hij : i < j) :
    position len N i < position len N j := by
  have hrank : rank len i < rank len j := by
    rw [rank, rank, h]
    exact Nat.count_strict_mono h hij
  rw [position, position, h]
  omega

variable (len N) in
/-- The places, as a permutation. -/
noncomputable def places : Equiv.Perm (Fin N) :=
  Equiv.ofBijective (fun i => ⟨position len N i, position_lt len i.isLt⟩)
    (Finite.injective_iff_bijective.mp fun i j h =>
      Fin.ext (position_injective i.isLt j.isLt (Fin.mk.inj h)))

lemma val_places (i : Fin N) : (places len N i : ℕ) = position len N i := rfl

/-- No code is shorter than `n` bits. -/
lemma first_eq_zero {n : ℕ} (h : ∀ i < N, n ≤ len i) : first len N n = 0 := by
  have hcount : ∀ m < n, count len N m = 0 := by
    intro m hm
    rw [count, Nat.count_iff_forall_not]
    intro i hi heq
    have := h i hi
    omega
  induction n with
  | zero => rfl
  | succ n ih =>
    rw [first, ih (fun i hi => by have := h i hi; omega) fun m hm => hcount m (by omega),
      hcount n (Nat.lt_succ_self n)]

lemma below_eq_zero {n : ℕ} (h : ∀ i < N, n ≤ len i) : below len N n = 0 := by
  rw [below, Nat.count_iff_forall_not]
  exact fun i hi => not_lt.mpr (h i hi)

/-- No code is longer. -/
lemma below_eq_all {n : ℕ} (h : ∀ i < N, len i < n) : below len N n = N := by
  rw [below, Nat.count_iff_forall]
  exact h

/-! ## Where a code ends -/

variable (len N) in
/-- All codes of `m` bits are before the first of `n` bits, with bits behind them. -/
lemma first_add_count_mul_le {m n : ℕ} (h : m < n) :
    (first len N m + count len N m) * 2 ^ (n - m) ≤ first len N n := by
  induction n, h using Nat.le_induction with
  | base =>
    rw [Nat.succ_eq_add_one, Nat.add_sub_cancel_left, pow_one, first]
  | succ n hmn ih =>
    rw [first, show n + 1 - m = n - m + 1 by omega, pow_succ, ← Nat.mul_assoc]
    exact Nat.mul_le_mul_right 2 (ih.trans (Nat.le_add_right _ _))

/-- **The beginning of a longer code** is none of the codes of its length. -/
theorem first_add_count_le_div {i m : ℕ} (h : m < len i) :
    first len N m + count len N m ≤ code len N i / 2 ^ (len i - m) := by
  rw [Nat.le_div_iff_mul_le (Nat.two_pow_pos _)]
  exact (first_add_count_mul_le len N h).trans (Nat.le_add_right _ _)

lemma code_lt (len : ℕ → ℕ) {N i : ℕ} (hi : i < N) :
    code len N i < first len N (len i) + count len N (len i) := by
  have hrank := rank_lt len hi
  rw [code]
  omega

/-! ## Kraft's inequality -/

/-- The codes up to `n` bits, as fractions of all the strings of `n` bits. -/
lemma first_add_count_eq (n : ℕ) : first len N n + count len N n =
    ∑ i ∈ Finset.range N, if len i ≤ n then 2 ^ (n - len i) else 0 := by
  have hcount : ∀ n, count len N n = ∑ i ∈ Finset.range N, if len i = n then 1 else 0 := by
    intro n
    rw [count, Nat.count_eq_card_filter_range, Finset.card_filter]
  induction n with
  | zero =>
    rw [first, Nat.zero_add, hcount]
    refine Finset.sum_congr rfl fun i _ => ?_
    by_cases h : len i = 0
    · simp [h]
    · simp [h]
  | succ n ih =>
    rw [first, ih, hcount, Finset.sum_mul, ← Finset.sum_add_distrib]
    refine Finset.sum_congr rfl fun i _ => ?_
    rcases Nat.lt_trichotomy (len i) (n + 1) with h | h | h
    · have hsub : n + 1 - len i = n - len i + 1 := by omega
      simp [show len i ≤ n by omega, show len i ≤ n + 1 by omega, h.ne, hsub, pow_succ]
    · simp [h]
    · simp [show ¬ len i ≤ n by omega, show ¬ len i ≤ n + 1 by omega, h.ne']

/-- **The codes fit**: where the lengths meet Kraft's inequality, a code of `n` bits is a number of
`n` bits. -/
theorem first_add_count_le {L n : ℕ} (hn : n ≤ L)
    (hkraft : ∑ i ∈ Finset.range N, 2 ^ (L - len i) ≤ 2 ^ L) :
    first len N n + count len N n ≤ 2 ^ n := by
  have hscale : (first len N n + count len N n) * 2 ^ (L - n) ≤ 2 ^ n * 2 ^ (L - n) := by
    rw [first_add_count_eq, Finset.sum_mul, ← pow_add, Nat.add_sub_cancel' hn]
    refine le_trans (Finset.sum_le_sum fun i _ => ?_) hkraft
    by_cases h : len i ≤ n
    · rw [if_pos h, ← pow_add]
      exact Nat.pow_le_pow_right (by decide) (by omega)
    · rw [if_neg h, Nat.zero_mul]
      exact Nat.zero_le _
  exact Nat.le_of_mul_le_mul_right hscale (Nat.two_pow_pos _)

end CanonicalCode
end ClamavWin32
