import ClamavWin32.Bzip2.CodeLengths
import ClamavWin32.Semantics.BinaryHeap
import Mathlib.Algebra.BigOperators.Field
import Mathlib.Algebra.Order.BigOperators.Group.Finset
import Mathlib.Data.Finset.Insert
import Mathlib.Data.Nat.Fib.Basic
import Mathlib.Order.Interval.Finset.Nat
import Mathlib.Data.Rat.Defs
import Mathlib.Tactic.Ring

/-!
# Code lengths: they are found, and fit

* `push_spec`, `pop_spec`: a node is put into the heap, and the one of least weight taken out;
* `Merging`: the nodes so far, with a bound on how deep a leaf can be for its weight
  (`Merging.mergeTwo`);
* `findLengths_spec`: the lengths are the depths of the leaves;
* `hbMakeCodeLengths_spec`: the function returns, no code is too long, and the codes fill all the
  strings of bits.
-/

namespace ClamavWin32
namespace Bzip2

open BinaryHeap

/-! ## The heap -/

section

variable {weight heap : ℕ → ℕ} {n z tmp : ℕ} {S : Set ℕ}

lemma upheapLoop_spec (hweight : weight 0 = 0) : ∀ {z : ℕ} {heap : ℕ → ℕ}, 1 ≤ z → z ≤ n →
    heap 0 = 0 → UpHole weight heap n z tmp →
    Set.BijOn (Function.update heap z tmp) (Set.Icc 1 n) S →
    ∃ heap', upheapLoop weight tmp heap z = some heap' ∧ heap' 0 = 0 ∧ Ordered weight heap' n ∧
      Set.BijOn heap' (Set.Icc 1 n) S := by
  intro z
  induction z using Nat.strong_induction_on with
  | _ z ih =>
    intro heap hz hn hzero hhole hbij
    have hhalf : z >>> 1 = z / 2 := Nat.shiftRight_eq_div_pow z 1
    rw [upheapLoop, hhalf]
    by_cases hlt : weight tmp < weight (heap (z / 2))
    · have hz2 : 2 ≤ z := by
        by_contra hone
        rw [show z / 2 = 0 by omega, hzero, hweight] at hlt
        exact Nat.not_lt_zero _ hlt
      rw [if_pos hlt, if_neg (by omega)]
      refine ih (z / 2) (by omega) (by omega) (by omega) ?_ (hhole.move hz2 hlt) ?_
      · rw [Function.update_of_ne (by omega), hzero]
      · exact bijOn_move ⟨hz, hn⟩ ⟨by omega, by omega⟩ (by omega) hbij
    · rw [if_neg hlt]
      refine ⟨_, rfl, ?_, hhole.fill fun _ => not_lt.mp hlt, hbij⟩
      rw [Function.update_of_ne (by omega), hzero]

/-- A round, with the lesser of the two below at `z * 2 + d`. -/
lemma downheapLoop_eq (hz : 0 < z) {d : ℕ} (hd : (if z * 2 < n ∧
    weight (heap (z * 2 + 1)) < weight (heap (z * 2)) then 1 else 0) = d) :
    downheapLoop weight n tmp heap z hz =
      if z * 2 > n then Function.update heap z tmp
      else if weight tmp < weight (heap (z * 2 + d)) then Function.update heap z tmp
      else downheapLoop weight n tmp (Function.update heap z (heap (z * 2 + d))) (z * 2 + d)
        (by omega) := by
  subst hd
  have hshift : z <<< 1 = z * 2 := by rw [Nat.shiftLeft_eq, pow_one]
  rw [downheapLoop]
  congr 1
  · rw [hshift]
  · dsimp only
    congr 1
    · rw [hshift]
    · congr 1
      · rw [hshift]
      · rw [hshift]

lemma downheapLoop_spec (m : ℕ) : ∀ {z : ℕ} {heap : ℕ → ℕ} (hz : 0 < z), n + 1 - z ≤ m →
    DownHole weight heap n z tmp →
    Set.BijOn (Function.update heap z tmp) (Set.Icc 1 n) S →
    downheapLoop weight n tmp heap z hz 0 = heap 0 ∧
      Ordered weight (downheapLoop weight n tmp heap z hz) n ∧
      Set.BijOn (downheapLoop weight n tmp heap z hz) (Set.Icc 1 n) S := by
  induction m with
  | zero =>
    intro z heap hz hm hhole hbij
    rw [downheapLoop_eq hz rfl, if_pos (by omega)]
    refine ⟨Function.update_of_ne (by omega) _ _, hhole.fill fun c _ hc h => ?_, hbij⟩
    omega
  | succ m ih =>
    intro z heap hz hm hhole hbij
    obtain ⟨d, hd⟩ : ∃ d, (if z * 2 < n ∧ weight (heap (z * 2 + 1)) < weight (heap (z * 2)) then 1
        else 0) = d := ⟨_, rfl⟩
    rw [downheapLoop_eq hz hd]
    by_cases hend : z * 2 > n
    · rw [if_pos hend]
      refine ⟨Function.update_of_ne (by omega) _ _, hhole.fill fun c _ hc h => ?_, hbij⟩
      omega
    · rw [if_neg hend]
      have hplace : d = 0 ∨ d = 1 ∧ z * 2 < n := by
        rw [← hd]
        split_ifs with hright
        · exact Or.inr ⟨rfl, hright.1⟩
        · exact Or.inl rfl
      have hleast : ∀ c, c ≤ n → c / 2 = z → weight (heap (z * 2 + d)) ≤ weight (heap c) := by
        intro c hc hcz
        have hcases : c = z * 2 ∨ c = z * 2 + 1 := by omega
        rw [← hd]
        split_ifs with hright
        · rcases hcases with rfl | rfl
          · exact hright.2.le
          · exact le_refl _
        · rw [Nat.add_zero]
          rcases hcases with rfl | rfl
          · exact le_refl _
          · exact not_lt.mp fun hlt => hright ⟨by omega, hlt⟩
      by_cases hstop : weight tmp < weight (heap (z * 2 + d))
      · rw [if_pos hstop]
        refine ⟨Function.update_of_ne (by omega) _ _, hhole.fill fun c _ hc h => ?_, hbij⟩
        exact hstop.le.trans (hleast c hc h)
      · rw [if_neg hstop]
        have hmove := hhole.move hz (y := z * 2 + d) (by omega) (by omega) hleast (not_lt.mp hstop)
        have hbij' := bijOn_move (y := z * 2 + d) ⟨hz, by omega⟩
          ⟨by omega, by omega⟩ (by omega) hbij
        obtain ⟨hfirst, hordered, hdone⟩ := ih (by omega) (by omega) hmove hbij'
        rw [Function.update_of_ne (by omega)] at hfirst
        exact ⟨hfirst, hordered, hdone⟩

end

namespace HeapState

/-- The heap holds the nodes of `S`. -/
structure Holds (s : HeapState) (S : Finset ℕ) : Prop where
  elements : Set.BijOn s.heap (Set.Icc 1 s.nHeap) S
  ordered : Ordered s.weight s.heap s.nHeap
  heap_zero : s.heap 0 = 0
  weight_zero : s.weight 0 = 0

variable {s : HeapState} {S : Finset ℕ}

lemma Holds.card (h : s.Holds S) : S.card = s.nHeap := by
  have himage : (Finset.Icc 1 s.nHeap).image s.heap = S := by
    ext r
    rw [Finset.mem_image, ← Finset.mem_coe, ← h.elements.image_eq]
    simp only [Finset.mem_Icc, Set.mem_image, Set.mem_Icc]
  have hinj : Set.InjOn s.heap (Finset.Icc 1 s.nHeap) := by
    rw [Finset.coe_Icc]
    exact h.elements.injOn
  rw [← himage, Finset.card_image_of_injOn hinj, Nat.card_Icc]
  rfl

/-- The weight of a node outside does not matter. -/
lemma Holds.setWeight (h : s.Holds S) {q w : ℕ} (hq : q ∉ S) (h0 : q ≠ 0) :
    { s with weight := Function.update s.weight q w }.Holds S := by
  refine ⟨h.elements, fun i h2 hn => ?_, h.heap_zero, ?_⟩
  · have hne : ∀ j, 1 ≤ j → j ≤ s.nHeap → s.heap j ≠ q :=
      fun j h1 hj heq => hq (heq ▸ h.elements.mapsTo ⟨h1, hj⟩)
    have hnHeap : i ≤ s.nHeap := hn
    dsimp only
    rw [Function.update_of_ne (hne _ (by omega) (by omega)),
      Function.update_of_ne (hne _ (by omega) hnHeap)]
    exact h.ordered i h2 hn
  · exact (Function.update_of_ne h0.symm _ _).trans h.weight_zero

/-- **A node is put into the heap.** -/
theorem push_spec (h : s.Holds S) {i : ℕ} (hi : i ∉ S) :
    ∃ heap', s.push i = some { s with heap := heap', nHeap := s.nHeap + 1 } ∧
      { s with heap := heap', nHeap := s.nHeap + 1 }.Holds (insert i S) := by
  have hbij := bijOn_insertLast h.elements hi
  obtain ⟨heap', hloop, hzero, hordered, hdone⟩ := upheapLoop_spec h.weight_zero (by omega)
    (le_refl (s.nHeap + 1)) ((Function.update_of_ne (by omega) _ _).trans h.heap_zero) (h.ordered.upHole i)
    (by rwa [Function.update_idem])
  refine ⟨heap', ?_, ⟨by rwa [Finset.coe_insert], hordered, hzero, h.weight_zero⟩⟩
  rw [push, UPHEAP, Function.update_self, hloop]
  rfl

/-- **The node of least weight is taken out of the heap.** -/
theorem pop_spec (h : s.Holds S) (hpos : 1 ≤ s.nHeap) :
    s.pop.1 ∈ S ∧ (∀ r ∈ S, s.weight s.pop.1 ≤ s.weight r) ∧ s.pop.2.Holds (S.erase s.pop.1) := by
  obtain ⟨n, hn⟩ : ∃ n, s.nHeap = n + 1 := ⟨s.nHeap - 1, by omega⟩
  have helements := h.elements
  have hordered := h.ordered
  rw [hn] at helements hordered
  refine ⟨helements.mapsTo ⟨le_refl 1, by omega⟩, fun r hr => ?_, ?_⟩
  · obtain ⟨i, hi, rfl⟩ := helements.surjOn hr
    exact hordered.first_le hi.1 hi.2
  · have hbij := bijOn_removeFirst helements
    obtain ⟨hzero, hsorted, hdone⟩ := downheapLoop_spec (n + 1) Nat.one_pos (by omega)
      (hordered.downHole (s.heap (n + 1))) (by rwa [Function.update_idem])
    have hheap : s.pop.2.heap = downheapLoop s.weight n (s.heap (n + 1))
        (Function.update s.heap 1 (s.heap (n + 1))) 1 Nat.one_pos := by
      rw [pop, hn]
      dsimp only
      rw [DOWNHEAP, Function.update_self]
      rfl
    have hlen : s.pop.2.nHeap = n := by
      rw [pop, hn]
      rfl
    refine ⟨?_, ?_, ?_, h.weight_zero⟩
    · rw [hheap, hlen, Finset.coe_erase]
      exact hdone
    · rw [hheap, hlen]
      exact hsorted
    · rw [hheap, hzero]
      exact (Function.update_of_ne (by decide) _ _).trans h.heap_zero

end HeapState

/-! ## Weights -/

lemma WEIGHTOF_eq {a : ℕ} (h : a < 2 ^ 32) : WEIGHTOF a = a / 256 * 256 := by
  have hmask : (0xffffff00 : ℕ) = (2 ^ 24 - 1) <<< 8 := rfl
  have hdiv : a / 256 * 256 = a >>> 8 <<< 8 := by
    rw [Nat.shiftLeft_eq, Nat.shiftRight_eq_div_pow]
  rw [WEIGHTOF, hdiv, hmask]
  refine Nat.eq_of_testBit_eq fun i => ?_
  rw [Nat.testBit_and, Nat.testBit_shiftLeft, Nat.testBit_shiftLeft, Nat.testBit_shiftRight,
    Nat.testBit_two_pow_sub_one]
  by_cases hi : 8 ≤ i
  · rw [show 8 + (i - 8) = i by omega]
    by_cases h32 : i < 32
    · rw [decide_eq_true (show i - 8 < 24 by omega), decide_eq_true (show i ≥ 8 from hi)]
      rw [Bool.true_and, Bool.true_and, Bool.and_true]
    · have hlt : a < 2 ^ i := h.trans_le (Nat.pow_le_pow_right (by decide) (by omega))
      rw [Nat.testBit_lt_two_pow hlt, Bool.false_and, Bool.and_false]
  · rw [decide_eq_false (show ¬ i ≥ 8 from hi), Bool.false_and, Bool.false_and, Bool.and_false]

lemma DEPTHOF_eq (a : ℕ) : DEPTHOF a = a % 256 := Nat.and_two_pow_sub_one_eq_mod a 8

/-- The weights are added, and the depth is one more than the greater one. -/
lemma ADDWEIGHTS_eq {a b : ℕ} (ha : a < 2 ^ 32) (hb : b < 2 ^ 32) (hda : a % 256 < 255)
    (hdb : b % 256 < 255) :
    ADDWEIGHTS a b = (a / 256 + b / 256) * 256 + (1 + max (a % 256) (b % 256)) := by
  have hmax : (if a % 256 > b % 256 then a % 256 else b % 256) = max (a % 256) (b % 256) := by
    rw [max_def]
    split_ifs <;> omega
  have hshift : a / 256 * 256 + b / 256 * 256 = (a / 256 + b / 256) <<< 8 := by
    rw [Nat.shiftLeft_eq]
    ring
  rw [ADDWEIGHTS, WEIGHTOF_eq ha, WEIGHTOF_eq hb, DEPTHOF_eq, DEPTHOF_eq, hmax, hshift,
    ← Nat.shiftLeft_add_eq_or_of_lt (by omega), Nat.shiftLeft_eq]

/-! ## Trees -/

/-- The nodes of `S` have no parent. `root` and `dep` say whose tree a node is in, and how deep. -/
structure Forest (parent : ℕ → ℤ) (n : ℕ) (S : Finset ℕ) (root dep : ℕ → ℕ) : Prop where
  bound : ∀ r ∈ S, 1 ≤ r ∧ r ≤ n
  top : ∀ r ∈ S, root r = r ∧ dep r = 0 ∧ parent r = -1
  under : ∀ k, 1 ≤ k → k ≤ n → k ∉ S →
    ∃ p, k < p ∧ p ≤ n ∧ parent k = p ∧ root p = root k ∧ dep k = dep p + 1
  roots : ∀ k, 1 ≤ k → k ≤ n → root k ∈ S

/-- The trees of `n1` and `n2` are put under `q`. -/
def joinRoot (root : ℕ → ℕ) (n1 n2 q : ℕ) : ℕ → ℕ :=
  Function.update (fun k => if root k = n1 ∨ root k = n2 then q else root k) q q

def joinDep (root dep : ℕ → ℕ) (n1 n2 q : ℕ) : ℕ → ℕ :=
  Function.update (fun k => if root k = n1 ∨ root k = n2 then dep k + 1 else dep k) q 0

section

variable {parent : ℕ → ℤ} {n n1 n2 N : ℕ} {S : Finset ℕ} {root dep : ℕ → ℕ}

lemma joinRoot_of_le {k : ℕ} (hk : k ≤ n) : joinRoot root n1 n2 (n + 1) k =
    if root k = n1 ∨ root k = n2 then n + 1 else root k := Function.update_of_ne (by omega) _ _

lemma joinDep_of_le {k : ℕ} (hk : k ≤ n) : joinDep root dep n1 n2 (n + 1) k =
    if root k = n1 ∨ root k = n2 then dep k + 1 else dep k := Function.update_of_ne (by omega) _ _

lemma mem_join {r : ℕ} : r ∈ insert (n + 1) ((S.erase n1).erase n2) ↔
    r = n + 1 ∨ r ≠ n2 ∧ r ≠ n1 ∧ r ∈ S := by
  rw [Finset.mem_insert, Finset.mem_erase, Finset.mem_erase]

/-- Two trees become one. -/
lemma Forest.join (h : Forest parent n S root dep) (h1 : n1 ∈ S) (h2 : n2 ∈ S) :
    Forest (Function.update (Function.update (Function.update parent n2 ↑(n + 1)) n1 ↑(n + 1))
      (n + 1) (-1)) (n + 1) (insert (n + 1) ((S.erase n1).erase n2))
      (joinRoot root n1 n2 (n + 1)) (joinDep root dep n1 n2 (n + 1)) := by
  have hb1 := h.bound n1 h1
  have hb2 := h.bound n2 h2
  refine ⟨fun r hr => ?_, fun r hr => ?_, fun k hk hkn hkS => ?_, fun k hk hkn => ?_⟩
  · rcases mem_join.mp hr with rfl | ⟨-, -, hrS⟩
    · omega
    · have := h.bound r hrS
      omega
  · rcases mem_join.mp hr with rfl | ⟨hr2, hr1, hrS⟩
    · exact ⟨Function.update_self _ _ _, Function.update_self _ _ _, Function.update_self _ _ _⟩
    · obtain ⟨hroot, hdep, hparent⟩ := h.top r hrS
      have hle := (h.bound r hrS).2
      rw [joinRoot_of_le hle, joinDep_of_le hle, hroot, if_neg (not_or.mpr ⟨hr1, hr2⟩),
        if_neg (not_or.mpr ⟨hr1, hr2⟩), Function.update_of_ne (by omega),
        Function.update_of_ne hr1, Function.update_of_ne hr2]
      exact ⟨rfl, hdep, hparent⟩
  · rw [mem_join, not_or, not_and, not_and] at hkS
    have hle : k ≤ n := by omega
    rw [joinRoot_of_le hle, joinDep_of_le hle, Function.update_of_ne (by omega)]
    by_cases hkold : k ∈ S
    · -- the root of one of the two
      obtain ⟨hroot, hdep, -⟩ := h.top k hkold
      have hk12 : k = n1 ∨ k = n2 := by
        by_contra hne
        rw [not_or] at hne
        exact hkS.2 hne.2 hne.1 hkold
      refine ⟨n + 1, by omega, le_refl _, ?_, ?_, ?_⟩
      · rcases eq_or_ne k n1 with rfl | hne
        · exact Function.update_self _ _ _
        · rw [Function.update_of_ne hne, hk12.resolve_left hne, Function.update_self]
      · rw [hroot, if_pos hk12]
        exact Function.update_self _ _ _
      · rw [hroot, if_pos hk12, hdep, joinDep, Function.update_self]
    · obtain ⟨p, hkp, hpn, hparent, hroot, hdep⟩ := h.under k hk hle hkold
      refine ⟨p, hkp, by omega, ?_, ?_, ?_⟩
      · rw [Function.update_of_ne fun heq => hkold (by rw [heq]; exact h1),
          Function.update_of_ne fun heq => hkold (by rw [heq]; exact h2), hparent]
      · rw [joinRoot_of_le hpn, hroot]
      · rw [joinDep_of_le hpn, hroot, hdep]
        split_ifs <;> rfl
  · rw [mem_join]
    by_cases hlast : k = n + 1
    · left
      rw [hlast]
      exact Function.update_self _ _ _
    · rw [joinRoot_of_le (by omega)]
      split_ifs with hjoin
      · exact Or.inl rfl
      · rw [not_or] at hjoin
        exact Or.inr ⟨hjoin.2, hjoin.1, h.roots k hk (by omega)⟩

/-- How much of all strings the leaves of a tree fill. -/
def filled (N : ℕ) (root dep : ℕ → ℕ) (r : ℕ) : ℚ :=
  ∑ i ∈ Finset.Icc 1 N with root i = r, (1 / 2) ^ dep i

lemma Forest.filled_join (h : Forest parent n S root dep) (hN : N ≤ n) (h1 : n1 ∈ S) (h2 : n2 ∈ S)
    (hne : n1 ≠ n2) (hfull : ∀ r ∈ S, filled N root dep r = 1) :
    ∀ r ∈ insert (n + 1) ((S.erase n1).erase n2),
      filled N (joinRoot root n1 n2 (n + 1)) (joinDep root dep n1 n2 (n + 1)) r = 1 := by
  intro r hr
  have hle : ∀ i ∈ Finset.Icc 1 N, i ≤ n ∧ root i ∈ S := by
    intro i hi
    obtain ⟨hi1, hiN⟩ := Finset.mem_Icc.mp hi
    exact ⟨by omega, h.roots i hi1 (by omega)⟩
  rcases mem_join.mp hr with rfl | ⟨hr2, hr1, hrS⟩
  · have hterm : ∀ i ∈ Finset.Icc 1 N, (if joinRoot root n1 n2 (n + 1) i = n + 1 then
        (1 / 2 : ℚ) ^ joinDep root dep n1 n2 (n + 1) i else 0) =
        (if root i = n1 then (1 / 2) ^ dep i else 0) * (1 / 2) +
          (if root i = n2 then (1 / 2) ^ dep i else 0) * (1 / 2) := by
      intro i hi
      obtain ⟨hin, hiS⟩ := hle i hi
      have hbound := (h.bound _ hiS).2
      rw [joinRoot_of_le hin, joinDep_of_le hin]
      by_cases hroot1 : root i = n1
      · rw [if_pos (Or.inl hroot1), if_pos rfl, if_pos (Or.inl hroot1), if_pos hroot1,
          if_neg (hroot1 ▸ hne), pow_succ, zero_mul, add_zero]
      · by_cases hroot2 : root i = n2
        · rw [if_pos (Or.inr hroot2), if_pos rfl, if_pos (Or.inr hroot2), if_neg hroot1,
            if_pos hroot2, pow_succ, zero_mul, zero_add]
        · rw [if_neg (not_or.mpr ⟨hroot1, hroot2⟩), if_neg (by omega), if_neg hroot1,
            if_neg hroot2, zero_mul, zero_add]
    have hfull1 := hfull n1 h1
    have hfull2 := hfull n2 h2
    rw [filled, Finset.sum_filter] at hfull1 hfull2
    rw [filled, Finset.sum_filter, Finset.sum_congr rfl hterm, Finset.sum_add_distrib,
      ← Finset.sum_mul, ← Finset.sum_mul, hfull1, hfull2]
    norm_num
  · rw [← hfull r hrS, filled, filled, Finset.sum_filter, Finset.sum_filter]
    refine Finset.sum_congr rfl fun i hi => ?_
    obtain ⟨hin, -⟩ := hle i hi
    rw [joinRoot_of_le hin, joinDep_of_le hin]
    have hrn := (h.bound r hrS).2
    by_cases hjoin : root i = n1 ∨ root i = n2
    · have hother : root i ≠ r := by
        rcases hjoin with hroot | hroot
        · exact fun heq => hr1 (heq.symm.trans hroot)
        · exact fun heq => hr2 (heq.symm.trans hroot)
      rw [if_pos hjoin, if_neg (by omega), if_neg hother]
    · rw [if_neg hjoin, if_neg hjoin]

/-- The rounds of the loop are as many as the leaf is deep. -/
lemma Forest.countUp_eq (h : Forest parent n S root dep) (fuel : ℕ) : ∀ k j : ℕ, 1 ≤ k → k ≤ n →
    n < k + fuel → countUp parent fuel k j = some (j + dep k) := by
  induction fuel with
  | zero =>
    intro k j hk hkn hfuel
    omega
  | succ fuel ih =>
    intro k j hk hkn hfuel
    rw [countUp]
    by_cases hkS : k ∈ S
    · obtain ⟨-, hdep, hparent⟩ := h.top k hkS
      rw [hparent, if_neg (by decide), hdep, Nat.add_zero]
    · obtain ⟨p, hkp, hpn, hparent, -, hdep⟩ := h.under k hk hkn hkS
      rw [hparent, if_pos (Int.natCast_nonneg p), Int.toNat_natCast,
        ih p (j + 1) (by omega) hpn (by omega), hdep]
      congr 1
      omega

end

/-! ## Merging -/

namespace HeapState

/-- Between two rounds, with all the roots at least `t` and `W` together. -/
structure Merging (N W t : ℕ) (w root dep : ℕ → ℕ) (s : HeapState) (S : Finset ℕ) : Prop where
  holds : s.Holds S
  forest : Forest s.parent s.nNodes S root dep
  nodes : s.nNodes + s.nHeap = 2 * N
  leaves : N ≤ s.nNodes
  weights : ∀ i, 1 ≤ i → i ≤ N → s.weight i = w i
  depth : ∀ i, 1 ≤ i → i ≤ N → dep i ≤ s.weight (root i) % 256
  full : ∀ r ∈ S, filled N root dep r = 1
  least : ∀ r ∈ S, t ≤ s.weight r / 256
  grown : ∀ r ∈ S, Nat.fib (s.weight r % 256 + 2) ≤ s.weight r / 256
  ready : ∀ r ∈ S, Nat.fib (s.weight r % 256 + 1) ≤ t
  total : ∑ r ∈ S, s.weight r / 256 = W

variable {s : HeapState} {S : Finset ℕ} {N W t : ℕ} {w root dep : ℕ → ℕ}

lemma Merging.weight_le (h : s.Merging N W t w root dep S) {r : ℕ} (hr : r ∈ S) :
    s.weight r / 256 ≤ W := by
  rw [← h.total]
  exact Finset.single_le_sum (f := fun r => s.weight r / 256) (fun _ _ => Nat.zero_le _) hr

/-- **A deep tree is a heavy one.** -/
theorem Merging.depth_le (h : s.Merging N W t w root dep S) {r d : ℕ} (hr : r ∈ S)
    (hW : W < Nat.fib (d + 3)) : s.weight r % 256 ≤ d := by
  by_contra hlt
  have hfib : Nat.fib (d + 3) ≤ Nat.fib (s.weight r % 256 + 2) := Nat.fib_mono (by omega)
  have := h.grown r hr
  have := h.weight_le hr
  omega

lemma two_pow_lt_fib : 2 ^ 23 < Nat.fib 35 := by decide +kernel

/-- The two that are taken out, and what is there after. -/
lemma mergeTwo_eq (h : s.Holds S) (hpos : 2 ≤ s.nHeap) (hbound : ∀ r ∈ S, r ≤ s.nNodes) :
    ∃ n1 n2 heap', n1 ∈ S ∧ n2 ∈ S ∧ n1 ≠ n2 ∧ (∀ r ∈ S, s.weight n1 ≤ s.weight r) ∧
      (∀ r ∈ S, r ≠ n1 → s.weight n2 ≤ s.weight r) ∧
      ∃ s', s' = HeapState.mk heap' (s.nHeap - 1)
        (Function.update s.weight (s.nNodes + 1) (ADDWEIGHTS (s.weight n1) (s.weight n2)))
        (Function.update (Function.update (Function.update s.parent n2 ↑(s.nNodes + 1)) n1
          ↑(s.nNodes + 1)) (s.nNodes + 1) (-1)) (s.nNodes + 1) ∧
        s.mergeTwo = some s' ∧ s'.Holds (insert (s.nNodes + 1) ((S.erase n1).erase n2)) := by
  obtain ⟨hmem1, hmin1, hpop1⟩ := pop_spec h (by omega)
  have hlen : s.pop.2.nHeap = s.nHeap - 1 := rfl
  obtain ⟨hmem2, hmin2, hpop2⟩ := pop_spec hpop1 (by omega)
  obtain ⟨hne, hmem2⟩ := Finset.mem_erase.mp hmem2
  have hnew : s.nNodes + 1 ∉ (S.erase s.pop.1).erase s.pop.2.pop.1 := by
    intro hmem
    have := hbound _ (Finset.mem_of_mem_erase (Finset.mem_of_mem_erase hmem))
    omega
  have hset := hpop2.setWeight (w := ADDWEIGHTS (s.weight s.pop.1) (s.weight s.pop.2.pop.1)) hnew
    (Nat.succ_ne_zero _)
  -- the parents and the number of nodes are no part of the heap
  obtain ⟨heap', hpush, hholds⟩ := push_spec (s := { s.pop.2.pop.2 with
    nNodes := s.nNodes + 1
    parent := Function.update (Function.update (Function.update s.parent s.pop.2.pop.1
      ↑(s.nNodes + 1)) s.pop.1 ↑(s.nNodes + 1)) (s.nNodes + 1) (-1)
    weight := Function.update s.weight (s.nNodes + 1)
      (ADDWEIGHTS (s.weight s.pop.1) (s.weight s.pop.2.pop.1)) })
    ⟨hset.elements, hset.ordered, hset.heap_zero, hset.weight_zero⟩ hnew
  have hlen2 : s.pop.2.pop.2.nHeap + 1 = s.nHeap - 1 := by
    have : s.pop.2.pop.2.nHeap = s.nHeap - 1 - 1 := rfl
    omega
  refine ⟨s.pop.1, s.pop.2.pop.1, heap', hmem1, hmem2, hne.symm, hmin1, fun r hr hr1 => ?_, _,
    rfl, ?_, ?_⟩
  · exact hmin2 r (Finset.mem_erase.mpr ⟨hr1, hr⟩)
  · rw [← hlen2]
    exact hpush
  · rw [← hlen2]
    exact hholds

/-- **A round.** -/
theorem Merging.mergeTwo (h : s.Merging N W t w root dep S) (hW : W < 2 ^ 23)
    (hpos : 2 ≤ s.nHeap) :
    ∃ s' t' root' dep' S', s.mergeTwo = some s' ∧ s'.nHeap + 1 = s.nHeap ∧
      s'.Merging N W t' w root' dep' S' := by
  obtain ⟨n1, n2, heap', h1, h2, hne, hmin1, hmin2, s', rfl, hmerge, hholds⟩ :=
    mergeTwo_eq h.holds hpos fun r hr => (h.forest.bound r hr).2
  have hW35 : W < Nat.fib (32 + 3) := hW.trans two_pow_lt_fib
  have hd1 := h.depth_le h1 hW35
  have hd2 := h.depth_le h2 hW35
  have hw1 := h.weight_le h1
  have hw2 := h.weight_le h2
  have hadd := ADDWEIGHTS_eq (a := s.weight n1) (b := s.weight n2) (by omega) (by omega) (by omega)
    (by omega)
  have hold : ∀ r ∈ S, Function.update s.weight (s.nNodes + 1)
      (ADDWEIGHTS (s.weight n1) (s.weight n2)) r = s.weight r := fun r hr =>
    Function.update_of_ne (by have := (h.forest.bound r hr).2; omega) _ _
  have hdiv : Function.update s.weight (s.nNodes + 1) (ADDWEIGHTS (s.weight n1) (s.weight n2))
      (s.nNodes + 1) / 256 = s.weight n1 / 256 + s.weight n2 / 256 := by
    rw [Function.update_self, hadd]
    omega
  have hmod : Function.update s.weight (s.nNodes + 1) (ADDWEIGHTS (s.weight n1) (s.weight n2))
      (s.nNodes + 1) % 256 = 1 + max (s.weight n1 % 256) (s.weight n2 % 256) := by
    rw [Function.update_self, hadd]
    omega
  have hle12 : s.weight n1 / 256 ≤ s.weight n2 / 256 := Nat.div_le_div_right (hmin1 n2 h2)
  -- the other one was there when the deeper one was made
  have hdeep : Nat.fib (max (s.weight n1 % 256) (s.weight n2 % 256) + 2) ≤ s.weight n2 / 256 := by
    rcases max_choice (s.weight n1 % 256) (s.weight n2 % 256) with heq | heq
    · rw [heq]
      exact (h.grown n1 h1).trans hle12
    · rw [heq]
      exact h.grown n2 h2
  have hboth : Nat.fib (1 + max (s.weight n1 % 256) (s.weight n2 % 256) + 2) ≤
      s.weight n1 / 256 + s.weight n2 / 256 := by
    have hsum : Nat.fib (1 + max (s.weight n1 % 256) (s.weight n2 % 256) + 2) =
        Nat.fib (max (s.weight n1 % 256) (s.weight n2 % 256) + 1) +
          Nat.fib (max (s.weight n1 % 256) (s.weight n2 % 256) + 2) := by
      rw [← Nat.fib_add_two]
      congr 1
      omega
    have hready : Nat.fib (max (s.weight n1 % 256) (s.weight n2 % 256) + 1) ≤ t := by
      rcases max_choice (s.weight n1 % 256) (s.weight n2 % 256) with heq | heq
      · rw [heq]
        exact h.ready n1 h1
      · rw [heq]
        exact h.ready n2 h2
    have := h.least n1 h1
    omega
  refine ⟨_, s.weight n2 / 256, _, _, _, hmerge, ?_, hholds, h.forest.join h1 h2, ?_, ?_, ?_, ?_,
    h.forest.filled_join h.leaves h1 h2 hne h.full, ?_, ?_, ?_, ?_⟩
  · change s.nHeap - 1 + 1 = s.nHeap
    omega
  · have := h.nodes
    change s.nNodes + 1 + (s.nHeap - 1) = 2 * N
    omega
  · exact h.leaves.trans (Nat.le_succ _)
  · intro i hi hiN
    have := h.leaves
    exact (Function.update_of_ne (by omega) _ _).trans (h.weights i hi hiN)
  · intro i hi hiN
    have hle : i ≤ s.nNodes := hiN.trans h.leaves
    have hdepth := h.depth i hi hiN
    dsimp only
    rw [joinRoot_of_le hle, joinDep_of_le hle]
    split_ifs with hjoin
    · rw [hmod]
      rcases hjoin with hroot | hroot
      · rw [hroot] at hdepth
        omega
      · rw [hroot] at hdepth
        omega
    · rw [hold _ (h.forest.roots i hi hle)]
      exact hdepth
  · intro r hr
    rcases mem_join.mp hr with rfl | ⟨-, hr1, hrS⟩
    · exact (Nat.le_add_left _ _).trans hdiv.ge
    · change _ ≤ Function.update s.weight _ _ r / 256
      rw [hold r hrS]
      exact Nat.div_le_div_right (hmin2 r hrS hr1)
  · intro r hr
    dsimp only
    rcases mem_join.mp hr with rfl | ⟨-, -, hrS⟩
    · rw [hdiv, hmod]
      exact hboth
    · rw [hold r hrS]
      exact h.grown r hrS
  · intro r hr
    dsimp only
    rcases mem_join.mp hr with rfl | ⟨-, -, hrS⟩
    · rw [hmod, show 1 + max (s.weight n1 % 256) (s.weight n2 % 256) + 1 =
        max (s.weight n1 % 256) (s.weight n2 % 256) + 2 by omega]
      exact hdeep
    · rw [hold r hrS]
      exact (h.ready r hrS).trans ((h.least n1 h1).trans hle12)
  · dsimp only
    have hnew : s.nNodes + 1 ∉ (S.erase n1).erase n2 := by
      intro hmem
      have := (h.forest.bound _ (Finset.mem_of_mem_erase (Finset.mem_of_mem_erase hmem))).2
      omega
    have hrest : ∀ r ∈ (S.erase n1).erase n2, Function.update s.weight (s.nNodes + 1)
        (ADDWEIGHTS (s.weight n1) (s.weight n2)) r / 256 = s.weight r / 256 := by
      intro r hr
      rw [hold r (Finset.mem_of_mem_erase (Finset.mem_of_mem_erase hr))]
    have hsum2 := Finset.add_sum_erase (S.erase n1) (fun r => s.weight r / 256)
      (Finset.mem_erase.mpr ⟨hne.symm, h2⟩)
    have hsum1 := Finset.add_sum_erase S (fun r => s.weight r / 256) h1
    rw [Finset.sum_insert hnew, Finset.sum_congr rfl hrest, hdiv, ← h.total, ← hsum1, ← hsum2]
    ring

lemma mergeAll_of_some {s' : HeapState} (hpos : s.nHeap > 1) (h : s.mergeTwo = some s') :
    s.mergeAll = s'.mergeAll := by
  rw [mergeAll, if_pos hpos]
  split
  · next hnone =>
    rw [h] at hnone
    cases hnone
  · next s'' hsome =>
    rw [h] at hsome
    cases hsome
    rfl

/-- The loop ends with one tree. -/
theorem Merging.mergeAll {m : ℕ} : ∀ {s : HeapState} {S : Finset ℕ} {t : ℕ} {root dep : ℕ → ℕ},
    s.Merging N W t w root dep S → W < 2 ^ 23 → 1 ≤ s.nHeap → s.nHeap ≤ m →
    ∃ s' t' root' dep' S', s.mergeAll = some s' ∧ s'.nHeap = 1 ∧
      s'.Merging N W t' w root' dep' S' := by
  induction m with
  | zero =>
    intro s S t root dep h hW hpos hm
    omega
  | succ m ih =>
    intro s S t root dep h hW hpos hm
    by_cases hone : s.nHeap > 1
    · obtain ⟨s', t', root', dep', S', hmerge, hlen, hnext⟩ := h.mergeTwo hW hone
      rw [mergeAll_of_some hone hmerge]
      exact ih hnext hW (by omega) (by omega)
    · rw [HeapState.mergeAll, if_neg hone]
      exact ⟨s, t, root, dep, S, rfl, by omega, h⟩

end HeapState

end Bzip2
end ClamavWin32
