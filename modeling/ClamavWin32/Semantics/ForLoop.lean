import Mathlib.Data.List.Range
import Mathlib.Logic.Function.Basic
import Mathlib.Tactic.Common

/-!
# Counting loops

`for (i = lo; i < hi; i++)` over a state, as a function of the state.

* `forUpto`: the loop;
* `forUpto_invariant`: what its body preserves holds when the loop is over;
* `forUpto_update`: an array is filled;
* `forDown`, `forDown_invariant`: the same for `for (i = n - 1; i >= 0; i--)`.
-/

namespace ClamavWin32

variable {σ : Type*}

/-- `body` runs for `lo`, `lo + 1`, up to `hi - 1`. -/
def forUpto (lo hi : ℕ) (body : ℕ → σ → σ) (s : σ) : σ :=
  (List.range' lo (hi - lo)).foldl (fun s i => body i s) s

variable {lo hi : ℕ} {f : ℕ → σ → σ} {s : σ}

@[simp] lemma forUpto_self (lo : ℕ) (f : ℕ → σ → σ) (s : σ) : forUpto lo lo f s = s := by
  rw [forUpto, Nat.sub_self]
  rfl

lemma forUpto_of_le (h : hi ≤ lo) : forUpto lo hi f s = s := by
  rw [forUpto, Nat.sub_eq_zero_of_le h]
  rfl

/-- The last round. -/
lemma forUpto_succ (h : lo ≤ hi) :
    forUpto lo (hi + 1) f s = f hi (forUpto lo hi f s) := by
  have hlast : List.range' lo (hi + 1 - lo) = List.range' lo (hi - lo) ++ [hi] := by
    have hlen : hi + 1 - lo = hi - lo + 1 := by omega
    have hadd : lo + (hi - lo) = hi := by omega
    rw [hlen, List.range'_concat, Nat.one_mul, hadd]
  rw [forUpto, hlast, List.foldl_append]
  rfl

/-- The first round. -/
lemma forUpto_eq_first (h : lo < hi) :
    forUpto lo hi f s = forUpto (lo + 1) hi f (f lo s) := by
  have hfirst : List.range' lo (hi - lo) = lo :: List.range' (lo + 1) (hi - (lo + 1)) := by
    have hlen : hi - lo = hi - (lo + 1) + 1 := by omega
    rw [hlen, List.range'_succ]
  rw [forUpto, hfirst, List.foldl_cons]
  rfl

/-- **Invariant.** `P i` holds before the round of `i`. -/
theorem forUpto_invariant {P : ℕ → σ → Prop} (hle : lo ≤ hi) (hstart : P lo s)
    (hbody : ∀ i s, lo ≤ i → i < hi → P i s → P (i + 1) (f i s)) :
    P hi (forUpto lo hi f s) := by
  induction hi, hle using Nat.le_induction with
  | base =>
    rw [forUpto_self]
    exact hstart
  | succ hi hle ih =>
    rw [forUpto_succ hle]
    refine hbody hi _ hle (Nat.lt_succ_self hi) (ih ?_)
    exact fun i s hlo hhi => hbody i s hlo (Nat.lt_succ_of_lt hhi)

/-- An array is filled. -/
lemma forUpto_update {α : Type*} (n : ℕ) (g a : ℕ → α) (j : ℕ) :
    forUpto 0 n (fun i a => Function.update a i (g i)) a j = if j < n then g j else a j := by
  induction n with
  | zero => rfl
  | succ n ih =>
    rw [forUpto_succ (Nat.zero_le n), Function.update_apply, ih]
    rcases Nat.lt_trichotomy j n with h | rfl | h
    · rw [if_neg h.ne, if_pos h, if_pos (Nat.lt_succ_of_lt h)]
    · rw [if_pos rfl, if_pos (Nat.lt_succ_self j)]
    · rw [if_neg h.ne', if_neg (not_lt.mpr h.le), if_neg (by omega)]

/-- `body` runs for `n - 1`, `n - 2`, down to `0`. -/
def forDown (n : ℕ) (body : ℕ → σ → σ) (s : σ) : σ :=
  match n with
  | 0 => s
  | n + 1 => forDown n body (body n s)

/-- **Invariant.** `P (i + 1)` holds before the round of `i`. -/
theorem forDown_invariant {P : ℕ → σ → Prop} {n : ℕ} (hstart : P n s)
    (hbody : ∀ i s, i < n → P (i + 1) s → P i (f i s)) : P 0 (forDown n f s) := by
  induction n generalizing s with
  | zero => exact hstart
  | succ n ih =>
    exact ih (hbody n s (Nat.lt_succ_self n) hstart)
      fun i s hi => hbody i s (Nat.lt_succ_of_lt hi)

end ClamavWin32
