import ClamavWin32.Semantics.CanonicalCode
import Mathlib.Algebra.Group.Fin.Basic
import Mathlib.Data.Fin.Tuple.Sort
import Mathlib.Order.PiLex
import Mathlib.Tactic.Abel

/-!
# The transform of Burrows and Wheeler

A text of `n` places, read round its end, makes `n` rows, one from each place. The rows are put in
order, and only their last letters are kept.

* `row`: the text from a place, round its end;
* `Sorts`: an order of the rows;
* `StablySorts`: an order of places by their keys, the earlier place first where keys are equal;
* `row_place`: to sort the last letters is to follow the text;
* `last_iterate`: the text is read from the last letters, from the place of its own row.
-/

namespace ClamavWin32
namespace BurrowsWheeler

variable {n : ℕ} {α : Type*}

/-- `place` has what is at `i` put at `place i`, by its key. -/
structure StablySorts [LT α] (key : Fin n → α) (place : Equiv.Perm (Fin n)) : Prop where
  lt_of_key_lt : ∀ {i j}, key i < key j → place i < place j
  lt_of_lt : ∀ {i j}, key i = key j → i < j → place i < place j

/-- Counting sorts stably. -/
lemma stablySorts_places (len : ℕ → ℕ) (N : ℕ) :
    StablySorts (fun i : Fin N => len i) (CanonicalCode.places len N) where
  lt_of_key_lt := by
    intro i j h
    exact CanonicalCode.position_lt_of_len_lt i.isLt h
  lt_of_lt := by
    intro i j h hij
    exact CanonicalCode.position_lt_of_lt N h hij

/-- The text from place `p`, round its end. -/
def row (text : Fin n → α) (p : Fin n) : Lex (Fin n → α) := toLex fun k => text (p + k)

lemma row_apply (text : Fin n → α) (p k : Fin n) : row text p k = text (p + k) := rfl

variable [NeZero n]

/-- The last letter of a row, which is the one before its place. -/
def last (text : Fin n → α) (ptr : Equiv.Perm (Fin n)) (i : Fin n) : α := text (ptr i - 1)

/-- The rows are in order. -/
def Sorts [LinearOrder α] (text : Fin n → α) (ptr : Equiv.Perm (Fin n)) : Prop :=
  Monotone (row text ∘ ptr)

variable {text : Fin n → α}

/-- A row from the place before begins with the letter there. -/
lemma row_pred_zero (text : Fin n → α) (p : Fin n) : row text (p - 1) 0 = text (p - 1) := by
  rw [row_apply, add_zero]

/-- The row from the place before is the row moved by one. -/
lemma row_pred_succ (text : Fin n → α) (p k : Fin n) :
    row text (p - 1) (k + 1) = row text p k := by
  rw [row_apply, row_apply]
  congr 1
  abel

lemma row_add_congr {p q : Fin n} (h : row text p = row text q) (k : Fin n) :
    row text (p + k) = row text (q + k) := by
  funext l
  have hl := congrFun h (k + l)
  rw [row_apply, row_apply] at hl
  rw [row_apply, row_apply, add_assoc, add_assoc]
  exact hl

variable [LinearOrder α]

/-- The rows from the places before are in the order of the letters that they begin with. -/
lemma row_pred_lt {p q : Fin n} (h : text (p - 1) < text (q - 1)) :
    row text (p - 1) < row text (q - 1) := by
  refine ⟨0, fun j hj => absurd hj (Fin.not_lt_zero j), ?_⟩
  show row text (p - 1) 0 < row text (q - 1) 0
  rw [row_pred_zero, row_pred_zero]
  exact h

/-- Where these letters are the same, they are in the order of the rows. -/
lemma row_pred_le {p q : Fin n} (hletter : text (p - 1) = text (q - 1))
    (h : row text p ≤ row text q) : row text (p - 1) ≤ row text (q - 1) := by
  rcases h.lt_or_eq with hlt | heq
  · obtain ⟨m, hbefore, hm⟩ := hlt
    have hbound : (m : ℕ) + 1 < n := by
      by_contra hend
      have hzero : m + 1 = 0 := by
        apply Fin.ext
        rw [Fin.val_add, Fin.val_one', Nat.add_mod_mod, Fin.val_zero]
        rw [show (m : ℕ) + 1 = n by omega, Nat.mod_self]
      have hfirst : ∀ r : Fin n, row text (r - 1) 0 = row text r m := by
        intro r
        rw [← hzero, row_pred_succ]
      have hm' : row text p m < row text q m := hm
      rw [← hfirst, ← hfirst, row_pred_zero, row_pred_zero, hletter] at hm'
      exact lt_irrefl _ hm'
    have hval : ((m + 1 : Fin n) : ℕ) = m + 1 := Fin.val_add_one_of_lt' hbound
    refine le_of_lt ⟨m + 1, ?_, ?_⟩
    · intro j hj
      show row text (p - 1) j = row text (q - 1) j
      by_cases hzero : j = 0
      · rw [hzero, row_pred_zero, row_pred_zero, hletter]
      · have hpred : ((j - 1 : Fin n) : ℕ) = j - 1 := Fin.val_sub_one_of_ne_zero hzero
        have hless : j - 1 < m := by
          rw [Fin.lt_def] at hj ⊢
          have hpos : (j : ℕ) ≠ 0 := fun h => hzero (Fin.ext h)
          omega
        rw [show j = j - 1 + 1 from (sub_add_cancel j 1).symm, row_pred_succ, row_pred_succ]
        exact hbefore _ hless
    · show row text (p - 1) (m + 1) < row text (q - 1) (m + 1)
      rw [row_pred_succ, row_pred_succ]
      exact hm
  · refine le_of_eq (funext fun k => ?_)
    have hk : k = k - 1 + 1 := (sub_add_cancel k 1).symm
    rw [hk, row_pred_succ, row_pred_succ, heq]

variable {ptr place : Equiv.Perm (Fin n)}

/-- **To sort the last letters is to follow the text**: the row that letter `i` is put at is the one
from the place before that of row `i`. -/
theorem row_place (hptr : Sorts text ptr) (hplace : StablySorts (last text ptr) place)
    (i : Fin n) : row text (ptr (place i)) = row text (ptr i - 1) := by
  have hmono : Monotone (row text ∘ ((place.symm.trans ptr).trans (Equiv.subRight 1))) := by
    intro q q' hq
    obtain ⟨i, rfl⟩ := place.surjective q
    obtain ⟨j, rfl⟩ := place.surjective q'
    simp only [Function.comp_apply, Equiv.trans_apply, Equiv.symm_apply_apply,
      Equiv.subRight_apply]
    rcases lt_trichotomy (last text ptr i) (last text ptr j) with hlt | heq | hgt
    · exact (row_pred_lt hlt).le
    · refine row_pred_le heq (hptr (not_lt.mp fun hji => ?_))
      exact absurd (hplace.lt_of_lt heq.symm hji) (not_lt.mpr hq)
    · exact absurd (hplace.lt_of_key_lt hgt) (not_lt.mpr hq)
  have hsame := congrFun (Tuple.unique_monotone hptr hmono) (place i)
  simpa using hsame

/-- The way back leads to the row from the place behind. -/
theorem row_symm (hptr : Sorts text ptr) (hplace : StablySorts (last text ptr) place)
    (q : Fin n) : row text (ptr (place.symm q)) = row text (ptr q + 1) := by
  have h := row_add_congr (row_place hptr hplace (place.symm q)) 1
  rw [Equiv.apply_symm_apply, sub_add_cancel] at h
  exact h.symm

lemma row_iterate (hptr : Sorts text ptr) (hplace : StablySorts (last text ptr) place)
    (q : Fin n) (k : ℕ) :
    row text (ptr (place.symm^[k] q)) = row text (ptr q + Fin.ofNat n k) := by
  induction k with
  | zero =>
    rw [Function.iterate_zero, id, Fin.ofNat_zero, add_zero]
  | succ k ih =>
    have hk : Fin.ofNat n (k + 1) = Fin.ofNat n k + 1 := by
      apply Fin.ext
      rw [Fin.val_add, Fin.val_one', Nat.add_mod_mod, Fin.val_ofNat, Fin.val_ofNat, Nat.mod_add_mod]
    rw [Function.iterate_succ_apply', row_symm hptr hplace, row_add_congr ih, hk, add_assoc]

/-- **The text is read again**, from the place of the row that begins with it. -/
theorem last_iterate (hptr : Sorts text ptr) (hplace : StablySorts (last text ptr) place)
    {q : Fin n} (hq : ptr q = 0) (k : ℕ) :
    last text ptr (place.symm^[k + 1] q) = text (Fin.ofNat n k) := by
  have hrow : row text (ptr (place.symm^[k + 1] q) - 1) 0 = row text (Fin.ofNat n k) 0 := by
    rw [Function.iterate_succ_apply', sub_eq_add_neg,
      row_add_congr (row_symm hptr hplace (place.symm^[k] q)),
      row_add_congr (row_add_congr (row_iterate hptr hplace q k) 1), hq, zero_add, add_assoc,
      add_neg_cancel, add_zero]
  rw [row_pred_zero, row_apply, add_zero] at hrow
  exact hrow

end BurrowsWheeler
end ClamavWin32
