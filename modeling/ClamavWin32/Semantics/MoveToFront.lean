import Mathlib.Data.Set.Function
import Mathlib.Order.Interval.Set.Defs
import Mathlib.Tactic.Common

/-!
# Moving to the front

Letters stand in an order, which is a function of the place. A letter is named by its place, and
then goes to the front.

* `toFront`: the order afterwards;
* `bijOn_toFront`: the same letters are there;
* `after`, `letters`: the order after some places, and the letters that they name.
-/

namespace ClamavWin32
namespace MoveToFront

variable {α : Type*}

/-- The letter at `k` goes to the front, and those before it go up by one. -/
def toFront (order : ℕ → α) (k : ℕ) : ℕ → α := fun j =>
  if j = 0 then order k else if j ≤ k then order (j - 1) else order j

lemma toFront_zero (order : ℕ → α) (k : ℕ) : toFront order k 0 = order k := if_pos rfl

lemma toFront_of_le {order : ℕ → α} {j k : ℕ} (hpos : 0 < j) (hle : j ≤ k) :
    toFront order k j = order (j - 1) := by
  rw [toFront, if_neg hpos.ne', if_pos hle]

lemma toFront_of_lt {order : ℕ → α} {j k : ℕ} (hlt : k < j) : toFront order k j = order j := by
  rw [toFront, if_neg (Nat.ne_zero_of_lt hlt), if_neg (not_le.mpr hlt)]

/-- Nothing moves. -/
@[simp] lemma toFront_first (order : ℕ → α) : toFront order 0 = order := by
  funext j
  rcases Nat.eq_zero_or_pos j with rfl | hpos
  · exact toFront_zero order 0
  · exact toFront_of_lt hpos

/-- **The same letters** are at the first `n` places. -/
lemma bijOn_toFront {order : ℕ → α} {n k : ℕ} {s : Set α} (h : Set.BijOn order (Set.Iio n) s)
    (hk : k < n) : Set.BijOn (toFront order k) (Set.Iio n) s := by
  have hplace : ∀ j < n, ∃ i < n, toFront order k j = order i := by
    intro j hj
    rcases Nat.eq_zero_or_pos j with rfl | hpos
    · exact ⟨k, hk, toFront_zero order k⟩
    · rcases Nat.lt_or_ge k j with hlt | hle
      · exact ⟨j, hj, toFront_of_lt hlt⟩
      · exact ⟨j - 1, by omega, toFront_of_le hpos hle⟩
  have hinj : ∀ i < n, ∀ j < n, order i = order j → i = j := fun i hi j hj => h.injOn hi hj
  refine ⟨fun j hj => ?_, fun i hi j hj heq => ?_, fun a ha => ?_⟩
  · obtain ⟨i, hi, heq⟩ := hplace j hj
    rw [heq]
    exact h.mapsTo hi
  · have hi' : i < n := hi
    have hj' : j < n := hj
    simp only [toFront] at heq
    split_ifs at heq
    · omega
    · have := hinj k hk (j - 1) (by omega) heq
      omega
    · have := hinj k hk j hj' heq
      omega
    · have := hinj (i - 1) (by omega) k hk heq
      omega
    · have := hinj (i - 1) (by omega) (j - 1) (by omega) heq
      omega
    · have := hinj (i - 1) (by omega) j hj' heq
      omega
    · have := hinj i hi' k hk heq
      omega
    · have := hinj i hi' (j - 1) (by omega) heq
      omega
    · exact hinj i hi' j hj' heq
  · obtain ⟨i, hi, rfl⟩ := h.surjOn ha
    have hi' : i < n := hi
    rcases Nat.lt_trichotomy i k with hlt | rfl | hgt
    · exact ⟨i + 1, show i + 1 < n by omega, toFront_of_le (Nat.succ_pos i) hlt⟩
    · exact ⟨0, show 0 < n by omega, toFront_zero order i⟩
    · exact ⟨i, hi, toFront_of_lt hgt⟩

/-- The order after some places. -/
def after (order : ℕ → α) (ks : List ℕ) : ℕ → α := ks.foldl toFront order

/-- The letters that the places name, one after another. -/
def letters (order : ℕ → α) : List ℕ → List α
  | [] => []
  | k :: ks => order k :: letters (toFront order k) ks

lemma after_concat (order : ℕ → α) (ks : List ℕ) (k : ℕ) :
    after order (ks ++ [k]) = toFront (after order ks) k := by
  rw [after, after, List.foldl_append]
  rfl

lemma letters_append (order : ℕ → α) (ks ls : List ℕ) :
    letters order (ks ++ ls) = letters order ks ++ letters (after order ks) ls := by
  induction ks generalizing order with
  | nil => rfl
  | cons i ks ih => exact congrArg (order i :: ·) (ih (toFront order i))

lemma letters_concat (order : ℕ → α) (ks : List ℕ) (k : ℕ) :
    letters order (ks ++ [k]) = letters order ks ++ [after order ks k] := letters_append order ks [k]

/-- A run of the first place changes nothing. -/
lemma after_replicate (order : ℕ → α) (z : ℕ) : after order (List.replicate z 0) = order := by
  induction z with
  | zero => rfl
  | succ z ih =>
    rw [List.replicate_succ, after, List.foldl_cons, toFront_first]
    exact ih

lemma letters_replicate (order : ℕ → α) (z : ℕ) :
    letters order (List.replicate z 0) = List.replicate z (order 0) := by
  induction z with
  | zero => rfl
  | succ z ih => rw [List.replicate_succ, List.replicate_succ, letters, toFront_first, ih]

lemma length_letters (order : ℕ → α) (ks : List ℕ) : (letters order ks).length = ks.length := by
  induction ks generalizing order with
  | nil => rfl
  | cons i ks ih => rw [letters, List.length_cons, List.length_cons, ih]

lemma after_append (order : ℕ → α) (ks ls : List ℕ) :
    after order (ks ++ ls) = after (after order ks) ls := List.foldl_append

lemma bijOn_after {order : ℕ → α} {n : ℕ} {s : Set α} (h : Set.BijOn order (Set.Iio n) s)
    {ks : List ℕ} (hks : ∀ k ∈ ks, k < n) : Set.BijOn (after order ks) (Set.Iio n) s := by
  induction ks generalizing order with
  | nil => exact h
  | cons k ks ih =>
    exact ih (bijOn_toFront h (hks k List.mem_cons_self))
      fun i hi => hks i (List.mem_cons_of_mem k hi)

end MoveToFront
end ClamavWin32
