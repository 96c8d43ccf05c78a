import Mathlib.Data.List.Basic
import Mathlib.Data.Nat.Bitwise
import Mathlib.Tactic.Ring

/-!
# Numbers as strings of bits

The first bit of a string is the most significant one.

* `ofNat n v`: the low `n` bits of `v`;
* `toNat`: the number that a string is.
-/

namespace ClamavWin32
namespace BitString

/-- The low `n` bits of `v`. -/
def ofNat : ℕ → ℕ → List Bool
  | 0, _ => []
  | n + 1, v => v.testBit n :: ofNat n v

def toNat (bs : List Bool) : ℕ := bs.foldl (fun v b => 2 * v + b.toNat) 0

@[simp] lemma length_ofNat (n v : ℕ) : (ofNat n v).length = n := by
  induction n with
  | zero => rfl
  | succ n ih => rw [ofNat, List.length_cons, ih]

@[simp] lemma toNat_nil : toNat [] = 0 := rfl

lemma foldl_toNat (v : ℕ) (bs : List Bool) :
    bs.foldl (fun v b => 2 * v + b.toNat) v = v * 2 ^ bs.length + toNat bs := by
  induction bs generalizing v with
  | nil => simp
  | cons b bs ih =>
    rw [toNat, List.foldl_cons, List.foldl_cons, ih, ih (2 * 0 + b.toNat), List.length_cons]
    ring

lemma toNat_append (bs cs : List Bool) :
    toNat (bs ++ cs) = toNat bs * 2 ^ cs.length + toNat cs := by
  rw [toNat, List.foldl_append, foldl_toNat]
  rfl

@[simp] lemma toNat_cons (b : Bool) (bs : List Bool) :
    toNat (b :: bs) = b.toNat * 2 ^ bs.length + toNat bs := by
  rw [toNat, List.foldl_cons, foldl_toNat, Nat.mul_zero, Nat.zero_add]

lemma toNat_concat (bs : List Bool) (b : Bool) : toNat (bs ++ [b]) = 2 * toNat bs + b.toNat := by
  rw [toNat, List.foldl_append, List.foldl_cons, List.foldl_nil]
  rfl

lemma toNat_lt (bs : List Bool) : toNat bs < 2 ^ bs.length := by
  induction bs with
  | nil => exact Nat.one_pos
  | cons b bs ih =>
    have hb : b.toNat * 2 ^ bs.length ≤ 1 * 2 ^ bs.length :=
      Nat.mul_le_mul_right _ (Bool.toNat_le b)
    rw [toNat_cons, List.length_cons, pow_succ]
    omega

lemma testBit_toNat (v n : ℕ) : (v.testBit n).toNat = v / 2 ^ n % 2 := by
  rw [Nat.testBit_eq_decide_div_mod_eq]
  rcases Nat.mod_two_eq_zero_or_one (v / 2 ^ n) with h | h <;> simp [h]

@[simp] lemma toNat_ofNat (n v : ℕ) : toNat (ofNat n v) = v % 2 ^ n := by
  induction n with
  | zero => rw [ofNat, toNat_nil, pow_zero, Nat.mod_one]
  | succ n ih =>
    rw [ofNat, toNat_cons, length_ofNat, ih, testBit_toNat, pow_succ, Nat.mod_mul]
    ring

lemma toNat_ofNat_of_lt {n v : ℕ} (h : v < 2 ^ n) : toNat (ofNat n v) = v := by
  rw [toNat_ofNat, Nat.mod_eq_of_lt h]

/-- Strings of one length are told apart by their numbers. -/
lemma toNat_injective {bs cs : List Bool} (hlen : bs.length = cs.length)
    (h : toNat bs = toNat cs) : bs = cs := by
  induction bs generalizing cs with
  | nil => exact (List.length_eq_zero_iff.mp hlen.symm).symm
  | cons b bs ih =>
    cases cs with
    | nil => cases hlen
    | cons c cs =>
      have hlen' : bs.length = cs.length := Nat.succ.inj hlen
      rw [toNat_cons, toNat_cons, hlen'] at h
      have hbs := toNat_lt bs
      have hcs := toNat_lt cs
      rw [hlen'] at hbs
      have hbc : b = c := by
        cases b <;> cases c <;> simp only [Bool.toNat_true, Bool.toNat_false] at h <;>
          first | rfl | omega
      subst hbc
      rw [ih hlen' (by omega)]

lemma ofNat_toNat {bs : List Bool} {n : ℕ} (h : bs.length = n) : ofNat n (toNat bs) = bs := by
  refine toNat_injective (by rw [length_ofNat, h]) ?_
  rw [toNat_ofNat_of_lt]
  exact h ▸ toNat_lt bs

lemma ofNat_congr {n v v' : ℕ} (h : v % 2 ^ n = v' % 2 ^ n) : ofNat n v = ofNat n v' := by
  refine toNat_injective (by rw [length_ofNat, length_ofNat]) ?_
  rw [toNat_ofNat, toNat_ofNat, h]

/-- A number written in two parts. -/
lemma ofNat_add (m n v : ℕ) : ofNat (m + n) v = ofNat m (v / 2 ^ n) ++ ofNat n v := by
  refine toNat_injective (by simp) ?_
  rw [toNat_append, length_ofNat, toNat_ofNat, toNat_ofNat, toNat_ofNat, pow_add,
    Nat.mul_comm (2 ^ m), Nat.mod_mul]
  ring

lemma ofNat_append {m n u v : ℕ} (hv : v < 2 ^ n) :
    ofNat m u ++ ofNat n v = ofNat (m + n) (u * 2 ^ n + v) := by
  have hdiv : (u * 2 ^ n + v) / 2 ^ n = u := by
    rw [Nat.mul_comm, Nat.mul_add_div (Nat.two_pow_pos n), Nat.div_eq_of_lt hv, Nat.add_zero]
  rw [ofNat_add, hdiv]
  congr 1
  refine ofNat_congr ?_
  rw [Nat.add_comm, Nat.add_mul_mod_self_right]

/-- What a number begins with, as a number. -/
lemma toNat_prefix {pre bits rest : List Bool} {n c : ℕ} (hle : pre.length ≤ n) (hc : c < 2 ^ n)
    (h : pre ++ bits = ofNat n c ++ rest) : toNat pre = c / 2 ^ (n - pre.length) := by
  have hsplit : pre.length + (n - pre.length) = n := Nat.add_sub_cancel' hle
  have hpre : pre = ofNat pre.length (c / 2 ^ (n - pre.length)) := by
    rw [← hsplit, ofNat_add, List.append_assoc] at h
    exact (List.append_inj h (length_ofNat _ _).symm).1
  have hlt : c / 2 ^ (n - pre.length) < 2 ^ pre.length := by
    rw [Nat.div_lt_iff_lt_mul (Nat.two_pow_pos _), ← pow_add, hsplit]
    exact hc
  have hnum := congrArg toNat hpre
  rwa [toNat_ofNat_of_lt hlt] at hnum

lemma ofNat_one (b : Bool) : ofNat 1 b.toNat = [b] := by cases b <;> rfl

lemma ofNat_zero_eq_replicate (n : ℕ) : ofNat n 0 = List.replicate n false := by
  induction n with
  | zero => rfl
  | succ n ih => rw [ofNat, ih, Nat.zero_testBit, List.replicate_succ]

end BitString
end ClamavWin32
