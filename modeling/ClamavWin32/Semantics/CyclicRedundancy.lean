import Mathlib.Data.List.Basic
import Mathlib.Logic.Function.Iterate
import Mathlib.Tactic.Ring

/-!
# Cyclic redundancy checks

A register of `w` bits that a string of bits is fed to, the most significant one of the register
first. `poly` is the generator without its leading term.

* `feedAll`: a register after a string;
* `feedAll_eq`: up to `w` bits can be put into the register at once;
* `feedAll_ne_of_burst`: two strings that are different, but only within `w` bits, leave
  different registers behind if the generator has a constant term.
-/

namespace ClamavWin32
namespace CyclicRedundancy

variable {w : ℕ} (poly : BitVec w)

/-- The register moves on by one bit. -/
def shift (c : BitVec w) : BitVec w := if c.msb then (c <<< 1) ^^^ poly else c <<< 1

/-- A bit at the top of the register. -/
def top (w : ℕ) (b : Bool) : BitVec w := if b then BitVec.twoPow w (w - 1) else 0

def feed (c : BitVec w) (b : Bool) : BitVec w := shift poly (c ^^^ top w b)

def feedAll (c : BitVec w) (bs : List Bool) : BitVec w := bs.foldl (feed poly) c

/-- A string at the top of the register. -/
def place (w : ℕ) : List Bool → BitVec w
  | [] => 0
  | b :: bs => top w b ^^^ (place w bs >>> 1)

/-! ## The register is linear -/

lemma msb_xor (c d : BitVec w) : (c ^^^ d).msb = (c.msb ^^ d.msb) := by
  simp [BitVec.msb_eq_getLsbD_last]

lemma shift_xor (c d : BitVec w) : shift poly (c ^^^ d) = shift poly c ^^^ shift poly d := by
  have hxor : (c ^^^ d) <<< 1 = (c <<< 1) ^^^ (d <<< 1) := BitVec.shiftLeft_xor_distrib ..
  rw [shift, shift, shift, msb_xor, hxor]
  cases c.msb <;> cases d.msb <;> simp only [Bool.false_xor, Bool.xor_false, Bool.true_xor,
    Bool.not_true, if_true, Bool.false_eq_true, if_false]
  · rw [BitVec.xor_assoc]
  · rw [BitVec.xor_assoc, BitVec.xor_comm (d <<< 1), ← BitVec.xor_assoc]
  · rw [BitVec.xor_assoc, BitVec.xor_comm (d <<< 1), ← BitVec.xor_assoc poly, BitVec.xor_self,
      BitVec.zero_xor]

lemma iterate_shift_xor (n : ℕ) (c d : BitVec w) :
    (shift poly)^[n] (c ^^^ d) = (shift poly)^[n] c ^^^ (shift poly)^[n] d := by
  induction n generalizing c d with
  | zero => rfl
  | succ n ih => rw [Function.iterate_succ_apply, shift_xor, ih]; rfl

@[simp] lemma shift_zero : shift poly 0 = 0 := by
  simp [shift]

@[simp] lemma iterate_shift_zero (n : ℕ) : (shift poly)^[n] 0 = 0 := by
  rw [Function.iterate_fixed (shift_zero poly)]

/-- With a constant term in the generator, the register before can be read off the one after. -/
lemma shift_injective (hpoly : poly.getLsbD 0 = true) : Function.Injective (shift poly) := by
  have hzero : ∀ c : BitVec w, shift poly c = 0 → c = 0 := by
    intro c h
    have hw : 0 < w := by
      by_contra hw
      obtain rfl : w = 0 := by omega
      simp at hpoly
    have hmsb : c.msb = false := by
      by_contra hmsb
      rw [Bool.not_eq_false] at hmsb
      rw [shift, if_pos hmsb] at h
      have hbit := congrArg (fun x : BitVec w => x.getLsbD 0) h
      simp [hpoly] at hbit
    rw [shift, hmsb, if_neg Bool.false_ne_true] at h
    refine BitVec.eq_of_getLsbD_eq fun i hi => ?_
    rw [BitVec.ofNat_eq_ofNat, BitVec.getLsbD_zero]
    by_cases hlast : i = w - 1
    · rw [hlast, ← BitVec.msb_eq_getLsbD_last, hmsb]
    · have hbit := congrArg (fun x : BitVec w => x.getLsbD (i + 1)) h
      have hlt : i + 1 < w := by omega
      have hnot : ¬ i + 1 < 1 := by omega
      simpa only [BitVec.getLsbD_shiftLeft, hlt, hnot, decide_true, decide_false, Bool.not_false,
        Bool.true_and, Nat.add_sub_cancel, BitVec.ofNat_eq_ofNat, BitVec.getLsbD_zero] using hbit
  intro c d h
  have hxor : shift poly (c ^^^ d) = 0 := by
    rw [shift_xor, h]
    exact BitVec.xor_self
  exact BitVec.xor_eq_zero_iff.mp (hzero _ hxor)

/-- A register with enough zero bits at the top moves on without the generator. -/
lemma iterate_shift_of_lt {n : ℕ} {c : BitVec w} (h : c.toNat * 2 ^ n < 2 ^ w) :
    (shift poly)^[n] c = c <<< n := by
  induction n generalizing c with
  | zero => rw [Function.iterate_zero_apply, BitVec.shiftLeft_zero]
  | succ n ih =>
    have hpos : 1 ≤ 2 ^ n := Nat.one_le_two_pow
    have hmul : c.toNat * 2 * 1 ≤ c.toNat * 2 * 2 ^ n := Nat.mul_le_mul_left _ hpos
    have heq : c.toNat * 2 ^ (n + 1) = c.toNat * 2 * 2 ^ n := by
      rw [Nat.pow_succ, Nat.mul_comm (2 ^ n), Nat.mul_assoc]
    rw [heq] at h
    have hmsb : c.msb = false := by
      rw [BitVec.msb_eq_decide, decide_eq_false_iff_not, Nat.not_le]
      cases w with
      | zero => exact c.isLt
      | succ w =>
        rw [Nat.pow_succ] at h
        rw [Nat.add_sub_cancel]
        omega
    have htoNat : (c <<< 1).toNat = c.toNat * 2 := by
      rw [BitVec.toNat_shiftLeft, Nat.shiftLeft_eq, Nat.pow_one, Nat.mod_eq_of_lt (by omega)]
    rw [Function.iterate_succ_apply, shift, hmsb, if_neg Bool.false_ne_true,
      ih (by rw [htoNat]; omega), ← BitVec.shiftLeft_add, Nat.add_comm]

/-! ## Strings -/

@[simp] lemma feedAll_nil (c : BitVec w) : feedAll poly c [] = c := rfl

@[simp] lemma feedAll_cons (c : BitVec w) (b : Bool) (bs : List Bool) :
    feedAll poly c (b :: bs) = feedAll poly (feed poly c b) bs := rfl

lemma feedAll_append (c : BitVec w) (bs cs : List Bool) :
    feedAll poly c (bs ++ cs) = feedAll poly (feedAll poly c bs) cs := List.foldl_append

/-- The bits of a string that are below the top ones. -/
lemma getLsbD_place_of_lt {bs : List Bool} {i : ℕ} (hi : i + bs.length < w) :
    (place w bs).getLsbD i = false := by
  induction bs generalizing i with
  | nil => simp [place]
  | cons b bs ih =>
    rw [List.length_cons] at hi
    have htop : (top w b).getLsbD i = false := by
      have hne : w - 1 ≠ i := by omega
      rw [top]
      split
      · simp [hne]
      · simp
    rw [place, BitVec.getLsbD_xor, htop, BitVec.getLsbD_ushiftRight, ih (by omega)]
    rfl

/-- A string that is not too long goes down by one bit and comes back. -/
lemma shift_place {bs : List Bool} (h : bs.length < w) :
    shift poly (place w bs >>> 1) = place w bs := by
  have hmsb : (place w bs >>> 1).msb = false := by
    rw [BitVec.msb_eq_getLsbD_last, BitVec.getLsbD_ushiftRight]
    exact BitVec.getLsbD_of_ge _ _ (by omega)
  rw [shift, hmsb, if_neg Bool.false_ne_true]
  refine BitVec.eq_of_getLsbD_eq fun i hi => ?_
  rw [BitVec.getLsbD_shiftLeft]
  by_cases hzero : i = 0
  · rw [hzero, getLsbD_place_of_lt (by omega)]
    simp
  · have hsub : 1 + (i - 1) = i := by omega
    have hlt : ¬ i < 1 := by omega
    simp [hi, hlt, BitVec.getLsbD_ushiftRight, hsub]

/-- **A whole string at once.** -/
theorem feedAll_eq (c : BitVec w) {bs : List Bool} (h : bs.length ≤ w) :
    feedAll poly c bs = (shift poly)^[bs.length] (c ^^^ place w bs) := by
  induction bs generalizing c with
  | nil => simp [place]
  | cons b bs ih =>
    rw [List.length_cons] at h
    rw [feedAll_cons, ih _ (by omega), List.length_cons, Function.iterate_succ_apply, feed, place,
      ← BitVec.xor_assoc, shift_xor poly (c ^^^ top w b), shift_place poly (by omega)]

/-! ## Bursts -/

lemma feedAll_injective (hpoly : poly.getLsbD 0 = true) (bs : List Bool) :
    Function.Injective fun c => feedAll poly c bs := by
  induction bs with
  | nil => exact Function.injective_id
  | cons b bs ih =>
    intro c d h
    have hfeed : feed poly c b = feed poly d b := ih h
    exact (BitVec.xor_left_inj _).mp (shift_injective poly hpoly hfeed)

/-- A string of at most `w` bits can be read off the register. -/
lemma place_injective {bs cs : List Bool} (hlen : bs.length = cs.length) (hw : bs.length ≤ w)
    (h : place w bs = place w cs) : bs = cs := by
  induction bs generalizing cs with
  | nil => exact (List.length_eq_zero_iff.mp hlen.symm).symm
  | cons b bs ih =>
    cases cs with
    | nil => cases hlen
    | cons c cs =>
      have hlen' : bs.length = cs.length := Nat.succ.inj hlen
      rw [List.length_cons] at hw
      have hlast : ∀ (a : Bool) (as : List Bool), (place w (a :: as)).getLsbD (w - 1) = a := by
        intro a as
        have hge : (place w as).getLsbD (1 + (w - 1)) = false :=
          BitVec.getLsbD_of_ge _ _ (by omega)
        have hlt : w - 1 < w := by omega
        cases a <;> simp [place, top, hge, hlt]
      have hbc : b = c := by
        rw [← hlast b bs, ← hlast c cs, h]
      subst hbc
      refine congrArg (b :: ·) (ih hlen' (by omega) ?_)
      have hshift : place w bs >>> 1 = place w cs >>> 1 := (BitVec.xor_right_inj _).mp h
      refine BitVec.eq_of_getLsbD_eq fun i hi => ?_
      by_cases hi0 : i = 0
      · rw [hi0, getLsbD_place_of_lt (by omega), getLsbD_place_of_lt (by omega)]
      · have hbit := congrArg (fun x : BitVec w => x.getLsbD (i - 1)) hshift
        have hsub : 1 + (i - 1) = i := by omega
        simpa only [BitVec.getLsbD_ushiftRight, hsub] using hbit

/-- The strings are the same but for at most `n` bits in a row. -/
def SameButBurst (n : ℕ) (bs cs : List Bool) : Prop :=
  ∃ before burst burst' after, bs = before ++ burst ++ after ∧ cs = before ++ burst' ++ after ∧
    burst.length = burst'.length ∧ burst.length ≤ n

/-- **Bursts are detected.** Two strings that are not the same, but the same but for at most `w`
bits in a row, leave different registers behind, whatever was in the register before. -/
theorem feedAll_ne_of_burst (hpoly : poly.getLsbD 0 = true) (c : BitVec w) {bs cs : List Bool}
    (hburst : SameButBurst w bs cs) (hne : bs ≠ cs) : feedAll poly c bs ≠ feedAll poly c cs := by
  obtain ⟨before, burst, burst', after, rfl, rfl, hlen, hw⟩ := hburst
  intro heq
  rw [feedAll_append, feedAll_append, feedAll_append, feedAll_append] at heq
  have hburst := feedAll_injective poly hpoly after heq
  have hw' : burst'.length ≤ w := hlen ▸ hw
  rw [feedAll_eq poly (feedAll poly c before) hw, feedAll_eq poly _ hw', ← hlen] at hburst
  have hplace := (shift_injective poly hpoly).iterate _ hburst
  rw [place_injective hlen hw ((BitVec.xor_right_inj _).mp hplace)] at hne
  exact hne rfl

end CyclicRedundancy
end ClamavWin32
