import Mathlib.Algebra.Order.Ring.Nat
import Mathlib.Tactic.Common

/-!
# From UTF-16 to UTF-8

A string of UTF-16 units is converted character by character. Two surrogates, a high one and a
low one, are one character; what a surrogate on its own is converted to is a parameter, but
for its length.

* `Utf8Conversion.convert`: the conversion;
* `length_convert_le`: a unit becomes at most three bytes.
-/

namespace ClamavWin32

/-- What is not the same in all conversions: the three bytes for a surrogate on its own. -/
structure Utf8Conversion where
  lone : UInt16 → List UInt8
  length_lone : ∀ u, (lone u).length = 3

namespace Utf8Conversion

def isHigh (u : UInt16) : Bool := 0xD800 ≤ u && u < 0xDC00

def isLow (u : UInt16) : Bool := 0xDC00 ≤ u && u < 0xE000

/-- The character of two surrogates. -/
def pair (u v : UInt16) : Char :=
  Char.ofNat (0x10000 + (u.toNat - 0xD800) * 0x400 + (v.toNat - 0xDC00))

variable (conv : Utf8Conversion)

/-- A unit that is no part of a pair. -/
def unit (u : UInt16) : List UInt8 :=
  if isHigh u || isLow u then conv.lone u else String.utf8EncodeChar (Char.ofNat u.toNat)

def convert : List UInt16 → List UInt8
  | [] => []
  | [u] => conv.unit u
  | u :: v :: rest =>
    if isHigh u && isLow v then String.utf8EncodeChar (pair u v) ++ convert rest
    else conv.unit u ++ convert (v :: rest)

lemma length_unit_le (u : UInt16) : (conv.unit u).length ≤ 3 := by
  unfold unit
  by_cases hsurrogate : (isHigh u || isLow u) = true
  · rw [if_pos hsurrogate, conv.length_lone]
  · rw [if_neg hsurrogate, String.length_utf8EncodeChar]
    have hfour := (Char.ofNat u.toNat).utf8Size_le_four
    -- a character of four bytes needs more than one unit
    have hne : (Char.ofNat u.toNat).utf8Size ≠ 4 := by
      rw [Ne, Char.utf8Size_eq_four_iff, UInt32.lt_iff_toNat_lt]
      have hunit := u.toNat_lt
      have hval : (Char.ofNat u.toNat).toNat ≤ u.toNat := by
        by_cases hvalid : u.toNat.isValidChar
        · rw [Char.ofNat, dif_pos hvalid]
          exact Nat.le_refl _
        · rw [Char.ofNat, dif_neg hvalid]
          exact Nat.zero_le _
      show ¬(0xffff : ℕ) < (Char.ofNat u.toNat).toNat
      omega
    omega

/-- **A unit becomes at most three bytes.** -/
theorem length_convert_le (s : List UInt16) : (conv.convert s).length ≤ 3 * s.length := by
  induction s using convert.induct with
  | case1 => exact Nat.le_refl 0
  | case2 u => exact conv.length_unit_le u
  | case3 u v rest hpair ih =>
    have hfour := (pair u v).utf8Size_le_four
    rw [convert, if_pos hpair, List.length_append, String.length_utf8EncodeChar]
    simp only [List.length_cons]
    omega
  | case4 u v rest hpair ih =>
    have hunit := conv.length_unit_le u
    rw [convert, if_neg hpair, List.length_append]
    simp only [List.length_cons] at ih ⊢
    omega

end Utf8Conversion
end ClamavWin32
