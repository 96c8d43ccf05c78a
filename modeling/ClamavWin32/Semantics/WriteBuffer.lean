import Mathlib.Algebra.Order.Ring.Int
import Mathlib.Data.List.Basic
import Mathlib.Tactic.Common

/-!
# Byte buffers that remember what was written

A buffer is addressed by offsets from its start, which may leave it on either side: nothing
but the log of written offsets tells where it ends.

* `put` stores bytes from an offset on, and `slice` reads them back;
* `Within` says that nothing was written outside a range of offsets.
-/

namespace ClamavWin32

/-- What the bytes at all offsets are, and the offsets written so far. -/
@[ext]
structure WriteBuffer where
  bytes : ℤ → UInt8
  written : List ℤ

namespace WriteBuffer

/-- A buffer nothing was written to. -/
def untouched (bytes : ℤ → UInt8) : WriteBuffer := ⟨bytes, []⟩

/-- The buffer after the bytes `bs` are stored from `offset` on. -/
def put (b : WriteBuffer) (offset : ℤ) (bs : List UInt8) : WriteBuffer where
  bytes := fun o =>
    if offset ≤ o then (bs[(o - offset).toNat]?).getD (b.bytes o) else b.bytes o
  written := b.written ++ (List.range bs.length).map fun i : ℕ => offset + (i : ℤ)

/-- The `n` bytes from `offset` on. -/
def slice (b : WriteBuffer) (offset : ℤ) (n : ℕ) : List UInt8 :=
  (List.range n).map fun i : ℕ => b.bytes (offset + (i : ℤ))

/-- Nothing was written outside `[lo, hi)`. -/
def Within (b : WriteBuffer) (lo hi : ℤ) : Prop := ∀ o ∈ b.written, lo ≤ o ∧ o < hi

instance (b : WriteBuffer) (lo hi : ℤ) : Decidable (b.Within lo hi) :=
  inferInstanceAs (Decidable (∀ o ∈ b.written, lo ≤ o ∧ o < hi))

/-! ## Reading -/

@[simp] lemma length_slice (b : WriteBuffer) (offset : ℤ) (n : ℕ) :
    (b.slice offset n).length = n := by
  unfold slice
  rw [List.length_map, List.length_range]

lemma getElem_slice (b : WriteBuffer) (offset : ℤ) (n i : ℕ)
    (hi : i < (b.slice offset n).length) :
    (b.slice offset n)[i] = b.bytes (offset + (i : ℤ)) := by
  simp only [slice, List.getElem_map, List.getElem_range]

/-- A range is read in two parts. -/
lemma slice_add (b : WriteBuffer) (offset : ℤ) (m n : ℕ) :
    b.slice offset (m + n) = b.slice offset m ++ b.slice (offset + (m : ℤ)) n := by
  unfold slice
  rw [List.range_add, List.map_append, List.map_map]
  congr 1
  apply List.map_congr_left
  intro i hi
  show b.bytes (offset + ((m + i : ℕ) : ℤ)) = b.bytes (offset + (m : ℤ) + (i : ℤ))
  rw [Nat.cast_add, add_assoc]

lemma getElem?_slice (b : WriteBuffer) (offset : ℤ) {n i : ℕ} (hi : i < n) :
    (b.slice offset n)[i]? = some (b.bytes (offset + (i : ℤ))) := by
  have hlength : i < (b.slice offset n).length := by
    rw [length_slice]
    exact hi
  rw [List.getElem?_eq_getElem hlength, getElem_slice]

/-- The end of a range. -/
lemma drop_slice (b : WriteBuffer) (offset : ℤ) (m n : ℕ) :
    (b.slice offset (m + n)).drop m = b.slice (offset + (m : ℤ)) n := by
  rw [slice_add, List.drop_left' (length_slice _ _ _)]

/-- What is read depends on the bytes of the range only. -/
lemma slice_congr {b b' : WriteBuffer} {offset : ℤ} {n : ℕ}
    (hbytes : ∀ o, offset ≤ o → o < offset + n → b.bytes o = b'.bytes o) :
    b.slice offset n = b'.slice offset n := by
  unfold slice
  apply List.map_congr_left
  intro i hi
  rw [List.mem_range] at hi
  apply hbytes
  · omega
  · omega

/-! ## Reading what was written -/

lemma bytes_put_of_lt {b : WriteBuffer} {offset o : ℤ} (bs : List UInt8) (ho : o < offset) :
    (b.put offset bs).bytes o = b.bytes o := by
  show (if offset ≤ o then _ else _) = _
  rw [if_neg (by omega)]

lemma bytes_put_of_ge {b : WriteBuffer} {offset o : ℤ} {bs : List UInt8}
    (ho : offset + bs.length ≤ o) : (b.put offset bs).bytes o = b.bytes o := by
  show (if offset ≤ o then _ else _) = _
  rw [if_pos (by omega), List.getElem?_eq_none (by omega), Option.getD_none]

lemma bytes_put_of_mem {b : WriteBuffer} {offset : ℤ} {bs : List UInt8} (i : ℕ)
    (hi : i < bs.length) : (b.put offset bs).bytes (offset + (i : ℤ)) = bs[i] := by
  show (if offset ≤ offset + (i : ℤ) then _ else _) = _
  have hindex : (offset + (i : ℤ) - offset).toNat = i := by omega
  rw [if_pos (by omega), hindex, List.getElem?_eq_getElem hi, Option.getD_some]

/-- What was stored is read back. -/
lemma slice_put_self (b : WriteBuffer) (offset : ℤ) (bs : List UInt8) :
    (b.put offset bs).slice offset bs.length = bs := by
  apply List.ext_getElem
  · exact length_slice _ _ _
  · intro i hi hi'
    rw [getElem_slice, bytes_put_of_mem i hi']

/-- What lies before the bytes stored is unchanged. -/
lemma slice_put_of_before {b : WriteBuffer} {offset offset' : ℤ} {n : ℕ} (bs : List UInt8)
    (hbefore : offset + n ≤ offset') : (b.put offset' bs).slice offset n = b.slice offset n := by
  apply slice_congr
  intro o ho ho'
  apply bytes_put_of_lt
  omega

/-- What was read so far and the bytes stored behind it are read together. -/
lemma slice_put_append (b : WriteBuffer) (offset : ℤ) (n : ℕ) (bs : List UInt8) :
    (b.put (offset + n) bs).slice offset (n + bs.length) = b.slice offset n ++ bs := by
  rw [slice_add, slice_put_of_before bs (le_refl _), slice_put_self]

/-- What lies behind the bytes stored is unchanged. -/
lemma slice_put_of_behind {b : WriteBuffer} {offset offset' : ℤ} {n : ℕ} {bs : List UInt8}
    (hbehind : offset' + bs.length ≤ offset) :
    (b.put offset' bs).slice offset n = b.slice offset n := by
  apply slice_congr
  intro o ho ho'
  apply bytes_put_of_ge
  omega

/-- Bytes may be stored in two parts. -/
lemma put_append (b : WriteBuffer) (offset : ℤ) (xs ys : List UInt8) :
    b.put offset (xs ++ ys) = (b.put offset xs).put (offset + xs.length) ys := by
  have hbytes : (b.put offset (xs ++ ys)).bytes =
      ((b.put offset xs).put (offset + xs.length) ys).bytes := by
    funext o
    rcases lt_or_ge o (offset + xs.length) with hlt | hge
    · rw [bytes_put_of_lt ys hlt]
      show (if offset ≤ o then _ else _) = (if offset ≤ o then _ else _)
      by_cases ho : offset ≤ o
      · rw [if_pos ho, if_pos ho, List.getElem?_append_left (by omega)]
      · rw [if_neg ho, if_neg ho]
    · show (if offset ≤ o then _ else _) = (if offset + xs.length ≤ o then _ else _)
      rw [if_pos (by omega), if_pos hge, List.getElem?_append_right (by omega),
        bytes_put_of_ge hge]
      congr 2
      omega
  have hwritten : (b.put offset (xs ++ ys)).written =
      ((b.put offset xs).put (offset + xs.length) ys).written := by
    show b.written ++ _ = b.written ++ _ ++ _
    rw [List.length_append, List.range_add, List.map_append, List.append_assoc, List.map_map]
    congr 2
    apply List.map_congr_left
    intro i hi
    show offset + ((xs.length + i : ℕ) : ℤ) = offset + (xs.length : ℤ) + (i : ℤ)
    rw [Nat.cast_add, add_assoc]
  exact WriteBuffer.ext hbytes hwritten

/-- The bytes stored and what was read behind them are read together. -/
lemma slice_put_prepend (b : WriteBuffer) (offset : ℤ) (bs : List UInt8) (n : ℕ) :
    (b.put offset bs).slice offset (bs.length + n) =
      bs ++ b.slice (offset + bs.length) n := by
  rw [slice_add, slice_put_self, slice_put_of_behind (le_refl _)]

/-! ## Where was written -/

lemma written_untouched (bytes : ℤ → UInt8) (lo hi : ℤ) : (untouched bytes).Within lo hi := by
  intro o ho
  cases ho

/-- Storing bytes writes the range that they take. -/
lemma mem_written_put {b : WriteBuffer} {offset o : ℤ} {bs : List UInt8} :
    o ∈ (b.put offset bs).written ↔
      o ∈ b.written ∨ (offset ≤ o ∧ o < offset + bs.length) := by
  show o ∈ b.written ++ _ ↔ _
  rw [List.mem_append, List.mem_map]
  apply or_congr_right
  constructor
  · rintro ⟨i, hi, rfl⟩
    rw [List.mem_range] at hi
    omega
  · rintro ⟨hlo, hhi⟩
    refine ⟨(o - offset).toNat, ?_, by omega⟩
    rw [List.mem_range]
    omega

/-- Storing bytes stays within a range if they lie in it. -/
lemma within_put {b : WriteBuffer} {offset lo hi : ℤ} {bs : List UInt8} :
    (b.put offset bs).Within lo hi ↔
      b.Within lo hi ∧ (bs = [] ∨ (lo ≤ offset ∧ offset + bs.length ≤ hi)) := by
  unfold Within
  simp only [mem_written_put]
  constructor
  · intro hall
    refine ⟨fun o ho => hall o (Or.inl ho), ?_⟩
    rcases bs with _ | ⟨c, cs⟩
    · exact Or.inl rfl
    · -- the first and the last byte stored are in the range
      rw [List.length_cons] at hall ⊢
      have hfirst := hall offset (Or.inr ⟨le_refl _, by omega⟩)
      have hlast := hall (offset + cs.length) (Or.inr ⟨by omega, by omega⟩)
      exact Or.inr ⟨hfirst.1, by omega⟩
  · rintro ⟨hold, hnew⟩ o (ho | ⟨hlo, hhi⟩)
    · exact hold o ho
    · rcases hnew with rfl | ⟨hlo', hhi'⟩
      · rw [List.length_nil] at hhi
        omega
      · omega

/-- Nothing is taken back from the log. -/
lemma within_of_put {b : WriteBuffer} {offset lo hi : ℤ} {bs : List UInt8}
    (hwithin : (b.put offset bs).Within lo hi) : b.Within lo hi :=
  (within_put.mp hwithin).1

lemma le_of_within_put {b : WriteBuffer} {offset lo hi : ℤ} {bs : List UInt8}
    (hwithin : (b.put offset bs).Within lo hi) (hbs : bs ≠ []) :
    lo ≤ offset ∧ offset + bs.length ≤ hi :=
  (within_put.mp hwithin).2.resolve_left hbs

end WriteBuffer
end ClamavWin32
