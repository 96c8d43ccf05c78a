import Mathlib.Data.Nat.Digits.Defs
import Mathlib.Data.Nat.ModEq
import Mathlib.Tactic.Common

/-!
# Byte memory

The memory of a machine with `w`-bit addresses, on which address arithmetic wraps, with
every byte that was read or written so far. An access covers the `span` of so many bytes
from an address on; a value is stored with its low byte first.

* `forall_mem_span_inside`: when a span lies in a region, by the offset of its first byte.
* `value_congr`: a value depends on the bytes of its span only.
-/

namespace ClamavWin32

structure ByteMemory (w : ℕ) where
  bytes : BitVec w → UInt8
  /-- Every byte read or written so far. -/
  accesses : List (BitVec w)

namespace ByteMemory

variable {w : ℕ}

/-! ## Spans -/

/-- The address `k` bytes after `p`. -/
def offset (p : BitVec w) (k : ℕ) : BitVec w := p + BitVec.ofNat w k

@[simp] lemma offset_offset (p : BitVec w) (j k : ℕ) :
    offset (offset p j) k = offset p (j + k) := by
  rw [offset, offset, offset, BitVec.ofNat_add, BitVec.add_assoc]

@[simp] lemma offset_zero (p : BitVec w) : offset p 0 = p := by
  simp [offset]

/-- The `n` bytes from `p` on. -/
def span (p : BitVec w) (n : ℕ) : List (BitVec w) := (List.range n).map (offset p)

lemma mem_span {p a : BitVec w} {n : ℕ} : a ∈ span p n ↔ ∃ k < n, offset p k = a := by
  simp [span]

/-- The bytes of two adjacent spans are those of the span over both. -/
lemma mem_span_add {p a : BitVec w} {n m : ℕ} :
    a ∈ span p (n + m) ↔ a ∈ span p n ∨ a ∈ span (offset p n) m := by
  simp only [mem_span, offset_offset]
  constructor
  · rintro ⟨k, hk, ha⟩
    by_cases hkn : k < n
    · exact Or.inl ⟨k, hkn, ha⟩
    · refine Or.inr ⟨k - n, by omega, ?_⟩
      rw [show n + (k - n) = k by omega]
      exact ha
  · rintro (⟨k, hk, ha⟩ | ⟨k, hk, ha⟩)
    · exact ⟨k, by omega, ha⟩
    · exact ⟨n + k, by omega, ha⟩

/-- Two spans whose offsets do not overlap, also not around the end of the address space,
share no byte. -/
lemma notMem_span_of_mem_span {base a : BitVec w} {x y n m : ℕ} (hxy : x + n ≤ y)
    (hyx : y + m ≤ x + 2 ^ w) (ha : a ∈ span (offset base x) n) :
    a ∉ span (offset base y) m := by
  intro hb
  obtain ⟨k, hk, rfl⟩ := mem_span.mp ha
  obtain ⟨l, hl, hab⟩ := mem_span.mp hb
  rw [offset_offset, offset_offset, offset, offset] at hab
  have hcongr : BitVec.ofNat w (y + l) = BitVec.ofNat w (x + k) :=
    (BitVec.add_right_inj _).mp hab
  have hmod : (x + k) % 2 ^ w = (y + l) % 2 ^ w := by
    rw [← BitVec.toNat_ofNat, ← BitVec.toNat_ofNat, hcongr]
  have hdvd : 2 ^ w ∣ (y + l) - (x + k) := (Nat.modEq_iff_dvd' (by omega)).mp hmod
  have hle := Nat.le_of_dvd (by omega) hdvd
  omega

/-- The bytes at an offset lie in the region of `size` bytes from `base` on if and only if
they fit below its end. The region is not the whole address space. -/
lemma forall_mem_span_inside {base : BitVec w} {x n size : ℕ} (hn : 0 < n)
    (hsize : size < 2 ^ w) :
    (∀ a ∈ span (offset base x) n, (a - base).toNat < size) ↔ x % 2 ^ w + n ≤ size := by
  have hoffset (k : ℕ) :
      (offset (offset base x) k - base).toNat = (x % 2 ^ w + k) % 2 ^ w := by
    rw [offset_offset, offset, BitVec.add_comm, BitVec.add_sub_cancel, BitVec.toNat_ofNat,
      Nat.mod_add_mod]
  have hlt : x % 2 ^ w < 2 ^ w := Nat.mod_lt _ (by omega)
  constructor
  · intro hinside
    by_contra hlong
    by_cases hwrap : x % 2 ^ w + n ≤ 2 ^ w
    · -- the last byte is outside
      have hlast := hinside _ (mem_span.mpr ⟨n - 1, by omega, rfl⟩)
      rw [hoffset, Nat.mod_eq_of_lt (by omega)] at hlast
      omega
    · -- the last byte of the address space is in the span
      have hlast := hinside _ (mem_span.mpr ⟨2 ^ w - 1 - x % 2 ^ w, by omega, rfl⟩)
      rw [hoffset, Nat.mod_eq_of_lt (by omega)] at hlast
      omega
  · intro hfits a ha
    obtain ⟨k, hk, rfl⟩ := mem_span.mp ha
    rw [hoffset, Nat.mod_eq_of_lt (by omega)]
    omega

/-! ## Accesses -/

/-- The value of the `n` bytes from `p` on. -/
def value (m : ByteMemory w) (p : BitVec w) (n : ℕ) : ℕ :=
  Nat.ofDigits 256 ((span p n).map fun a => (m.bytes a).toNat)

/-- The memory after a read of `n` bytes. -/
def read (m : ByteMemory w) (p : BitVec w) (n : ℕ) : ByteMemory w :=
  { m with accesses := m.accesses ++ span p n }

/-- The memory after a write of the `n` low bytes of `v`. -/
def write (m : ByteMemory w) (p : BitVec w) (n v : ℕ) : ByteMemory w where
  bytes := fun a =>
    if a ∈ span p n then UInt8.ofNat (v / 256 ^ (a - p).toNat) else m.bytes a
  accesses := m.accesses ++ span p n

@[simp] lemma bytes_read (m : ByteMemory w) (p : BitVec w) (n : ℕ) :
    (m.read p n).bytes = m.bytes := rfl

@[simp] lemma value_read (m : ByteMemory w) (p q : BitVec w) (n k : ℕ) :
    (m.read p n).value q k = m.value q k := by
  rw [value, value, bytes_read]

@[simp] lemma accesses_read (m : ByteMemory w) (p : BitVec w) (n : ℕ) :
    (m.read p n).accesses = m.accesses ++ span p n := rfl

@[simp] lemma accesses_write (m : ByteMemory w) (p : BitVec w) (n v : ℕ) :
    (m.write p n v).accesses = m.accesses ++ span p n := rfl

lemma bytes_write_of_notMem {m : ByteMemory w} {p a : BitVec w} {n v : ℕ}
    (ha : a ∉ span p n) : (m.write p n v).bytes a = m.bytes a := by
  simp only [write, if_neg ha]

/-- The bytes of a span are digits to the base 256. -/
lemma lt_of_mem_digits {m : ByteMemory w} {p : BitVec w} {n : ℕ} :
    ∀ d ∈ (span p n).map (fun a => (m.bytes a).toNat), d < 256 := by
  intro d hd
  obtain ⟨a, _, rfl⟩ := List.mem_map.mp hd
  exact (m.bytes a).toNat_lt

lemma value_lt (m : ByteMemory w) (p : BitVec w) (n : ℕ) : m.value p n < 256 ^ n := by
  have hlt := Nat.ofDigits_lt_base_pow_length (by omega) (@lt_of_mem_digits w m p n)
  rwa [List.length_map, span, List.length_map, List.length_range] at hlt

/-- The bytes of a value are those that it was read from. -/
lemma ofNat_value_div (m : ByteMemory w) (p : BitVec w) {i n : ℕ} (hi : i < n) :
    UInt8.ofNat (m.value p n / 256 ^ i) = m.bytes (offset p i) := by
  have hlength : ((span p n).map fun a => (m.bytes a).toNat).length = n := by simp [span]
  rw [value, Nat.ofDigits_div_pow_eq_ofDigits_drop i (by omega) _ lt_of_mem_digits,
    List.drop_eq_getElem_cons (by omega), Nat.ofDigits_cons]
  apply UInt8.toNat_inj.mp
  rw [UInt8.toNat_ofNat']
  simp [span]

/-- Two values are equal if and only if their bytes are. -/
lemma value_eq_iff {m m' : ByteMemory w} {p q : BitVec w} {n : ℕ} :
    m.value p n = m'.value q n ↔ ∀ i < n, m.bytes (offset p i) = m'.bytes (offset q i) := by
  constructor
  · intro hvalue i hi
    rw [← ofNat_value_div m p hi, ← ofNat_value_div m' q hi, hvalue]
  · intro hbytes
    rw [value, value, span, span, List.map_map, List.map_map]
    congr 1
    apply List.map_congr_left
    intro i hi
    rw [List.mem_range] at hi
    exact congrArg UInt8.toNat (hbytes i hi)

/-- A value that was read elsewhere is written byte by byte. -/
lemma bytes_write_value {m m' : ByteMemory w} {p q : BitVec w} {i n : ℕ} (hn : n ≤ 2 ^ w)
    (hi : i < n) : (m.write p n (m'.value q n)).bytes (offset p i) = m'.bytes (offset q i) := by
  have hmem : offset p i ∈ span p n := mem_span.mpr ⟨i, hi, rfl⟩
  have hindex : (offset p i - p).toNat = i := by
    rw [offset, BitVec.add_comm, BitVec.add_sub_cancel, BitVec.toNat_ofNat,
      Nat.mod_eq_of_lt (by omega)]
  simp only [write, if_pos hmem]
  rw [hindex, ofNat_value_div m' q hi]

/-- A value is that of its bytes. -/
lemma value_congr {m m' : ByteMemory w} {p : BitVec w} {n : ℕ}
    (hbytes : ∀ a ∈ span p n, m'.bytes a = m.bytes a) : m'.value p n = m.value p n := by
  have hmap : (span p n).map (fun a => (m'.bytes a).toNat) =
      (span p n).map fun a => (m.bytes a).toNat :=
    List.map_congr_left fun a ha => by rw [hbytes a ha]
  rw [value, value, hmap]

end ByteMemory
end ClamavWin32
