import ClamavWin32.Semantics.BitString
import ClamavWin32.Semantics.CyclicRedundancy
import Mathlib.Data.List.Infix

/-!
# The checksum of `libbzip2`

`BZ2_crc32Table` of `src/3rdparty/bzip2/crctable.c`, and the macros of `bzlib_private.h` that go
by it, a byte at a time.

* `crc32_eq_feedAll`: the checksum of a string of bytes is the one of its bits;
* `crc32_ne_of_burst`: a change within 32 bits in a row changes it.
-/

namespace ClamavWin32
namespace Bzip2

open CyclicRedundancy

/-- `BZ2_crc32Table` -/
def BZ2_crc32Table : Array (BitVec 32) := #[
  0x00000000, 0x04c11db7, 0x09823b6e, 0x0d4326d9, 0x130476dc, 0x17c56b6b,
  0x1a864db2, 0x1e475005, 0x2608edb8, 0x22c9f00f, 0x2f8ad6d6, 0x2b4bcb61,
  0x350c9b64, 0x31cd86d3, 0x3c8ea00a, 0x384fbdbd, 0x4c11db70, 0x48d0c6c7,
  0x4593e01e, 0x4152fda9, 0x5f15adac, 0x5bd4b01b, 0x569796c2, 0x52568b75,
  0x6a1936c8, 0x6ed82b7f, 0x639b0da6, 0x675a1011, 0x791d4014, 0x7ddc5da3,
  0x709f7b7a, 0x745e66cd, 0x9823b6e0, 0x9ce2ab57, 0x91a18d8e, 0x95609039,
  0x8b27c03c, 0x8fe6dd8b, 0x82a5fb52, 0x8664e6e5, 0xbe2b5b58, 0xbaea46ef,
  0xb7a96036, 0xb3687d81, 0xad2f2d84, 0xa9ee3033, 0xa4ad16ea, 0xa06c0b5d,
  0xd4326d90, 0xd0f37027, 0xddb056fe, 0xd9714b49, 0xc7361b4c, 0xc3f706fb,
  0xceb42022, 0xca753d95, 0xf23a8028, 0xf6fb9d9f, 0xfbb8bb46, 0xff79a6f1,
  0xe13ef6f4, 0xe5ffeb43, 0xe8bccd9a, 0xec7dd02d, 0x34867077, 0x30476dc0,
  0x3d044b19, 0x39c556ae, 0x278206ab, 0x23431b1c, 0x2e003dc5, 0x2ac12072,
  0x128e9dcf, 0x164f8078, 0x1b0ca6a1, 0x1fcdbb16, 0x018aeb13, 0x054bf6a4,
  0x0808d07d, 0x0cc9cdca, 0x7897ab07, 0x7c56b6b0, 0x71159069, 0x75d48dde,
  0x6b93dddb, 0x6f52c06c, 0x6211e6b5, 0x66d0fb02, 0x5e9f46bf, 0x5a5e5b08,
  0x571d7dd1, 0x53dc6066, 0x4d9b3063, 0x495a2dd4, 0x44190b0d, 0x40d816ba,
  0xaca5c697, 0xa864db20, 0xa527fdf9, 0xa1e6e04e, 0xbfa1b04b, 0xbb60adfc,
  0xb6238b25, 0xb2e29692, 0x8aad2b2f, 0x8e6c3698, 0x832f1041, 0x87ee0df6,
  0x99a95df3, 0x9d684044, 0x902b669d, 0x94ea7b2a, 0xe0b41de7, 0xe4750050,
  0xe9362689, 0xedf73b3e, 0xf3b06b3b, 0xf771768c, 0xfa325055, 0xfef34de2,
  0xc6bcf05f, 0xc27dede8, 0xcf3ecb31, 0xcbffd686, 0xd5b88683, 0xd1799b34,
  0xdc3abded, 0xd8fba05a, 0x690ce0ee, 0x6dcdfd59, 0x608edb80, 0x644fc637,
  0x7a089632, 0x7ec98b85, 0x738aad5c, 0x774bb0eb, 0x4f040d56, 0x4bc510e1,
  0x46863638, 0x42472b8f, 0x5c007b8a, 0x58c1663d, 0x558240e4, 0x51435d53,
  0x251d3b9e, 0x21dc2629, 0x2c9f00f0, 0x285e1d47, 0x36194d42, 0x32d850f5,
  0x3f9b762c, 0x3b5a6b9b, 0x0315d626, 0x07d4cb91, 0x0a97ed48, 0x0e56f0ff,
  0x1011a0fa, 0x14d0bd4d, 0x19939b94, 0x1d528623, 0xf12f560e, 0xf5ee4bb9,
  0xf8ad6d60, 0xfc6c70d7, 0xe22b20d2, 0xe6ea3d65, 0xeba91bbc, 0xef68060b,
  0xd727bbb6, 0xd3e6a601, 0xdea580d8, 0xda649d6f, 0xc423cd6a, 0xc0e2d0dd,
  0xcda1f604, 0xc960ebb3, 0xbd3e8d7e, 0xb9ff90c9, 0xb4bcb610, 0xb07daba7,
  0xae3afba2, 0xaafbe615, 0xa7b8c0cc, 0xa379dd7b, 0x9b3660c6, 0x9ff77d71,
  0x92b45ba8, 0x9675461f, 0x8832161a, 0x8cf30bad, 0x81b02d74, 0x857130c3,
  0x5d8a9099, 0x594b8d2e, 0x5408abf7, 0x50c9b640, 0x4e8ee645, 0x4a4ffbf2,
  0x470cdd2b, 0x43cdc09c, 0x7b827d21, 0x7f436096, 0x7200464f, 0x76c15bf8,
  0x68860bfd, 0x6c47164a, 0x61043093, 0x65c52d24, 0x119b4be9, 0x155a565e,
  0x18197087, 0x1cd86d30, 0x029f3d35, 0x065e2082, 0x0b1d065b, 0x0fdc1bec,
  0x3793a651, 0x3352bbe6, 0x3e119d3f, 0x3ad08088, 0x2497d08d, 0x2056cd3a,
  0x2d15ebe3, 0x29d4f654, 0xc5a92679, 0xc1683bce, 0xcc2b1d17, 0xc8ea00a0,
  0xd6ad50a5, 0xd26c4d12, 0xdf2f6bcb, 0xdbee767c, 0xe3a1cbc1, 0xe760d676,
  0xea23f0af, 0xeee2ed18, 0xf0a5bd1d, 0xf464a0aa, 0xf9278673, 0xfde69bc4,
  0x89b8fd09, 0x8d79e0be, 0x803ac667, 0x84fbdbd0, 0x9abc8bd5, 0x9e7d9662,
  0x933eb0bb, 0x97ffad0c, 0xafb010b1, 0xab710d06, 0xa6322bdf, 0xa2f33668,
  0xbcb4666d, 0xb8757bda, 0xb5365d03, 0xb1f740b4]

/-- `BZ_INITIALISE_CRC` -/
def BZ_INITIALISE_CRC : BitVec 32 := 0xffffffff

/-- `BZ_FINALISE_CRC` -/
def BZ_FINALISE_CRC (crcVar : BitVec 32) : BitVec 32 := ~~~crcVar

/-- `BZ_UPDATE_CRC` -/
def BZ_UPDATE_CRC (crcVar : BitVec 32) (cha : UInt8) : BitVec 32 :=
  (crcVar <<< 8) ^^^
    BZ2_crc32Table.getD ((crcVar >>> 24) ^^^ cha.toBitVec.setWidth 32).toNat 0

/-- The checksum of a string of bytes. -/
def crc32 (bytes : List UInt8) : BitVec 32 :=
  BZ_FINALISE_CRC (bytes.foldl BZ_UPDATE_CRC BZ_INITIALISE_CRC)

/-- The generator, without its leading term. -/
def generator : BitVec 32 := 0x04c11db7

/-- The bits of a byte. -/
def byteBits (c : UInt8) : List Bool := BitString.ofNat 8 c.toNat

/-! ## The table -/

lemma size_crc32Table : BZ2_crc32Table.size = 256 := by decide +kernel

/-- An entry of the table is what its index leaves at the top of the register. -/
lemma crc32Table_eq : ∀ i : Fin 256, BZ2_crc32Table.getD i 0 =
    (shift generator)^[8] (BitVec.ofNat 32 i <<< 24) := by
  decide +kernel

/-- The index is one of the table. -/
lemma index_lt (crcVar : BitVec 32) (cha : UInt8) :
    ((crcVar >>> 24) ^^^ cha.toBitVec.setWidth 32).toNat < 256 := by
  have hcrc : (crcVar >>> 24).toNat < 2 ^ 8 := by
    rw [BitVec.toNat_ushiftRight, Nat.shiftRight_eq_div_pow]
    have := crcVar.isLt
    omega
  have hcha : (cha.toBitVec.setWidth 32).toNat < 2 ^ 8 := by
    rw [BitVec.toNat_setWidth]
    have := cha.toBitVec.isLt
    omega
  rw [BitVec.toNat_xor]
  exact Nat.xor_lt_two_pow hcrc hcha

/-- The bits of a byte, at the top of the register. -/
lemma place_byteBits (c : UInt8) : place 32 (byteBits c) = c.toBitVec.setWidth 32 <<< 24 := by
  have hall : ∀ i : Fin 256, place 32 (BitString.ofNat 8 i) = BitVec.ofNat 32 i <<< 24 := by
    decide +kernel
  have hc := hall ⟨c.toNat, c.toNat_lt⟩
  rw [byteBits, hc]
  congr 1
  refine BitVec.eq_of_toNat_eq ?_
  rw [BitVec.toNat_ofNat, BitVec.toNat_setWidth]
  rfl

/-- **A byte at a time** is eight bits at a time. -/
lemma update_crc_eq (crcVar : BitVec 32) (cha : UInt8) :
    BZ_UPDATE_CRC crcVar cha = feedAll generator crcVar (byteBits cha) := by
  have hindex := index_lt crcVar cha
  obtain ⟨i, hi⟩ : ∃ i, (crcVar >>> 24) ^^^ cha.toBitVec.setWidth 32 = i := ⟨_, rfl⟩
  obtain ⟨low, hlow⟩ : ∃ low, (crcVar <<< 8) >>> 8 = low := ⟨_, rfl⟩
  rw [hi] at hindex
  -- the register is its top byte and the others
  have hparts : crcVar ^^^ cha.toBitVec.setWidth 32 <<< 24 = (i <<< 24) ^^^ low := by
    rw [← hi, ← hlow]
    refine BitVec.eq_of_getLsbD_eq fun k hk => ?_
    simp only [BitVec.getLsbD_xor, BitVec.getLsbD_shiftLeft, BitVec.getLsbD_ushiftRight]
    by_cases hk' : k < 24
    · have hlt : 8 + k < 32 := by omega
      have hnot : ¬ 8 + k < 8 := by omega
      have hsub : 8 + k - 8 = k := by omega
      simp [hk', hlt, hnot, hsub]
    · have hadd : 24 + (k - 24) = k := by omega
      have hge : ¬ 8 + k < 32 := by omega
      simp [hk, hk', hadd, hge]
  have hshift : crcVar <<< 8 = low <<< 8 := by
    rw [← hlow]
    refine BitVec.eq_of_getLsbD_eq fun k hk => ?_
    simp only [BitVec.getLsbD_shiftLeft, BitVec.getLsbD_ushiftRight]
    by_cases hk' : k < 8
    · simp [hk']
    · have hlt : 8 + (k - 8) < 32 := by omega
      have hnot : ¬ 8 + (k - 8) < 8 := by omega
      have hsub : 8 + (k - 8) - 8 = k - 8 := by omega
      simp [hlt, hnot, hsub]
  have hlt : low.toNat * 2 ^ 8 < 2 ^ 32 := by
    rw [← hlow, BitVec.toNat_ushiftRight, Nat.shiftRight_eq_div_pow]
    have := (crcVar <<< 8).isLt
    omega
  rw [feedAll_eq generator crcVar (by rw [byteBits, BitString.length_ofNat]; decide),
    place_byteBits, hparts, byteBits, BitString.length_ofNat, iterate_shift_xor,
    iterate_shift_of_lt generator hlt, BZ_UPDATE_CRC, hi, hshift, BitVec.xor_comm]
  have htable := crc32Table_eq ⟨i.toNat, hindex⟩
  rw [BitVec.ofNat_toNat, BitVec.setWidth_eq] at htable
  rw [htable]

/-- A string of bytes can be read off its bits. -/
lemma bits_injective {bytes bytes' : List UInt8}
    (h : bytes.flatMap byteBits = bytes'.flatMap byteBits) : bytes = bytes' := by
  have hlength : ∀ c, (byteBits c).length = 8 := fun c => BitString.length_ofNat 8 _
  induction bytes generalizing bytes' with
  | nil =>
    cases bytes' with
    | nil => rfl
    | cons c' bytes' =>
      have hlen := congrArg List.length h
      rw [List.flatMap_cons, List.length_append, hlength, List.flatMap_nil, List.length_nil] at hlen
      omega
  | cons c bytes ih =>
    cases bytes' with
    | nil =>
      have hlen := congrArg List.length h
      rw [List.flatMap_cons, List.length_append, hlength, List.flatMap_nil, List.length_nil] at hlen
      omega
    | cons c' bytes' =>
      rw [List.flatMap_cons, List.flatMap_cons] at h
      obtain ⟨hc, hrest⟩ := List.append_inj h ((hlength c).trans (hlength c').symm)
      have hnat : c.toNat = c'.toNat := by
        have hc' := congrArg BitString.toNat hc
        rwa [byteBits, byteBits, BitString.toNat_ofNat_of_lt c.toNat_lt,
          BitString.toNat_ofNat_of_lt c'.toNat_lt] at hc'
      rw [UInt8.toNat_inj.mp hnat, ih hrest]

/-- **A string of bytes** is the string of its bits. -/
lemma foldl_update_crc (crcVar : BitVec 32) (bytes : List UInt8) :
    bytes.foldl BZ_UPDATE_CRC crcVar = feedAll generator crcVar (bytes.flatMap byteBits) := by
  induction bytes generalizing crcVar with
  | nil => rfl
  | cons b bytes ih => rw [List.foldl_cons, ih, update_crc_eq, List.flatMap_cons, feedAll_append]

/-- **The checksum of a string of bytes** is the one of its bits: what the generator leaves in a
register of ones, complemented. -/
theorem crc32_eq_feedAll (bytes : List UInt8) :
    crc32 bytes = ~~~feedAll generator 0xffffffff (bytes.flatMap byteBits) := by
  rw [crc32, BZ_FINALISE_CRC, foldl_update_crc]
  rfl

/-- **Bursts of errors are detected.** Two strings of bytes that are not the same, but differ
within 32 bits in a row only, have different checksums. -/
theorem crc32_ne_of_burst {bytes bytes' : List UInt8}
    (hburst : SameButBurst 32 (bytes.flatMap byteBits) (bytes'.flatMap byteBits))
    (hne : bytes ≠ bytes') : crc32 bytes ≠ crc32 bytes' := by
  rw [crc32, crc32, BZ_FINALISE_CRC, BZ_FINALISE_CRC, foldl_update_crc, foldl_update_crc]
  intro heq
  refine feedAll_ne_of_burst generator (by decide) _ hburst ?_ (BitVec.not_inj.mp heq)
  intro hbits
  exact hne (bits_injective hbits)

/-- The last byte is changed. -/
theorem crc32_ne_of_burst_lastByte : crc32 [0x42, 0x5a, 0x68] ≠ crc32 [0x42, 0x5a, 0x17] :=
  crc32_ne_of_burst ⟨byteBits 0x42 ++ byteBits 0x5a, byteBits 0x68, byteBits 0x17, [], by decide,
    by decide, by decide, by decide⟩ (by decide)

end Bzip2
end ClamavWin32
