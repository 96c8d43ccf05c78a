import ClamavWin32.Bzip2.Crc

/-!
# The bit streams of `libbzip2`

`bsW` and its companions of `src/3rdparty/bzip2/compress.c` put numbers of up to 24 bits into a
string of bytes, the first bit of a byte being the most significant one, and `GET_BITS` of
`decompress.c` takes them out again, from as much of the string as there is.

* `Holds`: the bits that were written, some of them still in `bsBuff`;
* `Pending`: the bits that were read ahead;
* `getAll_putAll`: what was written is read again, whatever pieces the bytes come in.
-/

namespace ClamavWin32
namespace Bzip2

open BitString

/-! ## Writing -/

/-- The parts of `EState` that are the bit stream; `zbits` has `numZ` bytes. -/
structure BitWriter where
  bsBuff : BitVec 32
  bsLive : ℤ
  zbits : List UInt8
  deriving DecidableEq

/-- `BZ2_bsInitWrite` -/
def bsInitWrite (s : BitWriter) : BitWriter := { s with bsLive := 0, bsBuff := 0 }

/-- The body of the loops in `bsFinishWrite` and `bsNEEDW`. -/
def BitWriter.putByte (s : BitWriter) : BitWriter where
  bsBuff := s.bsBuff <<< 8
  bsLive := s.bsLive - 8
  zbits := s.zbits ++ [UInt8.ofNat (s.bsBuff >>> 24).toNat]

def bsFinishWrite (s : BitWriter) : BitWriter :=
  if s.bsLive > 0 then bsFinishWrite s.putByte else s
termination_by s.bsLive.toNat
decreasing_by
  simp only [BitWriter.putByte]
  omega

def bsNEEDW (s : BitWriter) : BitWriter :=
  if s.bsLive ≥ 8 then bsNEEDW s.putByte else s
termination_by s.bsLive.toNat
decreasing_by
  simp only [BitWriter.putByte]
  omega

def bsW (s : BitWriter) (n : ℕ) (v : BitVec 32) : BitWriter :=
  let s := bsNEEDW s
  { s with
    bsBuff := s.bsBuff ||| (v <<< (32 - s.bsLive - n).toNat)
    bsLive := s.bsLive + n }

def bsPutUInt32 (s : BitWriter) (u : BitVec 32) : BitWriter :=
  let s := bsW s 8 ((u >>> 24) &&& 0xff)
  let s := bsW s 8 ((u >>> 16) &&& 0xff)
  let s := bsW s 8 ((u >>> 8) &&& 0xff)
  bsW s 8 (u &&& 0xff)

def bsPutUChar (s : BitWriter) (c : UInt8) : BitWriter := bsW s 8 (c.toBitVec.setWidth 32)

/-! ## Reading -/

/-- The parts of `DState` that are the bit stream. -/
structure BitReader where
  bsBuff : BitVec 32
  bsLive : ℤ
  deriving DecidableEq

/-- A byte is read ahead. -/
def BitReader.fill (s : BitReader) (b : UInt8) : BitReader where
  bsBuff := (s.bsBuff <<< 8) ||| b.toBitVec.setWidth 32
  bsLive := s.bsLive + 8

/-- The next `nnn` of the bits that were read ahead. -/
def BitReader.peek (s : BitReader) (nnn : ℕ) : BitVec 32 :=
  (s.bsBuff >>> (s.bsLive - nnn).toNat) &&& ((1 : BitVec 32) <<< nnn - 1)

/-- `GET_BITS`: the number and what is left of the input, or no number where there is too little
input. -/
def GET_BITS (nnn : ℕ) (s : BitReader) (input : List UInt8) :
    Option (BitVec 32) × BitReader × List UInt8 :=
  if s.bsLive ≥ nnn then (some (s.peek nnn), { s with bsLive := s.bsLive - nnn }, input)
  else
    match input with
    | [] => (none, s, [])
    | b :: input => GET_BITS nnn (s.fill b) input

/-! ## What is written -/

/-- The bits that were written: those of the bytes, and those that are in the buffer. -/
structure Holds (s : BitWriter) (pending bits : List Bool) : Prop where
  live : s.bsLive = pending.length
  short : pending.length ≤ 31
  buff : s.bsBuff.toNat = toNat pending * 2 ^ (32 - pending.length)
  bits : bits = s.zbits.flatMap byteBits ++ pending

lemma length_byteBits (c : UInt8) : (byteBits c).length = 8 := length_ofNat 8 _

/-- A byte goes from the buffer to the string, filled up with zeros if there is less. -/
lemma Holds.putByte {s : BitWriter} {byte rest bits : List Bool}
    (h : Holds s (byte ++ rest) bits) (hlen : byte.length = 8) : Holds s.putByte rest bits := by
  have hshort := h.short
  rw [List.length_append, hlen] at hshort
  have hbuff := h.buff
  have hbyte := toNat_lt byte
  have hrest := toNat_lt rest
  rw [hlen] at hbyte
  have hpow : 2 ^ rest.length * 2 ^ (24 - rest.length) = 2 ^ 24 := by
    rw [← pow_add]
    congr 1
    omega
  have hsplit : s.bsBuff.toNat =
      toNat byte * 2 ^ 24 + toNat rest * 2 ^ (24 - rest.length) := by
    rw [hbuff, List.length_append, hlen, toNat_append, ← hpow]
    rw [show 32 - (8 + rest.length) = 24 - rest.length by omega]
    ring
  have hlow : toNat rest * 2 ^ (24 - rest.length) < 2 ^ 24 := by
    rw [← hpow]
    exact Nat.mul_lt_mul_of_pos_right hrest (Nat.two_pow_pos _)
  refine ⟨?_, by omega, ?_, ?_⟩
  · rw [BitWriter.putByte, h.live, List.length_append, hlen]
    push_cast
    ring
  · have hmul : 2 ^ (32 - rest.length) = 2 ^ (24 - rest.length) * 2 ^ 8 := by
      rw [← pow_add]
      congr 1
      omega
    rw [BitWriter.putByte, BitVec.toNat_shiftLeft, Nat.shiftLeft_eq, hsplit, hmul]
    rw [show (toNat byte * 2 ^ 24 + toNat rest * 2 ^ (24 - rest.length)) * 2 ^ 8 =
      toNat rest * (2 ^ (24 - rest.length) * 2 ^ 8) + 2 ^ 32 * toNat byte by ring,
      Nat.add_mul_mod_self_left, Nat.mod_eq_of_lt]
    rw [← Nat.mul_assoc]
    omega
  · have htop : (s.bsBuff >>> 24).toNat = toNat byte := by
      rw [BitVec.toNat_ushiftRight, Nat.shiftRight_eq_div_pow, hsplit]
      omega
    have hzbits : byteBits (UInt8.ofNat (s.bsBuff >>> 24).toNat) = byte := by
      rw [htop, byteBits, UInt8.toNat_ofNat_of_lt' hbyte, ofNat_toNat hlen]
    rw [BitWriter.putByte, List.flatMap_append, List.flatMap_cons, List.flatMap_nil, hzbits,
      h.bits]
    simp

/-- Less than a byte stays in the buffer. -/
lemma Holds.bsNEEDW {s : BitWriter} {pending bits : List Bool} (h : Holds s pending bits) :
    ∃ pending', Holds (bsNEEDW s) pending' bits ∧ pending'.length < 8 := by
  induction s using Bzip2.bsNEEDW.induct generalizing pending with
  | case1 s hlive ih =>
    have hlen : 8 ≤ pending.length := by
      have := h.live
      omega
    rw [← List.take_append_drop 8 pending] at h
    have hput := h.putByte (List.length_take_of_le hlen)
    rw [Bzip2.bsNEEDW, if_pos hlive]
    exact ih hput
  | case2 s hlive =>
    rw [Bzip2.bsNEEDW, if_neg hlive]
    refine ⟨pending, h, ?_⟩
    have := h.live
    omega

/-- **A number is written** behind the bits that are there. -/
theorem Holds.bsW {s : BitWriter} {pending bits : List Bool} (h : Holds s pending bits) {n : ℕ}
    (hn : n ≤ 24) {v : BitVec 32} (hv : v.toNat < 2 ^ n) :
    ∃ pending', Holds (bsW s n v) pending' (bits ++ ofNat n v.toNat) := by
  obtain ⟨p, hneed, hp⟩ := h.bsNEEDW
  obtain ⟨t, ht⟩ : ∃ t, Bzip2.bsNEEDW s = t := ⟨_, rfl⟩
  rw [ht] at hneed
  refine ⟨p ++ ofNat n v.toNat, ?_⟩
  rw [Bzip2.bsW, ht]
  have hlive := hneed.live
  have hamount : (32 - t.bsLive - n).toNat = 32 - p.length - n := by omega
  have hpow : 2 ^ (32 - p.length) = 2 ^ n * 2 ^ (32 - p.length - n) := by
    rw [← pow_add]
    congr 1
    omega
  have hshift : (v <<< (32 - p.length - n)).toNat = v.toNat * 2 ^ (32 - p.length - n) := by
    rw [BitVec.toNat_shiftLeft, Nat.shiftLeft_eq, Nat.mod_eq_of_lt]
    calc v.toNat * 2 ^ (32 - p.length - n)
        < 2 ^ n * 2 ^ (32 - p.length - n) :=
          Nat.mul_lt_mul_of_pos_right hv (Nat.two_pow_pos _)
      _ = 2 ^ (32 - p.length) := hpow.symm
      _ ≤ 2 ^ 32 := Nat.pow_le_pow_right (by decide) (by omega)
  have hlow : (v <<< (32 - p.length - n)).toNat < 2 ^ (32 - p.length) := by
    rw [hshift, hpow]
    exact Nat.mul_lt_mul_of_pos_right hv (Nat.two_pow_pos _)
  refine ⟨?_, ?_, ?_, ?_⟩
  · rw [List.length_append, length_ofNat, hlive]
    push_cast
    ring
  · rw [List.length_append, length_ofNat]
    omega
  · -- the bits do not overlap
    rw [hamount, BitVec.toNat_or, hneed.buff, Nat.mul_comm (toNat p),
      ← Nat.two_pow_add_eq_or_of_lt hlow, hshift, List.length_append, length_ofNat,
      toNat_append, length_ofNat, toNat_ofNat_of_lt hv, hpow,
      show 32 - (p.length + n) = 32 - p.length - n by omega]
    ring
  · rw [hneed.bits, List.append_assoc]

/-- Zeros behind the bits are there already. -/
lemma Holds.pad {s : BitWriter} {pending bits : List Bool} (h : Holds s pending bits) {n : ℕ}
    (hn : pending.length + n ≤ 31) :
    Holds { s with bsLive := (pending.length + n : ℕ) } (pending ++ List.replicate n false)
      (bits ++ List.replicate n false) where
  live := by rw [List.length_append, List.length_replicate]
  short := by
    rw [List.length_append, List.length_replicate]
    exact hn
  buff := by
    have hpow : 2 ^ (32 - pending.length) = 2 ^ n * 2 ^ (32 - (pending.length + n)) := by
      rw [← pow_add]
      congr 1
      omega
    rw [h.buff, ← ofNat_zero_eq_replicate, List.length_append, length_ofNat, toNat_append,
      length_ofNat, toNat_ofNat, Nat.zero_mod, Nat.add_zero, hpow]
    ring
  bits := by rw [h.bits, List.append_assoc]

/-- The last byte is filled up with zeros. -/
theorem Holds.bsFinishWrite {s : BitWriter} {pending bits : List Bool}
    (h : Holds s pending bits) :
    ∃ n, n < 8 ∧ (bsFinishWrite s).zbits.flatMap byteBits = bits ++ List.replicate n false := by
  induction s using Bzip2.bsFinishWrite.induct generalizing pending with
  | case1 s hlive ih =>
    rw [Bzip2.bsFinishWrite, if_pos hlive]
    have hlen := h.live
    by_cases hbyte : 8 ≤ pending.length
    · rw [← List.take_append_drop 8 pending] at h
      exact ih (h.putByte (List.length_take_of_le hbyte))
    · -- the buffer has no more than this byte
      have hpad := h.pad (n := 8 - pending.length) (by omega)
      rw [← List.append_nil (pending ++ _)] at hpad
      have hput := hpad.putByte (by simp; omega)
      have hdone : ¬ s.putByte.bsLive > 0 := by
        simp only [BitWriter.putByte]
        omega
      rw [Bzip2.bsFinishWrite, if_neg hdone]
      refine ⟨8 - pending.length, by omega, ?_⟩
      have hbits := hput.bits
      rw [List.append_nil] at hbits
      exact hbits.symm
  | case2 s hlive =>
    rw [Bzip2.bsFinishWrite, if_neg hlive]
    refine ⟨0, by decide, ?_⟩
    have hnil : pending = [] := by
      have := h.live
      exact List.length_eq_zero_iff.mp (by omega)
    rw [h.bits, hnil, List.append_nil, List.replicate_zero, List.append_nil]

/-! ## What is read -/

/-- The bits that were read ahead. Above them in the buffer there may be others. -/
structure Pending (s : BitReader) (pending : List Bool) : Prop where
  live : s.bsLive = pending.length
  short : pending.length ≤ 32
  buff : s.bsBuff.toNat % 2 ^ pending.length = toNat pending

lemma Pending.fill {s : BitReader} {pending : List Bool} (h : Pending s pending) (b : UInt8)
    (hshort : pending.length ≤ 24) : Pending (s.fill b) (pending ++ byteBits b) where
  live := by
    rw [BitReader.fill, h.live, List.length_append, length_byteBits]
    rfl
  short := by
    rw [List.length_append, length_byteBits]
    omega
  buff := by
    have hb : (b.toBitVec.setWidth 32).toNat = b.toNat := by
      rw [BitVec.toNat_setWidth]
      exact Nat.mod_eq_of_lt (lt_of_lt_of_le b.toNat_lt (by decide))
    have hlow : b.toNat < 2 ^ 8 := b.toNat_lt
    have hor : (s.fill b).bsBuff.toNat = s.bsBuff.toNat * 2 ^ 8 % 2 ^ 32 + b.toNat := by
      rw [BitReader.fill, BitVec.toNat_or, BitVec.toNat_shiftLeft, Nat.shiftLeft_eq, hb]
      have hdvd : s.bsBuff.toNat * 2 ^ 8 % 2 ^ 32 = 2 ^ 8 * (s.bsBuff.toNat % 2 ^ 24) := by
        omega
      rw [hdvd, Nat.two_pow_add_eq_or_of_lt hlow]
    have hmod : 2 ^ (pending.length + 8) ∣ 2 ^ 32 := Nat.pow_dvd_pow 2 (by omega)
    rw [hor, List.length_append, length_byteBits, toNat_append, length_byteBits, byteBits,
      toNat_ofNat_of_lt hlow, Nat.add_mod, Nat.mod_mod_of_dvd _ hmod, ← Nat.add_mod, pow_add,
      Nat.mul_comm (2 ^ pending.length), Nat.mod_mul, Nat.mul_comm _ (2 ^ 8),
      Nat.mul_add_mod, Nat.mod_eq_of_lt hlow, Nat.mul_add_div (by decide),
      Nat.div_eq_of_lt hlow, Nat.add_zero, h.buff]
    ring

/-- A number is taken from the bits that were read ahead. -/
lemma Pending.take {s : BitReader} {bits rest : List Bool} (h : Pending s (bits ++ rest))
    (hlen : bits.length ≤ 24) :
    Pending { s with bsLive := s.bsLive - bits.length } rest ∧
      (s.peek bits.length).toNat = toNat bits := by
  have hshort := h.short
  have hbuff := h.buff
  rw [List.length_append] at hshort hbuff
  rw [toNat_append] at hbuff
  have hbits := toNat_lt bits
  have hrest := toNat_lt rest
  have hamount : (s.bsLive - bits.length).toNat = rest.length := by
    rw [h.live, List.length_append]
    push_cast
    omega
  refine ⟨⟨?_, by omega, ?_⟩, ?_⟩
  · rw [h.live, List.length_append]
    push_cast
    ring
  · have hdvd : 2 ^ rest.length ∣ 2 ^ (bits.length + rest.length) :=
      Nat.pow_dvd_pow 2 (Nat.le_add_left _ _)
    show s.bsBuff.toNat % 2 ^ rest.length = toNat rest
    rw [← Nat.mod_mod_of_dvd _ hdvd, hbuff, Nat.mul_comm, Nat.mul_add_mod,
      Nat.mod_eq_of_lt hrest]
  · have hone : ((1 : BitVec 32) <<< bits.length).toNat = 2 ^ bits.length := by
      rw [BitVec.toNat_shiftLeft, Nat.shiftLeft_eq]
      exact (congrArg (· % 2 ^ 32) (Nat.one_mul _)).trans
        (Nat.mod_eq_of_lt (Nat.pow_lt_pow_right (by decide) (by omega)))
    have hpos := Nat.two_pow_pos bits.length
    have hmask : ((1 : BitVec 32) <<< bits.length - 1).toNat = 2 ^ bits.length - 1 := by
      rw [BitVec.toNat_sub_of_le (by rw [BitVec.le_def, hone]; exact hpos), hone]
      rfl
    rw [BitReader.peek, hamount, BitVec.toNat_and, hmask, Nat.and_two_pow_sub_one_eq_mod,
      BitVec.toNat_ushiftRight, Nat.shiftRight_eq_div_pow, ← Nat.mod_mul_right_div_self,
      Nat.mul_comm, ← pow_add, hbuff, Nat.mul_comm, Nat.mul_add_div (Nat.two_pow_pos _),
      Nat.div_eq_of_lt hrest, Nat.add_zero]

/-- Enough was read ahead. -/
lemma Pending.GET_BITS_of_le {s : BitReader} {bits more : List Bool} (h : Pending s (bits ++ more))
    (hlen : bits.length ≤ 24) (input : List UInt8) :
    ∃ v s', GET_BITS bits.length s input = (some v, s', input) ∧ v.toNat = toNat bits ∧
      Pending s' more := by
  obtain ⟨hpending, hpeek⟩ := h.take hlen
  have hlive := h.live
  rw [List.length_append] at hlive
  refine ⟨_, _, ?_, hpeek, hpending⟩
  rw [Bzip2.GET_BITS.eq_def, if_pos (by omega)]

/-- **A number is read** from the bits that were read ahead and those of the input. -/
theorem Pending.GET_BITS {s : BitReader} {pending bits rest : List Bool} {input : List UInt8}
    (h : Pending s pending) (hlen : bits.length ≤ 24)
    (hbits : pending ++ input.flatMap byteBits = bits ++ rest) :
    ∃ v s' pending' input', GET_BITS bits.length s input = (some v, s', input') ∧
      v.toNat = toNat bits ∧ Pending s' pending' ∧
      pending' ++ input'.flatMap byteBits = rest := by
  have henough : ∀ {s : BitReader} {pending : List Bool} {input : List UInt8},
      Pending s pending → pending ++ input.flatMap byteBits = bits ++ rest →
      bits.length ≤ pending.length →
      ∃ v s' pending' input', Bzip2.GET_BITS bits.length s input = (some v, s', input') ∧
        v.toNat = toNat bits ∧ Pending s' pending' ∧
        pending' ++ input'.flatMap byteBits = rest := by
    intro s pending input h hbits hle
    obtain ⟨more, rfl⟩ : ∃ more, pending = bits ++ more := by
      refine ⟨pending.drop bits.length, ?_⟩
      have htake := congrArg (List.take bits.length) hbits
      rw [List.take_append_of_le_length hle, List.take_left] at htake
      exact (List.take_append_drop bits.length pending).symm.trans (by rw [htake])
    rw [List.append_assoc, List.append_cancel_left_eq] at hbits
    obtain ⟨v, s', hget, hv, hpending⟩ := h.GET_BITS_of_le hlen input
    exact ⟨v, s', more, input, hget, hv, hpending, hbits⟩
  induction input generalizing s pending with
  | nil =>
    refine henough h hbits ?_
    have hlength := congrArg List.length hbits
    rw [List.flatMap_nil, List.append_nil, List.length_append] at hlength
    omega
  | cons b input ih =>
    by_cases hle : bits.length ≤ pending.length
    · exact henough h hbits hle
    · have hlive := h.live
      rw [Bzip2.GET_BITS.eq_def, if_neg (by omega)]
      refine ih (h.fill b (by omega)) ?_
      rw [← hbits, List.flatMap_cons, List.append_assoc]

/-- Where the input ends too early, the reader goes on when there is more. -/
theorem GET_BITS_append (nnn : ℕ) (s : BitReader) (input more : List UInt8) :
    GET_BITS nnn s (input ++ more) =
      match GET_BITS nnn s input with
      | (some v, s', input') => (some v, s', input' ++ more)
      | (none, s', _) => GET_BITS nnn s' more := by
  induction input generalizing s with
  | nil =>
    rw [GET_BITS.eq_def nnn s []]
    by_cases hlive : s.bsLive ≥ nnn
    · rw [if_pos hlive, GET_BITS.eq_def, if_pos hlive]
    · rw [if_neg hlive]
      rfl
  | cons b input ih =>
    rw [List.cons_append, GET_BITS.eq_def, GET_BITS.eq_def nnn s (b :: input)]
    by_cases hlive : s.bsLive ≥ nnn
    · rw [if_pos hlive, if_pos hlive]
      rfl
    · rw [if_neg hlive, if_neg hlive]
      exact ih (s.fill b)

lemma GET_BITS_nil {nnn : ℕ} {s s' : BitReader} {v : Option (BitVec 32)} {input : List UInt8}
    (h : GET_BITS nnn s [] = (v, s', input)) : input = [] := by
  rw [GET_BITS.eq_def] at h
  split at h
  · exact (congrArg (fun r => r.2.2) h).symm
  · exact (congrArg (fun r => r.2.2) h).symm

/-! ## Both -/

/-- A number and how many bits it takes. -/
structure Field where
  n : ℕ
  v : BitVec 32
  deriving DecidableEq

/-- The number fits, and `bsW` may be asked to write it. -/
def Field.Fits (f : Field) : Prop := f.n ≤ 24 ∧ f.v.toNat < 2 ^ f.n

instance (f : Field) : Decidable f.Fits := inferInstanceAs (Decidable (_ ∧ _))

/-- The bytes of a stream of numbers. -/
def putAll (fields : List Field) : List UInt8 :=
  (bsFinishWrite (fields.foldl (fun s f => bsW s f.n f.v) (bsInitWrite ⟨0, 0, []⟩))).zbits

/-- Numbers of these widths are read, with the pieces of the input one after the other. -/
def getAll : List ℕ → BitReader → List (List UInt8) → Option (List (BitVec 32))
  | [], _, _ => some []
  | n :: ns, s, [] =>
    match GET_BITS n s [] with
    | (none, _, _) => none
    | (some v, s', _) => (getAll ns s' []).map (v :: ·)
  | n :: ns, s, piece :: pieces =>
    match GET_BITS n s piece with
    | (none, s', _) => getAll (n :: ns) s' pieces
    | (some v, s', rest) => (getAll ns s' (rest :: pieces)).map (v :: ·)
termination_by ns _ pieces => (ns.length, pieces.length)

/-- Numbers of these widths are read from one piece. -/
def getFrom : List ℕ → BitReader → List UInt8 → Option (List (BitVec 32))
  | [], _, _ => some []
  | n :: ns, s, input =>
    match GET_BITS n s input with
    | (none, _, _) => none
    | (some v, s', rest) => (getFrom ns s' rest).map (v :: ·)

/-- How the input is cut does not matter. -/
lemma getAll_eq_getFrom (ns : List ℕ) (s : BitReader) (pieces : List (List UInt8)) :
    getAll ns s pieces = getFrom ns s pieces.flatten := by
  induction ns, s, pieces using getAll.induct with
  | case1 => rw [getAll, getFrom]
  | case2 n ns s s' input hget => rw [getAll, getFrom, List.flatten_nil, hget]
  | case3 n ns s v s' input hget ih =>
    obtain rfl := GET_BITS_nil hget
    rw [getAll, getFrom, List.flatten_nil, hget]
    dsimp only
    rw [ih, List.flatten_nil]
  | case4 n ns s piece pieces s' input hget ih =>
    rw [getAll, hget]
    dsimp only
    rw [ih, getFrom, getFrom, List.flatten_cons, GET_BITS_append, hget]
  | case5 n ns s piece pieces v s' rest hget ih =>
    rw [getAll, hget]
    dsimp only
    rw [ih, getFrom, List.flatten_cons, List.flatten_cons, GET_BITS_append, hget]

/-- What was written is read again from one piece. -/
lemma getFrom_eq {fields : List Field} (hfits : ∀ f ∈ fields, f.Fits) {s : BitReader}
    {pending rest : List Bool} {input : List UInt8} (h : Pending s pending)
    (hbits : pending ++ input.flatMap byteBits =
      (fields.flatMap fun f => ofNat f.n f.v.toNat) ++ rest) :
    getFrom (fields.map Field.n) s input = some (fields.map Field.v) := by
  induction fields generalizing s pending input with
  | nil => rfl
  | cons f fields ih =>
    obtain ⟨hn, hv⟩ := hfits f List.mem_cons_self
    rw [List.flatMap_cons, List.append_assoc] at hbits
    obtain ⟨v, s', pending', input', hget, hvalue, hpending, hrest⟩ :=
      h.GET_BITS (by rw [length_ofNat]; exact hn) hbits
    rw [length_ofNat] at hget
    rw [toNat_ofNat_of_lt hv] at hvalue
    rw [List.map_cons, List.map_cons, getFrom, hget]
    dsimp only
    rw [ih (fun f hf => hfits f (List.mem_cons_of_mem _ hf)) hpending hrest,
      BitVec.eq_of_toNat_eq hvalue]
    rfl

/-- The bits of the numbers are written one after the other. -/
lemma Holds.putFields {s : BitWriter} {pending bits : List Bool} (h : Holds s pending bits)
    {fields : List Field} (hfits : ∀ f ∈ fields, f.Fits) :
    ∃ pending', Holds (fields.foldl (fun s f => Bzip2.bsW s f.n f.v) s) pending'
      (bits ++ fields.flatMap fun f => ofNat f.n f.v.toNat) := by
  induction fields generalizing s pending bits with
  | nil => exact ⟨pending, by rwa [List.flatMap_nil, List.append_nil]⟩
  | cons f fields ih =>
    obtain ⟨hn, hv⟩ := hfits f List.mem_cons_self
    obtain ⟨pending', hput⟩ := h.bsW hn hv
    obtain ⟨pending'', hall⟩ := ih hput fun f hf => hfits f (List.mem_cons_of_mem _ hf)
    refine ⟨pending'', ?_⟩
    rw [List.flatMap_cons, ← List.append_assoc]
    exact hall

lemma holds_init : Holds (bsInitWrite ⟨0, 0, []⟩) [] [] := ⟨rfl, by decide, by decide, rfl⟩

lemma pending_init : Pending ⟨0, 0⟩ [] := ⟨rfl, by decide, by decide⟩

/-- **Round trip of the bit stream.** Numbers of any widths that are written with `bsW` and
`bsFinishWrite` are read again with `GET_BITS`, wherever the bytes are cut into pieces: a read
that finds too little goes on with the next piece. -/
theorem getAll_putAll (fields : List Field) (hfits : ∀ f ∈ fields, f.Fits)
    {pieces : List (List UInt8)} (hpieces : pieces.flatten = putAll fields) :
    getAll (fields.map Field.n) ⟨0, 0⟩ pieces = some (fields.map Field.v) := by
  obtain ⟨pending, hput⟩ := holds_init.putFields hfits
  obtain ⟨n, -, hbytes⟩ := hput.bsFinishWrite
  rw [List.nil_append] at hbytes
  rw [getAll_eq_getFrom, hpieces]
  exact getFrom_eq hfits pending_init hbytes

/-- A stream of two bytes, cut between them. -/
theorem getAll_putAll_pieces :
    getAll [4, 8] ⟨0, 0⟩ [(putAll [⟨4, 5⟩, ⟨8, 0x42⟩]).take 1, [],
      (putAll [⟨4, 5⟩, ⟨8, 0x42⟩]).drop 1] = some [5, 0x42] :=
  getAll_putAll [⟨4, 5⟩, ⟨8, 0x42⟩] (by decide) (by
    simp only [List.flatten_cons, List.flatten_nil, List.append_nil, List.nil_append,
      List.take_append_drop])

end Bzip2
end ClamavWin32
