import ClamavWin32.Bzip2.BitStream
import ClamavWin32.Semantics.ForLoop
import Mathlib.Logic.Function.Basic

/-!
# Codes and decoding tables

`BZ2_hbAssignCodes` and `BZ2_hbCreateDecodeTables` of `src/3rdparty/bzip2/huffman.c`, and the
decoding of a symbol by the tables as in `GET_MTF_VAL` of `decompress.c`. An array is a function of
its index.

* `hbAssignCodes`, `hbCreateDecodeTables`: the codes, and the tables to read them by;
* `decode`: a symbol is read.
-/

namespace ClamavWin32
namespace Bzip2

def BZ_MAX_ALPHA_SIZE : ℕ := 258

def BZ_MAX_CODE_LEN : ℕ := 23

/-! ## Codes -/

/-- A round of the inner loop of `BZ2_hbAssignCodes`. -/
def assignCode (length : ℕ → ℕ) (n i : ℕ) (s : (ℕ → ℤ) × ℤ) : (ℕ → ℤ) × ℤ :=
  if length i = n then (Function.update s.1 i s.2, s.2 + 1) else s

/-- `BZ2_hbAssignCodes`: the array `code` when it is over. -/
def hbAssignCodes (code : ℕ → ℤ) (length : ℕ → ℕ) (minLen maxLen alphaSize : ℕ) : ℕ → ℤ :=
  (forUpto minLen (maxLen + 1) (fun n s =>
    let s := forUpto 0 alphaSize (assignCode length n) s
    (s.1, s.2 <<< (1 : ℕ))) (code, 0)).1

/-! ## Decoding tables -/

/-- The arrays of a table. -/
structure DecodeTable where
  limit : ℕ → ℤ
  base : ℕ → ℤ
  perm : ℕ → ℕ

/-- A round of the inner loop that fills in `perm`. -/
def putPerm (length : ℕ → ℕ) (i j : ℕ) (s : (ℕ → ℕ) × ℕ) : (ℕ → ℕ) × ℕ :=
  if length j = i then (Function.update s.1 s.2 j, s.2 + 1) else s

/-- `BZ2_hbCreateDecodeTables` -/
def hbCreateDecodeTables (t : DecodeTable) (length : ℕ → ℕ) (minLen maxLen alphaSize : ℕ) :
    DecodeTable :=
  let perm := (forUpto minLen (maxLen + 1) (fun i s =>
    forUpto 0 alphaSize (putPerm length i) s) (t.perm, 0)).1
  let base := forUpto 0 BZ_MAX_CODE_LEN (fun i base => Function.update base i 0) t.base
  let base := forUpto 0 alphaSize (fun i base =>
    Function.update base (length i + 1) (base (length i + 1) + 1)) base
  let base := forUpto 1 BZ_MAX_CODE_LEN (fun i base =>
    Function.update base i (base i + base (i - 1))) base
  let limit := forUpto 0 BZ_MAX_CODE_LEN (fun i limit => Function.update limit i 0) t.limit
  let limit := (forUpto minLen (maxLen + 1) (fun i s =>
    let vec := s.2 + (base (i + 1) - base i)
    (Function.update s.1 i (vec - 1), vec <<< (1 : ℕ))) (limit, 0)).1
  let base := forUpto (minLen + 1) (maxLen + 1) (fun i base =>
    Function.update base i (((limit (i - 1) + 1) <<< (1 : ℕ)) - base i)) base
  { limit := limit, base := base, perm := perm }

/-- What comes of decoding a symbol: `BZ_DATA_ERROR`, a symbol and the bits behind its code, or
that there are too few bits. -/
inductive Decoded where
  | dataError
  | symbol (v : ℕ) (rest : List Bool)
  | more
  deriving DecidableEq

/-- The loop of `GET_MTF_VAL`, with `zn` bits read already. -/
def decodeFrom (t : DecodeTable) (zn zvec : ℕ) (bits : List Bool) : Decoded :=
  if zn > 20 then .dataError
  else if zvec ≤ t.limit zn then
    if zvec - t.base zn < 0 ∨ zvec - t.base zn ≥ BZ_MAX_ALPHA_SIZE then .dataError
    else .symbol (t.perm (zvec - t.base zn).toNat) bits
  else
    match bits with
    | [] => .more
    | zj :: bits => decodeFrom t (zn + 1) ((zvec <<< 1) ||| zj.toNat) bits

/-- `GET_MTF_VAL` within a group. -/
def decode (t : DecodeTable) (gMinlen : ℕ) (bits : List Bool) : Decoded :=
  if bits.length < gMinlen then .more
  else decodeFrom t gMinlen (BitString.toNat (bits.take gMinlen)) (bits.drop gMinlen)

/-- The least and the greatest of the lengths, as `sendMTFValues` and `BZ2_decompress` find
them. -/
def minMaxLen (length : ℕ → ℕ) (alphaSize : ℕ) : ℕ × ℕ :=
  forUpto 0 alphaSize (fun i s =>
    (if length i < s.1 then length i else s.1, if length i > s.2 then length i else s.2)) (32, 0)

end Bzip2
end ClamavWin32
