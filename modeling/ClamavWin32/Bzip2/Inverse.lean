import ClamavWin32.Bzip2.RunLengthRoundTrip
import ClamavWin32.Semantics.BurrowsWheeler
import ClamavWin32.Semantics.CanonicalCode

/-!
# The way back from the last letters of a block

The end of `BZ2_decompress` in `src/3rdparty/bzip2/decompress.c`, where the block is there as the
last letters of its sorted rows, and the reads from it: `BZ_GET_FAST` and `BZ_GET_SMALL` of
`bzlib_private.h`.

* `generateCftab`: where the rows of each first letter begin;
* `startFast`: the vector `tt`, which holds a letter and the next place together;
* `startSmall`: the vector in `ll16` and `ll4`, which has only the places: its cycle is reversed,
  and the letter comes from `BZ2_indexIntoF`.

A block has at most 900000 letters, so that nothing is shifted out of the 32 bits of an entry.
-/

namespace ClamavWin32
namespace Bzip2

/-! ## The tables -/

/-- "Actually generate cftab." -/
def generateCftab (unzftab cftab : ℕ → ℕ) : ℕ → ℕ :=
  let cftab := Function.update cftab 0 0
  let cftab := forUpto 1 257 (fun i cftab => Function.update cftab i (unzftab (i - 1))) cftab
  forUpto 1 257 (fun i cftab => Function.update cftab i (cftab i + cftab (i - 1))) cftab

/-- A round of "compute the T^(-1) vector": `tt` and `cftab`. -/
def linkFast (i : ℕ) (s : (ℕ → ℕ) × (ℕ → ℕ)) : (ℕ → ℕ) × (ℕ → ℕ) :=
  let uc := s.1 i &&& 0xff
  (Function.update s.1 (s.2 uc) (s.1 (s.2 uc) ||| (i <<< 8)),
    Function.update s.2 uc (s.2 uc + 1))

/-- `tt`, and `tPos` to start from. -/
def startFast (nblock origPtr : ℕ) (tt cftab : ℕ → ℕ) : (ℕ → ℕ) × ℕ :=
  let tt := (forUpto 0 nblock linkFast (tt, cftab)).1
  (tt, tt origPtr >>> 8)

/-- `BZ_GET_FAST`, where nothing is a `return`. -/
def BZ_GET_FAST (blockSize100k : ℕ) (tt : ℕ → ℕ) (tPos : ℕ) : Option (UInt8 × ℕ) :=
  if tPos ≥ 100000 * blockSize100k then none
  else some (UInt8.ofNat (tt tPos &&& 0xff), tt tPos >>> 8)

/-- The arrays of the small mode: 16 bits of an entry, and the 4 above them, which share a byte with
those of the entry beside it. -/
structure SmallBlock where
  ll16 : ℕ → ℕ
  ll4 : ℕ → ℕ

namespace SmallBlock

def SET_LL4 (s : SmallBlock) (i n : ℕ) : SmallBlock :=
  if i &&& 1 = 0 then
    { s with ll4 := Function.update s.ll4 (i >>> 1) (((s.ll4 (i >>> 1) &&& 0xf0) ||| n) % 256) }
  else
    { s with
      ll4 := Function.update s.ll4 (i >>> 1) (((s.ll4 (i >>> 1) &&& 0x0f) ||| (n <<< 4)) % 256) }

def GET_LL4 (s : SmallBlock) (i : ℕ) : ℕ := (s.ll4 (i >>> 1) >>> ((i <<< 2) &&& 4)) &&& 0xF

def SET_LL (s : SmallBlock) (i n : ℕ) : SmallBlock :=
  SET_LL4 { s with ll16 := Function.update s.ll16 i (n &&& 0x0000ffff) } i (n >>> 16)

def GET_LL (s : SmallBlock) (i : ℕ) : ℕ := s.ll16 i ||| (s.GET_LL4 i <<< 16)

/-- A round of "compute the T vector": the arrays and `cftabCopy`. -/
def link (i : ℕ) (s : SmallBlock × (ℕ → ℕ)) : SmallBlock × (ℕ → ℕ) :=
  let uc := s.1.ll16 i % 256
  (s.1.SET_LL i (s.2 uc), Function.update s.2 uc (s.2 uc + 1))

/-- "Compute T^(-1) by pointer reversal on T", for up to `fuel` rounds. -/
def reversePointers (origPtr : ℕ) : ℕ → ℕ → ℕ → SmallBlock → Option SmallBlock
  | 0, _, _, _ => none
  | fuel + 1, i, j, s =>
    let tmp := s.GET_LL j
    let s := s.SET_LL j i
    if j ≠ origPtr then reversePointers origPtr fuel j tmp s else some s

end SmallBlock

/-- The arrays that the small mode reads from; it starts at `origPtr`. -/
def startSmall (nblock origPtr : ℕ) (s : SmallBlock) (cftab : ℕ → ℕ) : Option SmallBlock :=
  let s := (forUpto 0 nblock SmallBlock.link (s, cftab)).1
  s.reversePointers origPtr nblock origPtr (s.GET_LL origPtr)

/-- The loop of `BZ2_indexIntoF`, where `nb < na`. -/
def indexBetween (indx : ℕ) (cftab : ℕ → ℕ) (nb na : ℕ) : ℕ :=
  if na - nb ≤ 1 then nb
  else
    let mid := (nb + na) >>> 1
    if indx ≥ cftab mid then indexBetween indx cftab mid na else indexBetween indx cftab nb mid
termination_by na - nb
decreasing_by
  · simp only [Nat.shiftRight_eq_div_pow]
    omega
  · simp only [Nat.shiftRight_eq_div_pow]
    omega

def BZ2_indexIntoF (indx : ℕ) (cftab : ℕ → ℕ) : ℕ := indexBetween indx cftab 0 256

/-- `BZ_GET_SMALL`, where nothing is a `return`. -/
def BZ_GET_SMALL (blockSize100k : ℕ) (s : SmallBlock) (cftab : ℕ → ℕ) (tPos : ℕ) :
    Option (UInt8 × ℕ) :=
  if tPos ≥ 100000 * blockSize100k then none
  else some (UInt8.ofNat (BZ2_indexIntoF tPos cftab), s.GET_LL tPos)

end Bzip2
end ClamavWin32
