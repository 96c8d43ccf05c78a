import ClamavWin32.Bzip2.MtfArrays
import ClamavWin32.Bzip2.RunLength

/-!
# The values of a block

How a sorted block becomes a row of values, and back: a byte is named by its place in an order in
which it then goes to the front, and a run of the first place is written as a number in the digits
`BZ_RUNA` and `BZ_RUNB`.

* `generateMTFValues` of `src/3rdparty/bzip2/compress.c`: the values overwrite the sorted pointers
  that they are made from;
* `mtfLoop` of `BZ2_decompress` in `decompress.c`: the values come from `GET_MTF_VAL`, which is a
  parameter.
-/

namespace ClamavWin32
namespace Bzip2

def BZ_RUNA : ℕ := 0

def BZ_RUNB : ℕ := 1

/-! ## Maps -/

/-- `makeMaps_e`: `nInUse` and `unseqToSeq`. -/
def makeMaps_e (inUse : ℕ → Bool) (unseqToSeq : ℕ → ℕ) : ℕ × (ℕ → ℕ) :=
  forUpto 0 256 (fun i s =>
    if inUse i then (s.1 + 1, Function.update s.2 i s.1) else s) (0, unseqToSeq)

/-- `makeMaps_d`: `nInUse` and `seqToUnseq`. -/
def makeMaps_d (inUse : ℕ → Bool) (seqToUnseq : ℕ → UInt8) : ℕ × (ℕ → UInt8) :=
  forUpto 0 256 (fun i s =>
    if inUse i then (s.1 + 1, Function.update s.2 s.1 (UInt8.ofNat i)) else s) (0, seqToUnseq)

/-! ## Making the values -/

/-- The state of `generateMTFValues`. `arr1` has cells of 16 bits: two of them are an entry of
`ptr`, and one is an entry of `mtfv`. -/
structure MtfState where
  yy : ℕ → ℕ
  zPend : ℕ
  arr1 : ℕ → ℕ
  wr : ℕ
  mtfFreq : ℕ → ℕ

/-- `ptr[i]` -/
def ptrAt (arr1 : ℕ → ℕ) (i : ℕ) : ℕ := arr1 (2 * i) + arr1 (2 * i + 1) * 65536

namespace MtfState

/-- `mtfv[wr] = v; wr++; s->mtfFreq[v]++` -/
def emit (s : MtfState) (v : ℕ) : MtfState :=
  { s with
    arr1 := Function.update s.arr1 s.wr v
    wr := s.wr + 1
    mtfFreq := Function.update s.mtfFreq v (s.mtfFreq v + 1) }

/-- The loop that writes the digits of a run. -/
def emitRun (s : MtfState) (zPend : ℕ) : MtfState :=
  let s := if zPend &&& 1 = 1 then s.emit BZ_RUNB else s.emit BZ_RUNA
  if zPend < 2 then s else s.emitRun ((zPend - 2) / 2)
termination_by zPend
decreasing_by omega

/-- A run ends, if there is one. -/
def flush (s : MtfState) : MtfState :=
  if s.zPend > 0 then { s.emitRun (s.zPend - 1) with zPend := 0 } else s

/-- `while ( rll_i != rtmp )`, with `j` for `ryy_j - &(yy[0])`: `yy` and `j` when the byte is found
and put in front. Nothing is read behind the end of `yy`. -/
def shiftTo (rll_i : ℕ) (yy : ℕ → ℕ) (rtmp j : ℕ) : Option ((ℕ → ℕ) × ℕ) :=
  if rll_i ≠ rtmp then
    if j + 1 < 256 then shiftTo rll_i (Function.update yy (j + 1) rtmp) (yy (j + 1)) (j + 1)
    else none
  else some (Function.update yy 0 rtmp, j)
termination_by 256 - j

/-- A byte of the block. -/
def putByte (s : MtfState) (ll_i : ℕ) : Option MtfState :=
  if s.yy 0 = ll_i then some { s with zPend := s.zPend + 1 }
  else
    let s := s.flush
    (shiftTo ll_i (Function.update s.yy 1 (s.yy 0)) (s.yy 1) 1).map fun r =>
      { s with yy := r.1 }.emit (r.2 + 1)

end MtfState

/-- A round of the loop over the block. -/
def mtfRound (block : ℕ → UInt8) (nblock : ℕ) (unseqToSeq : ℕ → ℕ) (i : ℕ)
    (s : Option MtfState) : Option MtfState :=
  s.bind fun s =>
    let j : ℤ := ptrAt s.arr1 i - 1
    let j := if j < 0 then j + nblock else j
    s.putByte (unseqToSeq (block j.toNat).toNat)

/-- `generateMTFValues`: `nMTF`, and what is in `arr1` and `mtfFreq`. -/
def generateMTFValues (block : ℕ → UInt8) (nblock : ℕ) (inUse : ℕ → Bool) (unseqToSeq : ℕ → ℕ)
    (arr1 yy mtfFreq : ℕ → ℕ) : Option MtfState :=
  let maps := makeMaps_e inUse unseqToSeq
  let nInUse := maps.1
  let EOB := nInUse + 1
  let mtfFreq := forUpto 0 (EOB + 1) (fun i f => Function.update f i 0) mtfFreq
  let yy := forUpto 0 nInUse (fun i yy => Function.update yy i i) yy
  (forUpto 0 nblock (mtfRound block nblock maps.2)
    (some { yy := yy, zPend := 0, arr1 := arr1, wr := 0, mtfFreq := mtfFreq })).map fun s =>
      s.flush.emit EOB

/-! ## Reading the values -/

/-- Why `BZ2_decompress` does not go on: there is no more input, or it returns an error. -/
inductive Stop where
  | more
  | BZ_DATA_ERROR
  | BZ_DATA_ERROR_MAGIC
  deriving DecidableEq

/-- The block that is read: the order of the bytes, how often each occurs, and `tt` or `ll16` up to
`nblock`. -/
structure MtfBlock where
  arrays : MtfArrays
  unzftab : ℕ → ℕ
  ll : List UInt8

def MtfBlock.nblock (s : MtfBlock) : ℕ := s.ll.length

/-- `s->unzftab[uc] += n` -/
def MtfBlock.count (s : MtfBlock) (uc : UInt8) (n : ℕ) : MtfBlock :=
  { s with unzftab := Function.update s.unzftab uc.toNat (s.unzftab uc.toNat + n) }

/-- `s->tt[nblock] = (UInt32)uc; nblock++` -/
def MtfBlock.put (s : MtfBlock) (uc : UInt8) : MtfBlock := { s with ll := s.ll ++ [uc] }

section

variable {ρ : Type*} (next : ρ → Except Stop (ℕ × ρ))

/-- A digit of the number that a run is written as. -/
def addDigit (nextSym : ℕ) (es : ℤ) (N : ℕ) : ℤ :=
  if nextSym = BZ_RUNA then es + (0 + 1) * N
  else if nextSym = BZ_RUNB then es + (1 + 1) * N
  else es

/-- A run of the first byte: `es`, and the value behind the run. -/
def readRun (nextSym : ℕ) (es : ℤ) (N : ℕ) (hN : 0 < N) (s : ρ) : Except Stop (ℤ × ℕ × ρ) :=
  if N ≥ 2 * 1024 * 1024 then .error .BZ_DATA_ERROR
  else
    match next s with
    | .error e => .error e
    | .ok (sym, s) =>
      if sym = BZ_RUNA ∨ sym = BZ_RUNB then
        readRun sym (addDigit nextSym es N) (N * 2) (Nat.mul_pos hN two_pos) s
      else .ok (addDigit nextSym es N, sym, s)
termination_by 2 * 1024 * 1024 - N

/-- `while (es > 0)` -/
def putRun (nblockMAX : ℕ) (uc : UInt8) : ℕ → MtfBlock → Except Stop MtfBlock
  | 0, s => .ok s
  | es + 1, s =>
    if s.nblock ≥ nblockMAX then .error .BZ_DATA_ERROR else putRun nblockMAX uc es (s.put uc)

variable {next}

lemma le_addDigit {nextSym : ℕ} (hrun : nextSym = BZ_RUNA ∨ nextSym = BZ_RUNB) (es : ℤ) (N : ℕ) :
    es + N ≤ addDigit nextSym es N := by
  rcases hrun with rfl | rfl
  · rw [addDigit, if_pos rfl]
    omega
  · rw [addDigit, if_neg (show BZ_RUNB ≠ BZ_RUNA from one_ne_zero), if_pos rfl]
    omega

/-- A run is not empty. -/
lemma le_readRun {nextSym : ℕ} {es : ℤ} {N : ℕ} {hN : 0 < N} {s : ρ} {r : ℤ × ℕ × ρ}
    (hrun : nextSym = BZ_RUNA ∨ nextSym = BZ_RUNB)
    (h : readRun next nextSym es N hN s = .ok r) : es + N ≤ r.1 := by
  have hdigit := le_addDigit hrun es N
  induction nextSym, es, N, hN, s using readRun.induct next with
  | case1 nextSym es N hN s hbig =>
    rw [readRun, if_pos hbig] at h
    cases h
  | case2 nextSym es N hN s hbig e hnext =>
    rw [readRun, if_neg hbig, hnext] at h
    cases h
  | case3 nextSym es N hN s hbig sym s' hnext hagain ih =>
    rw [readRun, if_neg hbig, hnext] at h
    dsimp only at h
    rw [if_pos hagain] at h
    have hle := ih hagain h (le_addDigit hagain _ _)
    omega
  | case4 nextSym es N hN s hbig sym s' hnext hagain =>
    rw [readRun, if_neg hbig, hnext] at h
    dsimp only at h
    rw [if_neg hagain] at h
    cases h
    exact hdigit

lemma nblock_putRun {nblockMAX : ℕ} {uc : UInt8} {es : ℕ} {s s' : MtfBlock} (hes : 0 < es)
    (h : putRun nblockMAX uc es s = .ok s') : s.nblock < s'.nblock ∧ s.nblock < nblockMAX := by
  obtain ⟨es, rfl⟩ : ∃ m, es = m + 1 := ⟨es - 1, by omega⟩
  clear hes
  induction es generalizing s with
  | zero =>
    rw [putRun] at h
    split_ifs at h with hfull
    cases h
    refine ⟨?_, not_le.mp hfull⟩
    rw [MtfBlock.nblock, MtfBlock.nblock, MtfBlock.put, List.length_append]
    exact Nat.lt_succ_self _
  | succ es ih =>
    rw [putRun] at h
    split_ifs at h with hfull
    have hlen : (s.put uc).nblock = s.nblock + 1 := List.length_append
    have hless := (ih h).1
    exact ⟨by omega, not_le.mp hfull⟩

variable (next)

/-- "Now the MTF values": the loop, with the value that was read last. -/
def mtfLoop (EOB nblockMAX : ℕ) (seqToUnseq : ℕ → UInt8) (s : MtfBlock) (nextSym : ℕ) (src : ρ) :
    Except Stop (MtfBlock × ρ) :=
  if nextSym = EOB then .ok (s, src)
  else if _hrun : nextSym = BZ_RUNA ∨ nextSym = BZ_RUNB then
    match _hread : readRun next nextSym (-1) 1 one_pos src with
    | .error e => .error e
    | .ok (es, sym, src') =>
      let uc := seqToUnseq (s.arrays.mtfa (s.arrays.mtfbase 0))
      let es := (es + 1).toNat
      match _hput : putRun nblockMAX uc es (s.count uc es) with
      | .error e => .error e
      | .ok s' => mtfLoop EOB nblockMAX seqToUnseq s' sym src'
  else if s.nblock ≥ nblockMAX then .error .BZ_DATA_ERROR
  else
    let r := s.arrays.mtf (nextSym - 1)
    let uc := seqToUnseq r.1
    match next src with
    | .error e => .error e
    | .ok (sym, src') =>
      mtfLoop EOB nblockMAX seqToUnseq
        ((MtfBlock.count { s with arrays := r.2 } uc 1).put uc) sym src'
termination_by nblockMAX - s.nblock
decreasing_by
  · have hes := le_readRun _hrun _hread
    obtain ⟨hmore, hroom⟩ := nblock_putRun (by dsimp only at hes; omega) _hput
    replace hmore : s.nblock < _ := hmore
    replace hroom : s.nblock < nblockMAX := hroom
    omega
  · have hlen : ∀ (a : MtfArrays) (c : UInt8),
        ((MtfBlock.count { s with arrays := a } c 1).put c).nblock = s.nblock + 1 :=
      fun _ _ => List.length_append
    rw [hlen]
    omega

/-- The block before the values are read. -/
def MtfBlock.start (s : MtfBlock) : MtfBlock :=
  { arrays := s.arrays.init
    unzftab := forUpto 0 256 (fun i u => Function.update u i 0) s.unzftab
    ll := [] }

/-- "Now the MTF values" -/
def readMtfValues (EOB nblockMAX : ℕ) (seqToUnseq : ℕ → UInt8) (s : MtfBlock) (src : ρ) :
    Except Stop (MtfBlock × ρ) :=
  match next src with
  | .error e => .error e
  | .ok (sym, src) => mtfLoop next EOB nblockMAX seqToUnseq s.start sym src

end

end Bzip2
end ClamavWin32
