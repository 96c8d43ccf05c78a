import ClamavWin32.Semantics.ForLoop
import Mathlib.Data.Int.Notation
import Mathlib.Logic.Function.Basic

/-!
# Code lengths

`BZ2_hbMakeCodeLengths` of `src/3rdparty/bzip2/huffman.c`: the two nodes of least weight are put
under a new one until there is one node left, and the length of a code is how deep its leaf is. If
one is too long the weights are made less different, and it all begins again.

* `UPHEAP`, `DOWNHEAP`: the heap of the nodes that have no parent;
* `HeapState`: the arrays of the function, whose entries `0` are sentinels;
* `hbMakeCodeLengths`: the function.

A weight has the depth of its node in the 8 low bits.
-/

namespace ClamavWin32
namespace Bzip2

def WEIGHTOF (zz0 : ℕ) : ℕ := zz0 &&& 0xffffff00

def DEPTHOF (zz1 : ℕ) : ℕ := zz1 &&& 0x000000ff

def ADDWEIGHTS (zw1 zw2 : ℕ) : ℕ :=
  (WEIGHTOF zw1 + WEIGHTOF zw2) |||
    (1 + if DEPTHOF zw1 > DEPTHOF zw2 then DEPTHOF zw1 else DEPTHOF zw2)

/-- The loop of `UPHEAP`. At place `0` it would not end. -/
def upheapLoop (weight : ℕ → ℕ) (tmp : ℕ) (heap : ℕ → ℕ) (zz : ℕ) : Option (ℕ → ℕ) :=
  if weight tmp < weight (heap (zz >>> 1)) then
    if zz = 0 then none
    else upheapLoop weight tmp (Function.update heap zz (heap (zz >>> 1))) (zz >>> 1)
  else some (Function.update heap zz tmp)
termination_by zz
decreasing_by
  rw [Nat.shiftRight_eq_div_pow]
  omega

def UPHEAP (weight heap : ℕ → ℕ) (z : ℕ) : Option (ℕ → ℕ) := upheapLoop weight (heap z) heap z

/-- The loop of `DOWNHEAP`. -/
def downheapLoop (weight : ℕ → ℕ) (nHeap tmp : ℕ) (heap : ℕ → ℕ) (zz : ℕ) (hzz : 0 < zz) : ℕ → ℕ :=
  if zz <<< 1 > nHeap then Function.update heap zz tmp
  else
    let yy := zz <<< 1 +
      if zz <<< 1 < nHeap ∧ weight (heap (zz <<< 1 + 1)) < weight (heap (zz <<< 1)) then 1 else 0
    if weight tmp < weight (heap yy) then Function.update heap zz tmp
    else downheapLoop weight nHeap tmp (Function.update heap zz (heap yy)) yy
      (Nat.lt_add_right _ (by rw [Nat.shiftLeft_eq]; omega))
termination_by nHeap + 1 - zz
decreasing_by
  rw [Nat.shiftLeft_eq] at *
  omega

/-- `DOWNHEAP(1)` -/
def DOWNHEAP (weight : ℕ → ℕ) (nHeap : ℕ) (heap : ℕ → ℕ) : ℕ → ℕ :=
  downheapLoop weight nHeap (heap 1) heap 1 Nat.one_pos

structure HeapState where
  heap : ℕ → ℕ
  nHeap : ℕ
  weight : ℕ → ℕ
  parent : ℕ → ℤ
  nNodes : ℕ

namespace HeapState

/-- `nHeap++; heap[nHeap] = i; UPHEAP(nHeap)` -/
def push (s : HeapState) (i : ℕ) : Option HeapState :=
  (UPHEAP s.weight (Function.update s.heap (s.nHeap + 1) i) (s.nHeap + 1)).map fun heap =>
    { s with heap := heap, nHeap := s.nHeap + 1 }

/-- `n1 = heap[1]; heap[1] = heap[nHeap]; nHeap--; DOWNHEAP(1)` -/
def pop (s : HeapState) : ℕ × HeapState :=
  (s.heap 1,
    { s with
      heap := DOWNHEAP s.weight (s.nHeap - 1) (Function.update s.heap 1 (s.heap s.nHeap))
      nHeap := s.nHeap - 1 })

/-- The arrays before the nodes are put in. -/
def reset (s : HeapState) (alphaSize : ℕ) : HeapState where
  heap := Function.update s.heap 0 0
  nHeap := 0
  weight := Function.update s.weight 0 0
  parent := Function.update s.parent 0 (-2)
  nNodes := alphaSize

/-- A round of the loop that puts the leaves in. -/
def pushLeaf (i : ℕ) (s : Option HeapState) : Option HeapState :=
  s.bind fun s => push { s with parent := Function.update s.parent i (-1) } i

/-- A round of `while (nHeap > 1)`. -/
def mergeTwo (s : HeapState) : Option HeapState :=
  let n1 := s.pop.1
  let s := s.pop.2
  let n2 := s.pop.1
  let s := s.pop.2
  let nNodes := s.nNodes + 1
  push { s with
    nNodes := nNodes
    parent := Function.update
      (Function.update (Function.update s.parent n2 nNodes) n1 nNodes) nNodes (-1)
    weight := Function.update s.weight nNodes (ADDWEIGHTS (s.weight n1) (s.weight n2)) } nNodes

lemma nHeap_push {s s' : HeapState} {i : ℕ} (h : s.push i = some s') : s'.nHeap = s.nHeap + 1 := by
  rw [push, Option.map_eq_some_iff] at h
  obtain ⟨heap, -, rfl⟩ := h
  rfl

lemma nHeap_mergeTwo {s s' : HeapState} (h : s.mergeTwo = some s') :
    s'.nHeap = s.nHeap - 1 - 1 + 1 := nHeap_push h

/-- `while (nHeap > 1)` -/
def mergeAll (s : HeapState) : Option HeapState :=
  if s.nHeap > 1 then
    match _h : s.mergeTwo with
    | none => none
    | some s' => mergeAll s'
  else some s
termination_by s.nHeap
decreasing_by
  have := nHeap_mergeTwo _h
  omega

end HeapState

/-- `while (parent[k] >= 0) { k = parent[k]; j++; }`, for up to `fuel` rounds. -/
def countUp (parent : ℕ → ℤ) : ℕ → ℕ → ℕ → Option ℕ
  | 0, _, _ => none
  | fuel + 1, k, j => if parent k ≥ 0 then countUp parent fuel (parent k).toNat (j + 1) else some j

/-- The loop that finds the lengths: `len` and `tooLong`. -/
def findLengths (parent : ℕ → ℤ) (alphaSize maxLen : ℕ) (len : ℕ → ℕ) : Option ((ℕ → ℕ) × Bool) :=
  forUpto 1 (alphaSize + 1) (fun i o => o.bind fun s =>
    (countUp parent (2 * alphaSize) i 0).map fun j =>
      (Function.update s.1 (i - 1) j, if j > maxLen then true else s.2)) (some (len, false))

/-- `j = weight[i] >> 8; j = 1 + (j / 2); weight[i] = j << 8`, for all leaves. -/
def scaleWeights (alphaSize : ℕ) (weight : ℕ → ℕ) : ℕ → ℕ :=
  forUpto 1 (alphaSize + 1)
    (fun i weight => Function.update weight i ((1 + (weight i >>> 8) / 2) <<< 8)) weight

/-- `while (True)`, for up to `fuel` rounds. -/
def lengthsLoop (alphaSize maxLen : ℕ) : ℕ → HeapState → (ℕ → ℕ) → Option (ℕ → ℕ)
  | 0, _, _ => none
  | fuel + 1, s, len => do
    let s ← forUpto 1 (alphaSize + 1) HeapState.pushLeaf (some (s.reset alphaSize))
    let s ← s.mergeAll
    let r ← findLengths s.parent alphaSize maxLen len
    if r.2 then
      lengthsLoop alphaSize maxLen fuel { s with weight := scaleWeights alphaSize s.weight } r.1
    else some r.1

/-- `BZ2_hbMakeCodeLengths`. What is in the arrays before does not matter. -/
def hbMakeCodeLengths (fuel : ℕ) (s : HeapState) (len freq : ℕ → ℕ) (alphaSize maxLen : ℕ) :
    Option (ℕ → ℕ) :=
  let weight := forUpto 0 alphaSize (fun i weight =>
    Function.update weight (i + 1) ((if freq i = 0 then 1 else freq i) <<< 8)) s.weight
  lengthsLoop alphaSize maxLen fuel { s with weight := weight } len

end Bzip2
end ClamavWin32
