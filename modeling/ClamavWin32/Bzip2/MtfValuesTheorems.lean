import ClamavWin32.Bzip2.MtfValues
import Mathlib.Data.Nat.Count

/-!
# The values of a block: the round trip

* `digits`, `symbols`, `places`: how a run and a place behind it are written, and what they are;
* `generateMTFValues_spec`: the values that are made, although they overwrite the pointers;
* `mtfLoop_spec`: the block that is read from values;
* `readMtfValues_generateMTFValues`: the letters are read again.
-/

namespace ClamavWin32
namespace Bzip2

open MoveToFront

/-! ## Values -/

/-- The digits of a number, each of them one or two times a power of two. -/
def digits (z : ℕ) : List ℕ :=
  if z = 0 then [] else (if z % 2 = 0 then BZ_RUNB else BZ_RUNA) :: digits ((z - 1) / 2)
termination_by z
decreasing_by omega

/-- How a run of the first place, and another place behind it, are written. -/
def symbols (p : ℕ × ℕ) : List ℕ := digits p.1 ++ [p.2 + 1]

/-- The places that they are. -/
def places (p : ℕ × ℕ) : List ℕ := List.replicate p.1 0 ++ [p.2]

lemma digits_zero : digits 0 = [] := by rw [digits, if_pos rfl]

lemma digits_of_pos {z : ℕ} (h : 0 < z) :
    digits z = (if z % 2 = 0 then BZ_RUNB else BZ_RUNA) :: digits ((z - 1) / 2) := by
  rw [digits, if_neg h.ne']

/-- A number is at least as large as it is long. -/
lemma length_digits_le (z : ℕ) : (digits z).length ≤ z := by
  induction z using digits.induct with
  | case1 => rw [digits_zero, List.length_nil]
  | case2 z h ih =>
    rw [digits_of_pos (Nat.pos_of_ne_zero h), List.length_cons]
    omega

/-! ## Making them -/

namespace MtfState

/-- The values that are written. -/
def mtfv (s : MtfState) : List ℕ := (List.range s.wr).map s.arr1

/-- What is written is `vs` more, and the rest of the memory is as it was. -/
structure Emits (s s' : MtfState) (vs : List ℕ) : Prop where
  mtfv : s'.mtfv = s.mtfv ++ vs
  wr : s'.wr = s.wr + vs.length
  arr1 : ∀ c, s'.wr ≤ c → s'.arr1 c = s.arr1 c
  freq : ∀ v, s'.mtfFreq v = s.mtfFreq v + vs.count v

lemma emits_emit (s : MtfState) (v : ℕ) : s.Emits (s.emit v) [v] := by
  refine ⟨?_, rfl, fun c hc => ?_, fun u => ?_⟩
  · rw [mtfv, mtfv, emit]
    dsimp only
    rw [List.range_succ, List.map_append, List.map_singleton, Function.update_self]
    congr 1
    refine List.map_congr_left fun i hi => ?_
    exact Function.update_of_ne (List.mem_range.mp hi).ne _ _
  · have hc' : s.wr + 1 ≤ c := hc
    exact Function.update_of_ne (by omega) _ _
  · rw [emit]
    dsimp only
    rw [Function.update_apply, List.count_singleton]
    by_cases heq : u = v
    · rw [if_pos heq, heq, beq_self_eq_true, if_pos rfl]
    · rw [if_neg heq, beq_false_of_ne (Ne.symm heq), if_neg Bool.false_ne_true, Nat.add_zero]

lemma Emits.trans {s₁ s₂ s₃ : MtfState} {vs ws : List ℕ} (h : s₁.Emits s₂ vs)
    (h' : s₂.Emits s₃ ws) : s₁.Emits s₃ (vs ++ ws) := by
  refine ⟨?_, ?_, fun c hc => ?_, fun v => ?_⟩
  · rw [h'.mtfv, h.mtfv, List.append_assoc]
  · rw [h'.wr, h.wr, List.length_append, Nat.add_assoc]
  · rw [h'.arr1 c hc, h.arr1 c (by have := h'.wr; omega)]
  · rw [h'.freq, h.freq, List.count_append, Nat.add_assoc]

lemma Emits.refl (s : MtfState) : s.Emits s [] :=
  ⟨(List.append_nil _).symm, rfl, fun _ _ => rfl, fun _ => rfl⟩

lemma emits_emitRun (s : MtfState) (zPend : ℕ) :
    s.Emits (s.emitRun zPend) (digits (zPend + 1)) := by
  induction zPend using Nat.strong_induction_on generalizing s with
  | _ zPend ih =>
    have hbit : zPend &&& 1 = zPend % 2 := Nat.and_two_pow_sub_one_eq_mod zPend 1
    have hfirst : s.Emits (if zPend &&& 1 = 1 then s.emit BZ_RUNB else s.emit BZ_RUNA)
        [if (zPend + 1) % 2 = 0 then BZ_RUNB else BZ_RUNA] := by
      rw [hbit]
      by_cases hodd : zPend % 2 = 1
      · rw [if_pos hodd, if_pos (by omega)]
        exact emits_emit s _
      · rw [if_neg hodd, if_neg (by omega)]
        exact emits_emit s _
    rw [emitRun, digits_of_pos (show 0 < zPend + 1 by omega), Nat.add_sub_cancel]
    by_cases hlast : zPend < 2
    · rw [if_pos hlast, show zPend / 2 = 0 by omega, digits_zero]
      exact hfirst
    · rw [if_neg hlast]
      have hrest := ih ((zPend - 2) / 2) (by omega)
        (if zPend &&& 1 = 1 then s.emit BZ_RUNB else s.emit BZ_RUNA)
      rw [show (zPend - 2) / 2 + 1 = zPend / 2 by omega] at hrest
      exact hfirst.trans hrest

lemma yy_emitRun (s : MtfState) (zPend : ℕ) : (s.emitRun zPend).yy = s.yy := by
  induction zPend using Nat.strong_induction_on generalizing s with
  | _ zPend ih =>
    have hfirst : (if zPend &&& 1 = 1 then s.emit BZ_RUNB else s.emit BZ_RUNA).yy = s.yy := by
      split <;> rfl
    rw [emitRun]
    by_cases hlast : zPend < 2
    · rw [if_pos hlast, hfirst]
    · rw [if_neg hlast, ih _ (by omega), hfirst]

lemma yy_flush (s : MtfState) : s.flush.yy = s.yy := by
  rw [flush]
  split_ifs
  · exact yy_emitRun s _
  · rfl

lemma emits_flush (s : MtfState) : s.Emits s.flush (digits s.zPend) := by
  rw [flush]
  by_cases hpos : s.zPend > 0
  · have h := emits_emitRun s (s.zPend - 1)
    rw [Nat.sub_add_cancel hpos] at h
    rw [if_pos hpos]
    exact ⟨h.mtfv, h.wr, h.arr1, h.freq⟩
  · rw [if_neg hpos, show s.zPend = 0 by omega, digits_zero]
    exact Emits.refl s

lemma zPend_flush (s : MtfState) : s.flush.zPend = 0 := by
  rw [flush]
  split_ifs with hpos
  · rfl
  · omega

/-- The byte is found, and goes to the front. -/
lemma shiftTo_spec {yy : ℕ → ℕ} {k : ℕ} (hk : k < 256) (hother : ∀ j < k, yy j ≠ yy k)
    (n : ℕ) : ∀ {j : ℕ} {a : ℕ → ℕ}, j + n = k → 1 ≤ j →
      (∀ i, a i = if 1 ≤ i ∧ i ≤ j then yy (i - 1) else yy i) →
      shiftTo (yy k) a (yy j) j = some (toFront yy k, k) := by
  induction n with
  | zero =>
    intro j a hj hpos ha
    obtain rfl : j = k := by omega
    rw [shiftTo, if_neg (not_not.mpr rfl)]
    congr 2
    funext i
    rw [Function.update_apply, ha, toFront]
    rcases Nat.eq_zero_or_pos i with rfl | hi
    · rw [if_pos rfl, if_pos rfl]
    · rw [if_neg hi.ne', if_neg hi.ne']
      split_ifs <;> first | rfl | omega
  | succ n ih =>
    intro j a hj hpos ha
    rw [shiftTo, if_pos (Ne.symm (hother j (by omega))), if_pos (by omega), ha (j + 1),
      if_neg (by omega)]
    refine ih (by omega) (by omega) fun i => ?_
    rw [Function.update_apply, ha]
    by_cases heq : i = j + 1
    · rw [if_pos heq, if_pos (by omega), heq, Nat.add_sub_cancel]
    · rw [if_neg heq]
      split_ifs <;> first | rfl | omega

lemma shiftTo_first {yy : ℕ → ℕ} {k : ℕ} (hpos : 0 < k) (hk : k < 256)
    (hother : ∀ j < k, yy j ≠ yy k) :
    shiftTo (yy k) (Function.update yy 1 (yy 0)) (yy 1) 1 = some (toFront yy k, k) := by
  refine shiftTo_spec hk hother (k - 1) (by omega) (le_refl 1) fun i => ?_
  rw [Function.update_apply]
  by_cases heq : i = 1
  · rw [if_pos heq, if_pos (by omega), heq]
  · rw [if_neg heq, if_neg (by omega)]

/-- What is written, and what is pending, are the letters that were seen. -/
structure Encodes (arr₀ : ℕ → ℕ) (nInUse : ℕ) (seen : List ℕ) (s : MtfState)
    (ps : List (ℕ × ℕ)) : Prop where
  mtfv : s.mtfv = ps.flatMap symbols
  ok : ∀ p ∈ ps, 0 < p.2 ∧ p.2 < nInUse
  letters : letters (fun i => i) (ps.flatMap places ++ List.replicate s.zPend 0) = seen
  order : ∀ j < nInUse, s.yy j = after (fun i => i) (ps.flatMap places) j
  wr : s.wr + s.zPend ≤ seen.length
  arr1 : ∀ c, s.wr ≤ c → s.arr1 c = arr₀ c
  freq : ∀ v ≤ nInUse + 1, s.mtfFreq v = s.mtfv.count v

section

variable {arr₀ : ℕ → ℕ} {nInUse : ℕ} {seen : List ℕ} {s : MtfState} {ps : List (ℕ × ℕ)}

lemma places_lt (hpos : 0 < nInUse) (hok : ∀ p ∈ ps, 0 < p.2 ∧ p.2 < nInUse) :
    ∀ k ∈ ps.flatMap places, k < nInUse := by
  intro k hk
  obtain ⟨p, hp, hk⟩ := List.mem_flatMap.mp hk
  rcases List.mem_append.mp hk with hk | hk
  · rw [List.eq_of_mem_replicate hk]
    exact hpos
  · rw [List.mem_singleton.mp hk]
    exact (hok p hp).2

/-- The bytes in use are in `yy`, each of them once. -/
lemma Encodes.bijOn (h : Encodes arr₀ nInUse seen s ps) (hpos : 0 < nInUse) :
    Set.BijOn s.yy (Set.Iio nInUse) (Set.Iio nInUse) :=
  (bijOn_after (Set.bijOn_id (Set.Iio nInUse)) (places_lt hpos h.ok)).congr
    fun j hj => (h.order j hj).symm

/-- **A byte is encoded.** -/
lemma Encodes.putByte (h : Encodes arr₀ nInUse seen s ps) (hsize : nInUse ≤ 256) {x : ℕ}
    (hx : x < nInUse) :
    ∃ s' ps', s.putByte x = some s' ∧ Encodes arr₀ nInUse (seen ++ [x]) s' ps' := by
  have hpos : 0 < nInUse := Nat.zero_lt_of_lt hx
  have hbij := h.bijOn hpos
  by_cases hfirst : s.yy 0 = x
  · refine ⟨_, ps, if_pos hfirst, h.mtfv, h.ok, ?_, h.order, ?_, h.arr1, h.freq⟩
    · dsimp only
      rw [List.replicate_succ', ← List.append_assoc, letters_concat, h.letters, after_append,
        after_replicate, ← h.order 0 hpos, hfirst]
    · have hwr := h.wr
      rw [List.length_append, List.length_singleton]
      dsimp only
      omega
  · obtain ⟨k, hk, rfl⟩ := hbij.surjOn (show x ∈ Set.Iio nInUse from hx)
    replace hk : k < nInUse := hk
    have hk0 : 0 < k := by
      rcases Nat.eq_zero_or_pos k with rfl | hk0
      · exact absurd rfl hfirst
      · exact hk0
    have hother : ∀ j < k, s.yy j ≠ s.yy k := by
      intro j hj heq
      have := hbij.injOn (show j ∈ Set.Iio nInUse from hj.trans hk) hk heq
      omega
    have hflush := emits_flush s
    have hmoved : s.Emits { s.flush with yy := toFront s.yy k } (digits s.zPend) :=
      ⟨hflush.mtfv, hflush.wr, hflush.arr1, hflush.freq⟩
    have hall : s.Emits ({ s.flush with yy := toFront s.yy k }.emit (k + 1))
        (symbols (s.zPend, k)) := hmoved.trans (emits_emit _ (k + 1))
    have hplaces : (ps ++ [(s.zPend, k)]).flatMap places =
        ps.flatMap places ++ List.replicate s.zPend 0 ++ [k] := by
      rw [List.flatMap_append, List.flatMap_singleton, places, ← List.append_assoc]
    have hzero : ({ s.flush with yy := toFront s.yy k }.emit (k + 1)).zPend = 0 := zPend_flush s
    refine ⟨{ s.flush with yy := toFront s.yy k }.emit (k + 1), ps ++ [(s.zPend, k)],
      ?_, ?_, ?_, ?_, ?_, ?_, ?_, ?_⟩
    · rw [MtfState.putByte, if_neg hfirst]
      dsimp only
      rw [yy_flush, shiftTo_first hk0 (by omega) hother, Option.map_some]
    · rw [hall.mtfv, h.mtfv, List.flatMap_append, List.flatMap_singleton]
    · intro p hp
      rcases List.mem_append.mp hp with hp | hp
      · exact h.ok p hp
      · rw [List.mem_singleton.mp hp]
        exact ⟨hk0, hk⟩
    · rw [hzero, List.replicate_zero, List.append_nil, hplaces, letters_concat, h.letters,
        after_append, after_replicate, h.order k hk]
    · intro j hj
      show toFront s.yy k j = _
      rw [hplaces, after_concat, after_append, after_replicate, toFront, toFront, h.order k hk, h.order j hj]
      split_ifs
      · rfl
      · exact h.order _ (by omega)
      · rfl
    · have hlen := length_digits_le s.zPend
      have hwr := h.wr
      rw [hall.wr, hzero, symbols, List.length_append, List.length_append, List.length_singleton,
        List.length_singleton]
      dsimp only
      omega
    · intro c hc
      rw [hall.arr1 c hc]
      exact h.arr1 c (by have := hall.wr; omega)
    · intro v hv
      rw [hall.freq, hall.mtfv, List.count_append, h.freq v hv]

end

end MtfState

/-- How many bytes before `i` are in use: its number among those in use. -/
def seqOf (inUse : ℕ → Bool) (i : ℕ) : ℕ := Nat.count (fun j => inUse j = true) i

lemma seqOf_lt {inUse : ℕ → Bool} {i : ℕ} (hi : i < 256) (h : inUse i = true) :
    seqOf inUse i < seqOf inUse 256 := Nat.count_strict_mono h hi

lemma seqOf_le (inUse : ℕ → Bool) : seqOf inUse 256 ≤ 256 := Nat.count_le _

lemma makeMaps_e_spec (inUse : ℕ → Bool) (unseqToSeq : ℕ → ℕ) :
    (makeMaps_e inUse unseqToSeq).1 = seqOf inUse 256 ∧
      ∀ i < 256, inUse i = true → (makeMaps_e inUse unseqToSeq).2 i = seqOf inUse i := by
  refine forUpto_invariant (P := fun k (s : ℕ × (ℕ → ℕ)) => s.1 = seqOf inUse k ∧
    ∀ i < k, inUse i = true → s.2 i = seqOf inUse i)
    (Nat.zero_le 256) ⟨rfl, fun i hi => absurd hi (Nat.not_lt_zero i)⟩ ?_
  rintro k s - - ⟨hcount, hseq⟩
  by_cases hk : inUse k = true
  · rw [if_pos hk]
    refine ⟨?_, fun i hi hin => ?_⟩
    · rw [seqOf, Nat.count_succ, if_pos hk, hcount, seqOf]
    · dsimp only
      rcases Nat.lt_succ_iff_lt_or_eq.mp hi with hlt | rfl
      · rw [Function.update_of_ne hlt.ne, hseq i hlt hin]
      · rw [Function.update_self, hcount]
  · rw [if_neg hk]
    refine ⟨?_, fun i hi hin => ?_⟩
    · rw [seqOf, Nat.count_succ, if_neg hk, Nat.add_zero, hcount, seqOf]
    · rcases Nat.lt_succ_iff_lt_or_eq.mp hi with hlt | rfl
      · exact hseq i hlt hin
      · exact absurd hin hk

lemma makeMaps_d_spec (inUse : ℕ → Bool) (seqToUnseq : ℕ → UInt8) :
    (makeMaps_d inUse seqToUnseq).1 = seqOf inUse 256 ∧
      ∀ i < 256, inUse i = true →
        (makeMaps_d inUse seqToUnseq).2 (seqOf inUse i) = UInt8.ofNat i := by
  refine forUpto_invariant (P := fun k (s : ℕ × (ℕ → UInt8)) => s.1 = seqOf inUse k ∧
    ∀ i < k, inUse i = true → s.2 (seqOf inUse i) = UInt8.ofNat i)
    (Nat.zero_le 256) ⟨rfl, fun i hi => absurd hi (Nat.not_lt_zero i)⟩ ?_
  rintro k s - - ⟨hcount, hseq⟩
  by_cases hk : inUse k = true
  · rw [if_pos hk]
    refine ⟨?_, fun i hi hin => ?_⟩
    · rw [seqOf, Nat.count_succ, if_pos hk, hcount, seqOf]
    · dsimp only
      rcases Nat.lt_succ_iff_lt_or_eq.mp hi with hlt | rfl
      · have hless : seqOf inUse i < seqOf inUse k := Nat.count_strict_mono hin hlt
        rw [hcount, Function.update_of_ne hless.ne, hseq i hlt hin]
      · rw [hcount, Function.update_self]
  · rw [if_neg hk]
    refine ⟨?_, fun i hi hin => ?_⟩
    · rw [seqOf, Nat.count_succ, if_neg hk, Nat.add_zero, hcount, seqOf]
    · rcases Nat.lt_succ_iff_lt_or_eq.mp hi with hlt | rfl
      · exact hseq i hlt hin
      · exact absurd hin hk

/-- The values `vs` are those of the letters `seqs`. -/
def ValuesOf (nInUse : ℕ) (seqs vs : List ℕ) : Prop :=
  ∃ (ps : List (ℕ × ℕ)) (z : ℕ), vs = ps.flatMap symbols ++ digits z ++ [nInUse + 1] ∧
    (∀ p ∈ ps, 0 < p.2 ∧ p.2 < nInUse) ∧
    letters (fun i => i) (ps.flatMap places ++ List.replicate z 0) = seqs

/-- The last letter of row `i` of the sorted block. -/
def lastLetter (block : ℕ → UInt8) (nblock : ℕ) (arr1 : ℕ → ℕ) (i : ℕ) : UInt8 :=
  let j : ℤ := ptrAt arr1 i - 1
  let j := if j < 0 then j + nblock else j
  block j.toNat

/-- **The values are those of the last letters**, although they overwrite the pointers. -/
theorem generateMTFValues_spec {block : ℕ → UInt8} {nblock : ℕ} {inUse : ℕ → Bool}
    (unseqToSeq arr1 yy mtfFreq : ℕ → ℕ)
    (hinUse : ∀ i < nblock, inUse (lastLetter block nblock arr1 i).toNat = true) :
    ∃ s, generateMTFValues block nblock inUse unseqToSeq arr1 yy mtfFreq = some s ∧
      ValuesOf (seqOf inUse 256)
        ((List.range nblock).map fun i => seqOf inUse (lastLetter block nblock arr1 i).toNat)
        s.mtfv ∧
      s.wr ≤ nblock + 1 ∧
      ∀ v ≤ seqOf inUse 256 + 1, s.mtfFreq v = s.mtfv.count v := by
  obtain ⟨hnInUse, hseq⟩ := makeMaps_e_spec inUse unseqToSeq
  have hloop := forUpto_invariant
    (f := mtfRound block nblock (makeMaps_e inUse unseqToSeq).2)
    (s := some
      { yy := forUpto 0 (seqOf inUse 256) (fun i yy => Function.update yy i i) yy
        zPend := 0
        arr1 := arr1
        wr := 0
        mtfFreq := forUpto 0 (seqOf inUse 256 + 1 + 1) (fun i f => Function.update f i 0) mtfFreq })
    (P := fun i (o : Option MtfState) => ∃ s ps, o = some s ∧
      s.Encodes arr1 (seqOf inUse 256)
        ((List.range i).map fun i => seqOf inUse (lastLetter block nblock arr1 i).toNat) ps)
    (Nat.zero_le nblock) ?_ ?_
  · obtain ⟨s, ps, hs, h⟩ := hloop
    have hflush := s.emits_flush.trans (MtfState.emits_emit s.flush (seqOf inUse 256 + 1))
    refine ⟨s.flush.emit (seqOf inUse 256 + 1), ?_, ⟨ps, s.zPend, ?_, h.ok, h.letters⟩, ?_, ?_⟩
    · rw [generateMTFValues, hnInUse, hs]
      rfl
    · rw [hflush.mtfv, h.mtfv, List.append_assoc]
    · have hlen := length_digits_le s.zPend
      have hwr := h.wr
      rw [hflush.wr, List.length_append, List.length_singleton]
      rw [List.length_map, List.length_range] at hwr
      omega
    · intro v hv
      rw [hflush.freq, hflush.mtfv, h.freq v hv]
      exact List.count_append.symm
  · refine ⟨_, [], rfl, rfl, fun p hp => absurd hp List.not_mem_nil, rfl, fun j hj => ?_,
      Nat.zero_le _, fun _ _ => rfl, fun v hv => ?_⟩
    · exact (forUpto_update _ (fun i => i) yy j).trans (if_pos hj)
    · exact (forUpto_update _ (fun _ => 0) mtfFreq v).trans (if_pos (by omega))
  · rintro i o - hi ⟨s, ps, rfl, h⟩
    have hptr : ptrAt s.arr1 i = ptrAt arr1 i := by
      have hwr := h.wr
      rw [List.length_map, List.length_range] at hwr
      rw [ptrAt, ptrAt, h.arr1 _ (by omega), h.arr1 _ (by omega)]
    obtain ⟨s', ps', hput, h'⟩ := h.putByte (seqOf_le inUse)
      (seqOf_lt (UInt8.toNat_lt _) (hinUse i hi))
    refine ⟨s', ps', ?_, ?_⟩
    · rw [mtfRound, Option.bind_some, hptr]
      dsimp only
      rw [← hput, ← hseq _ (UInt8.toNat_lt _) (hinUse i hi)]
      rfl
    · rw [List.range_succ, List.map_append, List.map_singleton]
      exact h'

/-! ## Reading them -/

section

variable {ρ : Type*} {next : ρ → Except Stop (ℕ × ρ)}

/-- These values come next. -/
def Supplies (next : ρ → Except Stop (ℕ × ρ)) : ρ → List ℕ → ρ → Prop
  | s, [], s' => s = s'
  | s, v :: vs, s' => ∃ t, next s = .ok (v, t) ∧ Supplies next t vs s'

lemma supplies_append {s s' : ρ} {vs ws : List ℕ} (h : Supplies next s (vs ++ ws) s') :
    ∃ t, Supplies next s vs t ∧ Supplies next t ws s' := by
  induction vs generalizing s with
  | nil => exact ⟨s, rfl, h⟩
  | cons v vs ih =>
    obtain ⟨t, hv, hrest⟩ := h
    obtain ⟨u, hvs, hws⟩ := ih hrest
    exact ⟨u, ⟨t, hv, hvs⟩, hws⟩

/-- A number is read from its digits, where the value behind it is none. -/
lemma readRun_spec {w : ℕ} (hw : ¬(w = BZ_RUNA ∨ w = BZ_RUNB)) (z : ℕ) :
    ∀ {d : ℕ} {ds : List ℕ} (es : ℤ) {N : ℕ} (hN : 0 < N) {s s' : ρ}, digits z = d :: ds →
      N * z < 2 * 1024 * 1024 → Supplies next s (ds ++ [w]) s' →
      (d = BZ_RUNA ∨ d = BZ_RUNB) ∧ readRun next d es N hN s = .ok (es + N * z, w, s') := by
  induction z using Nat.strong_induction_on with
  | _ z ih =>
    intro d ds es N hN s s' hdigits hbound hsupply
    have hz : 0 < z := by
      rcases Nat.eq_zero_or_pos z with rfl | hz
      · rw [digits_zero] at hdigits
        cases hdigits
      · exact hz
    have hsmall : ¬ N ≥ 2 * 1024 * 1024 := by
      have := Nat.le_mul_of_pos_right N hz
      omega
    rw [digits_of_pos hz] at hdigits
    obtain ⟨hd, hds⟩ := List.cons.inj hdigits
    have hdigit : d = BZ_RUNA ∨ d = BZ_RUNB := by
      rw [← hd]
      split_ifs
      · exact Or.inr rfl
      · exact Or.inl rfl
    have hadd : addDigit d es N = es + N * (z - 2 * ((z - 1) / 2) : ℕ) := by
      rw [← hd, addDigit]
      by_cases heven : z % 2 = 0
      · rw [if_pos heven, if_neg (show BZ_RUNB ≠ BZ_RUNA from one_ne_zero), if_pos rfl,
          show z - 2 * ((z - 1) / 2) = 2 by omega]
        push_cast
        ring
      · rw [if_neg heven, if_pos rfl, show z - 2 * ((z - 1) / 2) = 1 by omega]
        push_cast
        ring
    refine ⟨hdigit, ?_⟩
    cases ds with
    | nil =>
      obtain ⟨t, hnext, rfl⟩ := hsupply
      have hlast : (z - 1) / 2 = 0 := by
        by_contra hne
        rw [digits_of_pos (Nat.pos_of_ne_zero hne)] at hds
        cases hds
      rw [readRun, if_neg hsmall, hnext]
      dsimp only
      rw [if_neg hw, hadd, hlast]
      rfl
    | cons e ds =>
      obtain ⟨t, hnext, hrest⟩ := hsupply
      have hbound' : N * 2 * ((z - 1) / 2) < 2 * 1024 * 1024 := by
        have hle : 2 * ((z - 1) / 2) ≤ z := by omega
        have := Nat.mul_le_mul_left N hle
        rw [Nat.mul_assoc]
        omega
      obtain ⟨hrun, hread⟩ := ih ((z - 1) / 2) (by omega) (addDigit d es N)
        (Nat.mul_pos hN two_pos) hds hbound' hrest
      rw [readRun, if_neg hsmall, hnext]
      dsimp only
      rw [if_pos hrun, hread, hadd]
      have hsum : N * (z - 2 * ((z - 1) / 2)) + N * 2 * ((z - 1) / 2) = N * z := by
        rw [Nat.mul_assoc, ← Nat.mul_add]
        congr 1
        omega
      congr 2
      rw [add_assoc]
      congr 1
      exact_mod_cast hsum

lemma putRun_spec {nblockMAX : ℕ} {uc : UInt8} {es : ℕ} {s : MtfBlock}
    (h : s.nblock + es ≤ nblockMAX) :
    putRun nblockMAX uc es s = .ok { s with ll := s.ll ++ List.replicate es uc } := by
  induction es generalizing s with
  | zero =>
    rw [putRun, List.replicate_zero, List.append_nil]
  | succ es ih =>
    have hlen : (s.put uc).nblock = s.nblock + 1 := List.length_append
    rw [putRun, if_neg (by omega), ih (by omega)]
    rw [MtfBlock.put, List.replicate_succ]
    dsimp only
    rw [List.append_assoc]
    rfl

/-- Some bytes have been added to a block. -/
structure Adds (s s' : MtfBlock) (bytes : List UInt8) : Prop where
  ll : s'.ll = s.ll ++ bytes
  unzftab : ∀ c, s'.unzftab c = s.unzftab c + (bytes.map UInt8.toNat).count c

lemma Adds.refl (s : MtfBlock) : Adds s s [] := ⟨(List.append_nil _).symm, fun _ => rfl⟩

lemma Adds.trans {s₁ s₂ s₃ : MtfBlock} {bs cs : List UInt8} (h : Adds s₁ s₂ bs)
    (h' : Adds s₂ s₃ cs) : Adds s₁ s₃ (bs ++ cs) := by
  refine ⟨?_, fun c => ?_⟩
  · rw [h'.ll, h.ll, List.append_assoc]
  · rw [h'.unzftab, h.unzftab, List.map_append, List.count_append, Nat.add_assoc]

lemma Adds.nblock {s s' : MtfBlock} {bs : List UInt8} (h : Adds s s' bs) :
    s'.nblock = s.nblock + bs.length := by
  rw [MtfBlock.nblock, h.ll, List.length_append]
  rfl

variable {EOB nblockMAX : ℕ} {seqToUnseq : ℕ → UInt8}

lemma mtfLoop_of_run {s s' : MtfBlock} {v w : ℕ} {es : ℤ} {src src' : ρ} (hv : v ≠ EOB)
    (hrun : v = BZ_RUNA ∨ v = BZ_RUNB) (hread : readRun next v (-1) 1 one_pos src = .ok (es, w, src'))
    (hput : putRun nblockMAX (seqToUnseq (s.arrays.order 0)) (es + 1).toNat
      (s.count (seqToUnseq (s.arrays.order 0)) (es + 1).toNat) = .ok s') :
    mtfLoop next EOB nblockMAX seqToUnseq s v src =
      mtfLoop next EOB nblockMAX seqToUnseq s' w src' := by
  have hfirst : s.arrays.order 0 = s.arrays.mtfa (s.arrays.mtfbase 0) := rfl
  rw [hfirst] at hput
  rw [mtfLoop, if_neg hv, dif_pos hrun]
  split
  · rename_i h
    rw [hread] at h
    cases h
  · rename_i h
    rw [hread] at h
    cases h
    dsimp only
    split
    · rename_i h
      rw [hput] at h
      cases h
    · rename_i h
      rw [hput] at h
      cases h
      rfl

/-- **A run is read**, if there is one before the value `w`. -/
lemma mtfLoop_run (seqToUnseq : ℕ → UInt8) {s : MtfBlock} {z v w : ℕ} {vs ws : List ℕ} {src src' : ρ}
    (hEOB : 2 ≤ EOB) (hMAX : nblockMAX ≤ 900000)
    (hroom : s.nblock + z ≤ nblockMAX) (hw : ¬(w = BZ_RUNA ∨ w = BZ_RUNB))
    (hvs : digits z ++ w :: ws = v :: vs) (hsupply : Supplies next src vs src') :
    ∃ s₁ src₁, mtfLoop next EOB nblockMAX seqToUnseq s v src =
        mtfLoop next EOB nblockMAX seqToUnseq s₁ w src₁ ∧ Supplies next src₁ ws src' ∧
      s₁.arrays = s.arrays ∧ Adds s s₁ (List.replicate z (seqToUnseq (s.arrays.order 0))) := by
  rcases hdigits : digits z with _ | ⟨d, ds⟩
  · have hz : z = 0 := by
      by_contra hne
      rw [digits_of_pos (Nat.pos_of_ne_zero hne)] at hdigits
      cases hdigits
    rw [hdigits, List.nil_append] at hvs
    obtain ⟨rfl, rfl⟩ := List.cons.inj hvs
    exact ⟨s, src, rfl, hsupply, rfl, by rw [hz]; exact Adds.refl s⟩
  · rw [hdigits, List.cons_append] at hvs
    obtain ⟨rfl, rfl⟩ := List.cons.inj hvs
    have hsplit : ds ++ w :: ws = ds ++ [w] ++ ws := by
      rw [List.append_assoc]
      rfl
    rw [hsplit] at hsupply
    obtain ⟨src₁, hrun, hrest⟩ := supplies_append hsupply
    obtain ⟨hdigit, hread⟩ := readRun_spec hw z (-1) one_pos hdigits (by omega) hrun
    have hes : ((-1 : ℤ) + (1 : ℕ) * (z : ℕ) + 1).toNat = z := by omega
    have hroom' : (s.count (seqToUnseq (s.arrays.order 0)) z).nblock + z ≤ nblockMAX := hroom
    have hd : d ≠ EOB := by
      rcases hdigit with rfl | rfl
      · exact (show BZ_RUNA < EOB from Nat.lt_of_lt_of_le two_pos hEOB).ne
      · exact (show BZ_RUNB < EOB from Nat.lt_of_lt_of_le one_lt_two hEOB).ne
    refine ⟨{ s.count (seqToUnseq (s.arrays.order 0)) z with
      ll := s.ll ++ List.replicate z (seqToUnseq (s.arrays.order 0)) }, src₁,
      mtfLoop_of_run hd hdigit hread ?_, hrest, rfl, rfl, fun c => ?_⟩
    · rw [hes]
      exact putRun_spec hroom'
    rw [MtfBlock.count]
    dsimp only
    rw [Function.update_apply, List.map_replicate, List.count_replicate]
    by_cases heq : c = (seqToUnseq (s.arrays.order 0)).toNat
    · rw [if_pos heq, heq, beq_self_eq_true, if_pos rfl]
    · rw [if_neg heq, beq_false_of_ne (Ne.symm heq), if_neg Bool.false_ne_true, Nat.add_zero]

/-- **Another place is read.** -/
lemma mtfLoop_place (seqToUnseq : ℕ → UInt8) {s : MtfBlock} {k w : ℕ} {ws : List ℕ} {src src' : ρ}
    (hplaced : s.arrays.WellPlaced) (hpos : 0 < k) (hk : k < 256) (hEOB : k + 1 ≠ EOB)
    (hroom : s.nblock < nblockMAX) (hsupply : Supplies next src (w :: ws) src') :
    ∃ s₁ src₁, mtfLoop next EOB nblockMAX seqToUnseq s (k + 1) src =
        mtfLoop next EOB nblockMAX seqToUnseq s₁ w src₁ ∧ Supplies next src₁ ws src' ∧
      s₁.arrays = (s.arrays.mtf k).2 ∧ Adds s s₁ [seqToUnseq (s.arrays.order k)] := by
  obtain ⟨src₁, hnext, hrest⟩ := hsupply
  have hnorun : ¬(k + 1 = BZ_RUNA ∨ k + 1 = BZ_RUNB) := by
    rw [BZ_RUNA, BZ_RUNB]
    omega
  have hbyte := (MtfArrays.mtf_spec hplaced hk).1
  refine ⟨(MtfBlock.count { s with arrays := (s.arrays.mtf k).2 }
    (seqToUnseq (s.arrays.order k)) 1).put (seqToUnseq (s.arrays.order k)), src₁, ?_, hrest, rfl,
    rfl, fun c => ?_⟩
  · rw [mtfLoop, if_neg hEOB, dif_neg hnorun, if_neg (not_le.mpr hroom), hnext,
      Nat.add_sub_cancel, ← hbyte]
  · rw [MtfBlock.put, MtfBlock.count]
    dsimp only
    rw [Function.update_apply, List.map_singleton, List.count_singleton]
    by_cases heq : c = (seqToUnseq (s.arrays.order k)).toNat
    · rw [if_pos heq, heq, beq_self_eq_true, if_pos rfl]
    · rw [if_neg heq, beq_false_of_ne (Ne.symm heq), if_neg Bool.false_ne_true, Nat.add_zero]

/-- **The values are read to their end.** -/
lemma mtfLoop_spec (seqToUnseq : ℕ → UInt8) (hEOB : 2 ≤ EOB) (hMAX : nblockMAX ≤ 900000) (z : ℕ) (ps : List (ℕ × ℕ)) :
    ∀ {s : MtfBlock} {f : ℕ → ℕ} {v : ℕ} {vs : List ℕ} {src src' : ρ}, s.arrays.WellPlaced →
      (∀ i < 256, s.arrays.order i = f i) →
      (∀ p ∈ ps, 0 < p.2 ∧ p.2 < 256 ∧ p.2 + 1 ≠ EOB) →
      s.nblock + (ps.flatMap places ++ List.replicate z 0).length ≤ nblockMAX →
      ps.flatMap symbols ++ digits z ++ [EOB] = v :: vs → Supplies next src vs src' →
      ∃ s', mtfLoop next EOB nblockMAX seqToUnseq s v src = .ok (s', src') ∧
        Adds s s' ((letters f (ps.flatMap places ++ List.replicate z 0)).map seqToUnseq) := by
  have hend : ¬(EOB = BZ_RUNA ∨ EOB = BZ_RUNB) := by
    rw [BZ_RUNA, BZ_RUNB]
    omega
  induction ps with
  | nil =>
    intro s f v vs src src' _ hf _ hroom hvs hsupply
    rw [List.flatMap_nil, List.nil_append, List.length_replicate] at hroom
    rw [List.flatMap_nil, List.nil_append] at hvs
    obtain ⟨s₁, src₁, hrun, rfl, -, hadds⟩ :=
      mtfLoop_run seqToUnseq hEOB hMAX hroom hend hvs hsupply
    refine ⟨s₁, ?_, ?_⟩
    · rw [hrun, mtfLoop, if_pos rfl]
    · rw [List.flatMap_nil, List.nil_append, letters_replicate, List.map_replicate,
        ← hf 0 (by omega)]
      exact hadds
  | cons p ps ih =>
    intro s f v vs src src' hplaced hf hok hroom hvs hsupply
    obtain ⟨hp0, hp, hpEOB⟩ := hok p List.mem_cons_self
    have hlen : (((p :: ps).flatMap places ++ List.replicate z 0)).length =
        p.1 + 1 + (ps.flatMap places ++ List.replicate z 0).length := by
      rw [List.flatMap_cons, places, List.append_assoc, List.length_append, List.length_append,
        List.length_replicate, List.length_singleton]
    rw [hlen] at hroom
    obtain ⟨w, ws, hws⟩ : ∃ w ws, ps.flatMap symbols ++ digits z ++ [EOB] = w :: ws :=
      List.exists_cons_of_ne_nil (List.append_ne_nil_of_right_ne_nil _ (List.cons_ne_nil _ _))
    have hsplit : digits p.1 ++ (p.2 + 1) :: (w :: ws) = v :: vs := by
      rw [← hvs, ← hws, List.flatMap_cons, symbols]
      simp only [List.append_assoc, List.cons_append, List.nil_append]
    have hnorun : ¬(p.2 + 1 = BZ_RUNA ∨ p.2 + 1 = BZ_RUNB) := by
      rw [BZ_RUNA, BZ_RUNB]
      omega
    obtain ⟨s₁, src₁, hrun, hsupply₁, harrays₁, hadds₁⟩ :=
      mtfLoop_run seqToUnseq hEOB hMAX (show s.nblock + p.1 ≤ nblockMAX by omega) hnorun hsplit
        hsupply
    have hnblock₁ := hadds₁.nblock
    rw [List.length_replicate] at hnblock₁
    obtain ⟨s₂, src₂, hplace, hsupply₂, harrays₂, hadds₂⟩ :=
      mtfLoop_place seqToUnseq (harrays₁ ▸ hplaced) hp0 hp hpEOB
        (show s₁.nblock < nblockMAX by omega) hsupply₁
    rw [harrays₁] at harrays₂ hadds₂
    obtain ⟨-, hplaced₂, horder₂⟩ := MtfArrays.mtf_spec hplaced hp
    have hnblock₂ := hadds₂.nblock
    rw [List.length_singleton] at hnblock₂
    have hf₂ : ∀ i < 256, s₂.arrays.order i = toFront f p.2 i := by
      intro i hi
      rw [harrays₂, horder₂ i hi, toFront, toFront]
      split_ifs
      · exact hf p.2 hp
      · exact hf _ (by omega)
      · exact hf i hi
    obtain ⟨s', hloop, hadds⟩ := ih (harrays₂ ▸ hplaced₂) hf₂
      (fun q hq => hok q (List.mem_cons_of_mem p hq)) (by omega) hws hsupply₂
    refine ⟨s', by rw [hrun, hplace, hloop], ?_⟩
    have hletters : letters f ((p :: ps).flatMap places ++ List.replicate z 0) =
        List.replicate p.1 (f 0) ++
          ([f p.2] ++ letters (toFront f p.2) (ps.flatMap places ++ List.replicate z 0)) := by
      rw [List.flatMap_cons, places, List.append_assoc, List.append_assoc, letters_append,
        letters_replicate, after_replicate]
      rfl
    rw [hletters, List.map_append, List.map_append, List.map_replicate, List.map_singleton,
      ← hf 0 (by omega), ← hf p.2 hp]
    exact hadds₁.trans (hadds₂.trans hadds)

/-- **The letters are read again**, with how often each occurs. -/
lemma readMtfValues_spec {nInUse nblockMAX : ℕ} {seqs vs : List ℕ} (h : ValuesOf nInUse seqs vs)
    (hpos : 0 < nInUse) (hsize : nInUse ≤ 256) (hMAX : nblockMAX ≤ 900000)
    (hroom : seqs.length ≤ nblockMAX) (seqToUnseq : ℕ → UInt8) (s : MtfBlock) {src src' : ρ}
    (hsupply : Supplies next src vs src') :
    ∃ s', readMtfValues next (nInUse + 1) nblockMAX seqToUnseq s src = .ok (s', src') ∧
      s'.ll = seqs.map seqToUnseq ∧
      ∀ c < 256, s'.unzftab c = (s'.ll.map UInt8.toNat).count c := by
  obtain ⟨ps, z, hvs, hok, hletters⟩ := h
  obtain ⟨v, ws, hcons⟩ : ∃ v ws, vs = v :: ws := by
    rw [hvs]
    exact List.exists_cons_of_ne_nil (List.append_ne_nil_of_right_ne_nil _ (List.cons_ne_nil _ _))
  rw [hcons] at hsupply hvs
  obtain ⟨src₁, hnext, hrest⟩ := hsupply
  obtain ⟨hplaced, horder⟩ := s.arrays.init_spec
  have hlen : (ps.flatMap places ++ List.replicate z 0).length = seqs.length := by
    rw [← hletters, length_letters]
  have hfits : s.start.nblock + (ps.flatMap places ++ List.replicate z 0).length ≤ nblockMAX := by
    rw [hlen]
    exact (Nat.zero_add _).trans_le hroom
  obtain ⟨s', hloop, hadds⟩ := mtfLoop_spec seqToUnseq
    (show 2 ≤ nInUse + 1 by omega) hMAX z ps hplaced horder
    (fun p hp => ⟨(hok p hp).1, by have := (hok p hp).2; omega, by have := (hok p hp).2; omega⟩)
    hfits hvs.symm hrest
  have hll : s'.ll = seqs.map seqToUnseq := by
    rw [hadds.ll, hletters]
    rfl
  refine ⟨s', ?_, hll, fun c hc => ?_⟩
  · rw [readMtfValues, hnext]
    exact hloop
  · have hzero : s.start.unzftab c = 0 := by
      rw [MtfBlock.start]
      dsimp only
      rw [forUpto_update 256 (fun _ => 0), if_pos hc]
    rw [hadds.unzftab, hzero, Nat.zero_add, hletters, hll]

end

/-- **The round trip of the values**: what `generateMTFValues` makes of a sorted block, overwriting
the pointers, fits where they were, and read again it is the last letters of the block. -/
theorem readMtfValues_generateMTFValues (block : ℕ → UInt8) {nblock nblockMAX : ℕ}
    (inUse : ℕ → Bool) (unseqToSeq arr1 yy mtfFreq : ℕ → ℕ) (seqToUnseq : ℕ → UInt8)
    (hpos : 0 < nblock) (hroom : nblock ≤ nblockMAX) (hMAX : nblockMAX ≤ 900000)
    (hinUse : ∀ i < nblock, inUse (lastLetter block nblock arr1 i).toNat = true) :
    ∃ s, generateMTFValues block nblock inUse unseqToSeq arr1 yy mtfFreq = some s ∧
      s.wr ≤ nblock + 1 ∧
      ∀ {ρ : Type} (next : ρ → Except Stop (ℕ × ρ)) (b : MtfBlock) (src src' : ρ),
        Supplies next src s.mtfv src' →
        ∃ t, readMtfValues next ((makeMaps_d inUse seqToUnseq).1 + 1) nblockMAX
            (makeMaps_d inUse seqToUnseq).2 b src = .ok (t, src') ∧
          t.ll = (List.range nblock).map (lastLetter block nblock arr1) ∧
          ∀ c < 256, t.unzftab c = (t.ll.map UInt8.toNat).count c := by
  obtain ⟨s, hs, hvalues, hwr, -⟩ := generateMTFValues_spec unseqToSeq arr1 yy mtfFreq hinUse
  obtain ⟨hnInUse, hmap⟩ := makeMaps_d_spec inUse seqToUnseq
  refine ⟨s, hs, hwr, fun next b src src' hsupply => ?_⟩
  have hused : 0 < seqOf inUse 256 :=
    Nat.zero_lt_of_lt (seqOf_lt (UInt8.toNat_lt _) (hinUse 0 hpos))
  have hlen : ((List.range nblock).map fun i =>
      seqOf inUse (lastLetter block nblock arr1 i).toNat).length = nblock := by
    rw [List.length_map, List.length_range]
  obtain ⟨t, hread, hll, hcount⟩ := readMtfValues_spec hvalues hused (seqOf_le inUse) hMAX
    (hlen.trans_le hroom) (makeMaps_d inUse seqToUnseq).2 b hsupply
  refine ⟨t, hnInUse.symm ▸ hread, ?_, hcount⟩
  rw [hll, List.map_map]
  refine List.map_congr_left fun i hi => ?_
  rw [Function.comp_apply, hmap _ (UInt8.toNat_lt _) (hinUse i (List.mem_range.mp hi)),
    UInt8.ofNat_toNat]

theorem readMtfValues_generateMTFValues_two :
    ∃ s, generateMTFValues (fun i => if i = 0 then 98 else 97) 2 (fun _ => true) (fun _ => 0)
        (fun c => if c = 0 then 1 else 0) (fun _ => 0) (fun _ => 0) = some s ∧ s.wr ≤ 3 := by
  obtain ⟨s, hs, hwr, -⟩ := readMtfValues_generateMTFValues (fun i => if i = 0 then 98 else 97)
    (fun _ => true) (fun _ => 0) (fun c => if c = 0 then 1 else 0) (fun _ => 0) (fun _ => 0)
    (fun _ => 0) (show 0 < 2 by decide) (show 2 ≤ 900000 by decide) (le_refl _) (fun _ _ => rfl)
  exact ⟨s, hs, hwr⟩

end Bzip2
end ClamavWin32
