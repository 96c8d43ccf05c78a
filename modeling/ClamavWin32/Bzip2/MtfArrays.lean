import ClamavWin32.Semantics.ForLoop
import ClamavWin32.Semantics.MoveToFront
import Mathlib.Logic.Function.Basic

/-!
# The order of the bytes in two levels

How `BZ2_decompress` of `src/3rdparty/bzip2/decompress.c` keeps the order of the bytes: in lines of
16, which lie apart in an array of 4096, so that to move a byte to the front moves one byte in each
line before its own. When the first line is at the beginning of the array all of them go back to its
end.

* `MtfArrays`: the array and where its lines begin;
* `mtf`: the byte at a place is found and moved;
* `order`: what the arrays stand for;
* `mtf_spec`: it is the byte at the place, it moves to the front, and the lines stay apart.
-/

namespace ClamavWin32
namespace Bzip2

def MTFA_SIZE : ℕ := 4096

def MTFL_SIZE : ℕ := 16

structure MtfArrays where
  mtfa : ℕ → ℕ
  mtfbase : ℕ → ℕ

namespace MtfArrays

/-- `s->mtfa[kk] = value; kk--` -/
def fillByte (value : MtfArrays → ℕ → ℕ → ℕ) (ii jj : ℕ) (t : MtfArrays × ℕ) : MtfArrays × ℕ :=
  ({ t.1 with mtfa := Function.update t.1.mtfa t.2 (value t.1 ii jj) }, t.2 - 1)

/-- A line is written, from `kk` down. -/
def fillLine (value : MtfArrays → ℕ → ℕ → ℕ) (ii : ℕ) (t : MtfArrays × ℕ) : MtfArrays × ℕ :=
  let t := forDown MTFL_SIZE (fillByte value ii) t
  ({ t.1 with mtfbase := Function.update t.1.mtfbase ii (t.2 + 1) }, t.2)

/-- All lines are written, from the end of the array down: byte `jj` of line `ii` is
`value s ii jj`. -/
def fillLines (value : MtfArrays → ℕ → ℕ → ℕ) (s : MtfArrays) : MtfArrays :=
  (forDown (256 / MTFL_SIZE) (fillLine value) (s, MTFA_SIZE - 1)).1

/-- "MTF init" -/
def init (s : MtfArrays) : MtfArrays := fillLines (fun _ ii jj => ii * MTFL_SIZE + jj) s

/-- The lines go back to the end of the array. -/
def goBack (s : MtfArrays) : MtfArrays := fillLines (fun s ii jj => s.mtfa (s.mtfbase ii + jj)) s

/-- `while (nn > 0) { s->mtfa[(pp+nn)] = s->mtfa[(pp+nn)-1]; nn--; }` -/
def slide (mtfa : ℕ → ℕ) (pp : ℕ) : ℕ → ℕ → ℕ
  | 0 => mtfa
  | nn + 1 => slide (Function.update mtfa (pp + nn + 1) (mtfa (pp + nn))) pp nn

/-- The same, four bytes at a time. -/
def slide4 (mtfa : ℕ → ℕ) (pp nn : ℕ) : ℕ → ℕ :=
  if nn > 3 then
    let z := pp + nn
    let mtfa := Function.update mtfa z (mtfa (z - 1))
    let mtfa := Function.update mtfa (z - 1) (mtfa (z - 2))
    let mtfa := Function.update mtfa (z - 2) (mtfa (z - 3))
    let mtfa := Function.update mtfa (z - 3) (mtfa (z - 4))
    slide4 mtfa pp (nn - 4)
  else slide mtfa pp nn

/-- The last byte of each line goes to the beginning of the next one, where the line has moved down
to. -/
def carry : ℕ → MtfArrays → MtfArrays
  | 0, s => s
  | lno + 1, s =>
    let mtfbase := Function.update s.mtfbase (lno + 1) (s.mtfbase (lno + 1) - 1)
    carry lno
      ⟨Function.update s.mtfa (mtfbase (lno + 1)) (s.mtfa (mtfbase lno + MTFL_SIZE - 1)), mtfbase⟩

/-- `uc = MTF ( nextSym-1 )` -/
def mtf (s : MtfArrays) (nn : ℕ) : ℕ × MtfArrays :=
  if nn < MTFL_SIZE then
    -- avoid general-case expense
    let pp := s.mtfbase 0
    let uc := s.mtfa (pp + nn)
    (uc, { s with mtfa := Function.update (slide4 s.mtfa pp nn) pp uc })
  else
    -- general case
    let lno := nn / MTFL_SIZE
    let off := nn % MTFL_SIZE
    let uc := s.mtfa (s.mtfbase lno + off)
    let s := { s with mtfa := slide s.mtfa (s.mtfbase lno) off }
    let s := carry lno { s with mtfbase := Function.update s.mtfbase lno (s.mtfbase lno + 1) }
    let mtfbase := Function.update s.mtfbase 0 (s.mtfbase 0 - 1)
    let s : MtfArrays := ⟨Function.update s.mtfa (mtfbase 0) uc, mtfbase⟩
    (uc, if s.mtfbase 0 = 0 then s.goBack else s)

/-! ## What the arrays stand for -/

/-- The byte at place `i`. -/
def order (s : MtfArrays) (i : ℕ) : ℕ := s.mtfa (s.mtfbase (i / MTFL_SIZE) + i % MTFL_SIZE)

/-- The lines are in the array, one behind the other. -/
structure Apart (s : MtfArrays) : Prop where
  apart : ∀ l < 15, s.mtfbase l + 16 ≤ s.mtfbase (l + 1)
  top : s.mtfbase 15 + 16 ≤ 4096

/-- They are where the lines have room to move down. -/
structure WellPlaced (s : MtfArrays) : Prop extends Apart s where
  pos : 0 < s.mtfbase 0

lemma order_eq (s : MtfArrays) {l j : ℕ} (hj : j < 16) :
    s.order (16 * l + j) = s.mtfa (s.mtfbase l + j) := by
  have hdiv : (16 * l + j) / 16 = l := by omega
  have hmod : (16 * l + j) % 16 = j := by omega
  rw [order, MTFL_SIZE, hdiv, hmod]

lemma base_add_le {base : ℕ → ℕ} {n : ℕ} (h : ∀ l < n, base l + 16 ≤ base (l + 1)) {l m : ℕ}
    (hlm : l ≤ m) (hm : m ≤ n) : base l + 16 * (m - l) ≤ base m := by
  induction m, hlm using Nat.le_induction with
  | base => omega
  | succ m hlm ih =>
    have hnext := h m (by omega)
    have hbefore := ih (by omega)
    omega

/-! ## The lines go back -/

lemma fillLines_spec (value : MtfArrays → ℕ → ℕ → ℕ) (s : MtfArrays) (w : ℕ → ℕ)
    (hvalue : ∀ (t : MtfArrays) (ii jj : ℕ), ii < 16 → jj < 16 →
      (∀ l ≤ ii, t.mtfbase l = s.mtfbase l) →
      (∀ c ≤ 3840 + 16 * ii + jj, t.mtfa c = s.mtfa c) → value t ii jj = w (16 * ii + jj)) :
    (∀ i < 256, (fillLines value s).mtfa (3840 + i) = w i) ∧
      ∀ l < 16, (fillLines value s).mtfbase l = 3840 + 16 * l := by
  have hlines := forDown_invariant (n := 256 / MTFL_SIZE) (s := (s, MTFA_SIZE - 1))
    (f := fillLine value)
    (P := fun ii (t : MtfArrays × ℕ) => t.2 = 3839 + 16 * ii ∧
      (∀ i, 16 * ii ≤ i → i < 256 → t.1.mtfa (3840 + i) = w i) ∧
      (∀ c ≤ 3839 + 16 * ii, t.1.mtfa c = s.mtfa c) ∧
      (∀ l < ii, t.1.mtfbase l = s.mtfbase l) ∧
      ∀ l, ii ≤ l → l < 16 → t.1.mtfbase l = 3840 + 16 * l) ?_ ?_
  · obtain ⟨-, hmtfa, -, -, hbase⟩ := hlines
    exact ⟨fun i hi => hmtfa i (Nat.zero_le i) hi, fun l hl => hbase l (Nat.zero_le l) hl⟩
  · have hsize : 256 / MTFL_SIZE = 16 := rfl
    rw [hsize]
    exact ⟨rfl, fun i hlo hhi => by omega, fun _ _ => rfl, fun _ _ => rfl,
      fun l hlo hhi => by omega⟩
  · rintro ii t hii ⟨hkk, hdone, hcells, hbases, hplaced⟩
    replace hii : ii < 16 := hii
    have hline := forDown_invariant (n := MTFL_SIZE) (s := t) (f := fillByte value ii)
      (P := fun jj (t' : MtfArrays × ℕ) => t'.2 = 3839 + 16 * ii + jj ∧
        (∀ i, 16 * ii + jj ≤ i → i < 256 → t'.1.mtfa (3840 + i) = w i) ∧
        (∀ c ≤ 3839 + 16 * ii + jj, t'.1.mtfa c = s.mtfa c) ∧
        t'.1.mtfbase = t.1.mtfbase) ?_ ?_
    · obtain ⟨hkk', hdone', hcells', hbase'⟩ := hline
      rw [fillLine]
      refine ⟨hkk', hdone', hcells', fun l hl => ?_, fun l hlo hhi => ?_⟩
      · dsimp only
        rw [hbase', Function.update_of_ne (by omega), hbases l (by omega)]
      · dsimp only
        rw [hbase']
        by_cases heq : l = ii
        · rw [heq, Function.update_self, hkk']
          omega
        · rw [Function.update_of_ne heq, hplaced l (by omega) hhi]
    · rw [MTFL_SIZE]
      exact ⟨by omega, fun i hlo hhi => hdone i (by omega) hhi, fun c hc => hcells c (by omega), rfl⟩
    · rintro jj t' hjj ⟨hkk', hdone', hcells', hbase'⟩
      replace hjj : jj < 16 := hjj
      have hval : value t'.1 ii jj = w (16 * ii + jj) :=
        hvalue t'.1 ii jj hii hjj (fun l hl => by rw [hbase', hbases l (by omega)])
          fun c hc => hcells' c (by omega)
      rw [fillByte]
      refine ⟨?_, fun i hlo hhi => ?_, fun c hc => ?_, hbase'⟩
      · dsimp only
        omega
      · dsimp only
        rw [hkk', hval]
        by_cases heq : i = 16 * ii + jj
        · rw [heq, Function.update_apply, if_pos (by omega)]
        · rw [Function.update_of_ne (by omega), hdone' i (by omega) hhi]
      · dsimp only
        rw [hkk', Function.update_of_ne (by omega), hcells' c (by omega)]

lemma wellPlaced_of_base {s : MtfArrays} (h : ∀ l < 16, s.mtfbase l = 3840 + 16 * l) :
    s.WellPlaced := by
  refine ⟨⟨fun l hl => ?_, ?_⟩, ?_⟩
  · rw [h l (by omega), h (l + 1) (by omega)]
    omega
  · rw [h 15 (by omega)]
  · rw [h 0 (by omega)]
    omega

lemma order_of_base {s : MtfArrays} (h : ∀ l < 16, s.mtfbase l = 3840 + 16 * l) {i : ℕ}
    (hi : i < 256) : s.order i = s.mtfa (3840 + i) := by
  rw [order, MTFL_SIZE, h _ (by omega)]
  congr 1
  omega

/-- Each byte is at its own place in the beginning. -/
lemma init_spec (s : MtfArrays) : s.init.WellPlaced ∧ ∀ i < 256, s.init.order i = i := by
  obtain ⟨hmtfa, hbase⟩ := fillLines_spec (fun _ ii jj => ii * MTFL_SIZE + jj) s (fun i => i)
    fun t ii jj _ _ _ _ => by rw [MTFL_SIZE]; omega
  refine ⟨wellPlaced_of_base hbase, fun i hi => ?_⟩
  rw [init, order_of_base hbase hi, hmtfa i hi]

/-- The order is the same when the lines have gone back. -/
lemma goBack_spec {s : MtfArrays} (h : s.Apart) :
    s.goBack.WellPlaced ∧ ∀ i < 256, s.goBack.order i = s.order i := by
  obtain ⟨hmtfa, hbase⟩ := fillLines_spec (fun s ii jj => s.mtfa (s.mtfbase ii + jj)) s s.order
    fun t ii jj hii hjj hbases hcells => by
      have hle := base_add_le h.apart (show ii ≤ 15 by omega) (le_refl 15)
      have htop := h.top
      rw [hbases ii (le_refl ii), hcells _ (by omega), order_eq s hjj]
  refine ⟨wellPlaced_of_base hbase, fun i hi => ?_⟩
  rw [goBack, order_of_base hbase hi, hmtfa i hi]

/-! ## A byte moves to the front -/

lemma slide_spec (mtfa : ℕ → ℕ) (pp nn i : ℕ) :
    slide mtfa pp nn i = if pp < i ∧ i ≤ pp + nn then mtfa (i - 1) else mtfa i := by
  induction nn generalizing mtfa with
  | zero =>
    rw [slide, if_neg (by omega)]
  | succ nn ih =>
    rw [slide, ih]
    by_cases hlast : i = pp + nn + 1
    · rw [if_neg (by omega), if_pos (by omega), hlast, Function.update_self]
      rfl
    · by_cases hin : pp < i ∧ i ≤ pp + nn
      · rw [if_pos hin, if_pos (by omega), Function.update_of_ne (by omega)]
      · rw [if_neg hin, if_neg (by omega), Function.update_of_ne hlast]

/-- Four bytes at a time or one after another, it is the same. -/
lemma slide4_eq (mtfa : ℕ → ℕ) (pp nn : ℕ) : slide4 mtfa pp nn = slide mtfa pp nn := by
  induction mtfa, nn using slide4.induct pp with
  | case1 mtfa nn h z mtfa₁ mtfa₂ mtfa₃ mtfa₄ ih =>
    rw [slide4, if_pos h]
    refine ih.trans ?_
    obtain ⟨m, rfl⟩ : ∃ m, nn = m + 4 := ⟨nn - 4, by omega⟩
    rfl
  | case2 mtfa nn h =>
    rw [slide4, if_neg h]

/-- The byte before each line is the last one of the line below, and nothing else has changed. -/
lemma carry_spec (lno : ℕ) (s : MtfArrays)
    (h : ∀ l < lno, s.mtfbase l + 16 ≤ s.mtfbase (l + 1)) :
    (∀ l, (carry lno s).mtfbase l =
      if 1 ≤ l ∧ l ≤ lno then s.mtfbase l - 1 else s.mtfbase l) ∧
    (∀ l < lno, (carry lno s).mtfa (s.mtfbase (l + 1) - 1) = s.mtfa (s.mtfbase l + 15)) ∧
    ∀ i, (∀ l < lno, i ≠ s.mtfbase (l + 1) - 1) → (carry lno s).mtfa i = s.mtfa i := by
  induction lno generalizing s with
  | zero =>
    refine ⟨fun l => ?_, fun l hl => absurd hl (Nat.not_lt_zero l), fun i _ => rfl⟩
    rw [if_neg (by omega)]
    rfl
  | succ lno ih =>
    have hother : ∀ l ≤ lno, Function.update s.mtfbase (lno + 1) (s.mtfbase (lno + 1) - 1) l =
        s.mtfbase l := fun l hl => Function.update_of_ne (by omega) _ _
    have hlast : s.mtfbase lno + 16 ≤ s.mtfbase (lno + 1) := h lno (Nat.lt_succ_self lno)
    obtain ⟨hbase, hcarried, hkept⟩ := ih
      ⟨Function.update s.mtfa (s.mtfbase (lno + 1) - 1) (s.mtfa (s.mtfbase lno + 15)),
        Function.update s.mtfbase (lno + 1) (s.mtfbase (lno + 1) - 1)⟩ fun l hl => by
          dsimp only
          rw [hother l (by omega), hother (l + 1) (by omega)]
          exact h l (by omega)
    have hstep : carry (lno + 1) s = carry lno
        ⟨Function.update s.mtfa (s.mtfbase (lno + 1) - 1) (s.mtfa (s.mtfbase lno + 15)),
          Function.update s.mtfbase (lno + 1) (s.mtfbase (lno + 1) - 1)⟩ := by
      rw [carry]
      rw [Function.update_self, hother lno (le_refl lno), MTFL_SIZE]
      rfl
    rw [hstep]
    dsimp only at hbase hcarried hkept
    refine ⟨fun l => ?_, fun l hl => ?_, fun i hi => ?_⟩
    · rw [hbase]
      by_cases heq : l = lno + 1
      · rw [if_neg (by omega), if_pos (by omega), heq, Function.update_self]
      · rw [Function.update_of_ne heq]
        by_cases hin : 1 ≤ l ∧ l ≤ lno
        · rw [if_pos hin, if_pos (by omega)]
        · rw [if_neg hin, if_neg (by omega)]
    · rcases Nat.lt_succ_iff_lt_or_eq.mp hl with hl | rfl
      · have hle := base_add_le h (show l + 1 ≤ lno by omega) (by omega)
        have hbelow := h l (by omega)
        have hthis := hcarried l hl
        rw [hother l (by omega), hother (l + 1) (by omega),
          Function.update_of_ne (by omega)] at hthis
        exact hthis
      · rw [hkept, Function.update_self]
        intro m hm
        have hle := base_add_le h (show m + 1 ≤ l by omega) (by omega)
        rw [hother (m + 1) (by omega)]
        omega
    · rw [hkept, Function.update_of_ne (hi lno (Nat.lt_succ_self lno))]
      intro l hl
      rw [hother (l + 1) (by omega)]
      exact hi l (by omega)

open MoveToFront

/-- The common case: only the first line has changed. -/
lemma mtf_first {s : MtfArrays} (h : s.WellPlaced) {nn : ℕ} (hnn : nn < 16) :
    (s.mtf nn).1 = s.order nn ∧ (s.mtf nn).2.WellPlaced ∧
      ∀ i < 256, (s.mtf nn).2.order i = toFront s.order nn i := by
  have hfirst : ∀ j < 16, s.order j = s.mtfa (s.mtfbase 0 + j) := by
    intro j hj
    have h0 := order_eq s (l := 0) hj
    rwa [Nat.mul_zero, Nat.zero_add] at h0
  have hmtf : s.mtf nn = (s.mtfa (s.mtfbase 0 + nn),
      ⟨Function.update (slide s.mtfa (s.mtfbase 0) nn) (s.mtfbase 0) (s.mtfa (s.mtfbase 0 + nn)),
        s.mtfbase⟩) := by
    rw [mtf, if_pos (by rwa [MTFL_SIZE])]
    dsimp only
    rw [slide4_eq]
  rw [hmtf]
  refine ⟨(hfirst nn hnn).symm, ⟨⟨h.apart, h.top⟩, h.pos⟩, fun i hi => ?_⟩
  obtain ⟨l, j, hj, rfl⟩ : ∃ l j, j < 16 ∧ i = 16 * l + j :=
    ⟨i / 16, i % 16, Nat.mod_lt _ (by omega), (Nat.div_add_mod i 16).symm⟩
  rw [order_eq _ hj]
  dsimp only
  rcases Nat.eq_zero_or_pos l with rfl | hl
  · rw [Nat.mul_zero, Nat.zero_add]
    rcases Nat.eq_zero_or_pos j with rfl | hpos
    · rw [Nat.add_zero, Function.update_self, toFront_zero, hfirst nn hnn]
    · rw [Function.update_of_ne (by omega), slide_spec]
      rcases Nat.lt_or_ge nn j with hlt | hge
      · rw [if_neg (by omega), toFront_of_lt hlt, hfirst j hj]
      · rw [if_pos (by omega), toFront_of_le hpos hge, hfirst (j - 1) (by omega)]
        congr 1
        omega
  · have hle := base_add_le h.apart (Nat.zero_le l) (show l ≤ 15 by omega)
    rw [Function.update_of_ne (by omega), slide_spec, if_neg (by omega), toFront_of_lt (by omega),
      order_eq s hj]

/-- The arrays of the general case, before the lines go back. -/
def moved (s : MtfArrays) (lno off : ℕ) : MtfArrays :=
  let t := carry lno ⟨slide s.mtfa (s.mtfbase lno) off,
    Function.update s.mtfbase lno (s.mtfbase lno + 1)⟩
  ⟨Function.update t.mtfa (t.mtfbase 0 - 1) (s.mtfa (s.mtfbase lno + off)),
    Function.update t.mtfbase 0 (t.mtfbase 0 - 1)⟩

lemma mtf_general (s : MtfArrays) {nn : ℕ} (h : ¬ nn < MTFL_SIZE) :
    s.mtf nn = (s.mtfa (s.mtfbase (nn / 16) + nn % 16),
      if (s.moved (nn / 16) (nn % 16)).mtfbase 0 = 0 then (s.moved (nn / 16) (nn % 16)).goBack
      else s.moved (nn / 16) (nn % 16)) := by
  rw [mtf, if_neg h, moved, MTFL_SIZE]
  simp only [Function.update_self]

lemma moved_spec {s : MtfArrays} (h : s.WellPlaced) {lno off : ℕ} (hpos : 0 < lno) (hlno : lno < 16)
    (hoff : off < 16) :
    (s.moved lno off).Apart ∧
      ∀ i < 256, (s.moved lno off).order i = toFront s.order (16 * lno + off) i := by
  have hle : ∀ {l m : ℕ}, l ≤ m → m ≤ 15 → s.mtfbase l + 16 * (m - l) ≤ s.mtfbase m :=
    fun hlm hm => base_add_le h.apart hlm hm
  have hfirst := h.pos
  -- where the lines of `carry` begin: line `lno` one further on, so that it is moved back
  have hbase₁ : ∀ l, l ≠ lno →
      Function.update s.mtfbase lno (s.mtfbase lno + 1) l = s.mtfbase l :=
    fun l hl => Function.update_of_ne hl _ _
  have hself₁ : Function.update s.mtfbase lno (s.mtfbase lno + 1) lno = s.mtfbase lno + 1 :=
    Function.update_self _ _ _
  obtain ⟨hbase, hcarried, hkept⟩ := carry_spec lno
    ⟨slide s.mtfa (s.mtfbase lno) off, Function.update s.mtfbase lno (s.mtfbase lno + 1)⟩
    fun l hl => by
      dsimp only
      have hnext := h.apart l (by omega)
      rw [hbase₁ l (by omega)]
      by_cases hlast : l + 1 = lno
      · rw [hlast, hself₁, ← hlast]
        omega
      · rw [hbase₁ (l + 1) hlast]
        exact hnext
  dsimp only at hbase hcarried hkept
  generalize ht : carry lno ⟨slide s.mtfa (s.mtfbase lno) off,
    Function.update s.mtfbase lno (s.mtfbase lno + 1)⟩ = t at hbase hcarried hkept
  have hmoved : s.moved lno off =
      ⟨Function.update t.mtfa (s.mtfbase 0 - 1) (s.mtfa (s.mtfbase lno + off)),
        Function.update t.mtfbase 0 (s.mtfbase 0 - 1)⟩ := by
    have hzero : t.mtfbase 0 = s.mtfbase 0 := by
      rw [hbase, if_neg (by omega), hbase₁ 0 (by omega)]
    rw [moved, ht, hzero]
  have hdown : ∀ l < lno, (s.moved lno off).mtfbase l = s.mtfbase l - 1 := by
    intro l hl
    rw [hmoved]
    dsimp only
    rcases Nat.eq_zero_or_pos l with rfl | hl0
    · rw [Function.update_self]
    · rw [Function.update_of_ne hl0.ne', hbase, if_pos (by omega), hbase₁ l hl.ne]
  have hstay : ∀ l, lno ≤ l → (s.moved lno off).mtfbase l = s.mtfbase l := by
    intro l hl
    rw [hmoved]
    dsimp only
    rw [Function.update_of_ne (by omega), hbase]
    rcases hl.eq_or_lt with rfl | hlt
    · rw [if_pos (by omega), hself₁, Nat.add_sub_cancel]
    · rw [if_neg (by omega), hbase₁ l hlt.ne']
  -- the first byte of a line comes from the line below
  have hcell : ∀ l < lno, t.mtfa (if l + 1 = lno then s.mtfbase lno else s.mtfbase (l + 1) - 1) =
      s.order (16 * l + 15) := by
    intro l hl
    have hbelow := hle (show l ≤ lno by omega) (by omega)
    have hthis := hcarried l hl
    rw [hbase₁ l hl.ne, slide_spec, if_neg (by omega)] at hthis
    rw [order_eq s (by omega), ← hthis]
    by_cases hlast : l + 1 = lno
    · rw [if_pos hlast, hlast, hself₁, Nat.add_sub_cancel]
    · rw [if_neg hlast, hbase₁ (l + 1) hlast]
  have hsame : ∀ i, (∀ l < lno, i ≠ if l + 1 = lno then s.mtfbase lno else s.mtfbase (l + 1) - 1) →
      t.mtfa i = slide s.mtfa (s.mtfbase lno) off i := by
    intro i hi
    refine hkept i fun l hl => ?_
    have hthis := hi l hl
    by_cases hlast : l + 1 = lno
    · rw [if_pos hlast] at hthis
      rwa [hlast, hself₁, Nat.add_sub_cancel]
    · rw [if_neg hlast] at hthis
      rwa [hbase₁ (l + 1) hlast]
  have hmtfa : ∀ i, i ≠ s.mtfbase 0 - 1 → (s.moved lno off).mtfa i = t.mtfa i := by
    intro i hi
    rw [hmoved]
    exact Function.update_of_ne hi _ _
  constructor
  · constructor
    · intro l hl
      have hnext := h.apart l hl
      have hzero := hle (Nat.zero_le l) (by omega)
      rcases Nat.lt_or_ge (l + 1) lno with hlt | hge
      · rw [hdown l (by omega), hdown (l + 1) hlt]
        omega
      · rw [hstay (l + 1) hge]
        rcases Nat.lt_or_ge l lno with hlt | hge'
        · rw [hdown l hlt]
          omega
        · rw [hstay l hge']
          exact hnext
    · rw [hstay 15 (by omega)]
      exact h.top
  · intro i hi
    obtain ⟨l, j, hj, rfl⟩ : ∃ l j, j < 16 ∧ i = 16 * l + j :=
      ⟨i / 16, i % 16, Nat.mod_lt _ (by omega), (Nat.div_add_mod i 16).symm⟩
    have hl15 : l ≤ 15 := by omega
    have hzero := hle (Nat.zero_le l) hl15
    rw [order_eq _ hj]
    rcases Nat.lt_trichotomy l lno with hlt | rfl | hgt
    · have hlast := hle hlt.le (by omega)
      rw [hdown l hlt]
      rcases Nat.eq_zero_or_pos j with rfl | hj0
      · rcases Nat.eq_zero_or_pos l with rfl | hl0
        · rw [hmoved]
          dsimp only
          rw [Nat.add_zero, Function.update_self, Nat.mul_zero, toFront_zero, order_eq s hoff]
        · have hthis := hcell (l - 1) (by omega)
          rw [Nat.sub_add_cancel hl0, if_neg hlt.ne] at hthis
          rw [Nat.add_zero, Nat.add_zero, hmtfa _ (by omega), hthis,
            toFront_of_le (by omega) (by omega)]
          congr 1
          omega
      · rw [hmtfa _ (by omega), hsame, slide_spec, if_neg (by omega),
          toFront_of_le (by omega) (by omega),
          show 16 * l + j - 1 = 16 * l + (j - 1) by omega, order_eq s (by omega)]
        · congr 1
          omega
        · intro m hm
          rcases Nat.lt_or_ge m l with hml | hml
          · have hbelow := hle (show m + 1 ≤ l by omega) hl15
            split_ifs <;> omega
          · have habove := hle (show l ≤ m + 1 by omega) (by omega)
            split_ifs with hm'
            · omega
            · omega
    · have hother : ∀ m < l, ∀ c, s.mtfbase l < c →
          c ≠ if m + 1 = l then s.mtfbase l else s.mtfbase (m + 1) - 1 := by
        intro m hm c hc
        have hbelow := hle (show m + 1 ≤ l by omega) hl15
        split_ifs <;> omega
      rw [hstay l (le_refl l)]
      rcases Nat.eq_zero_or_pos j with rfl | hj0
      · have hthis := hcell (l - 1) (by omega)
        rw [Nat.sub_add_cancel hpos, if_pos rfl] at hthis
        rw [Nat.add_zero, Nat.add_zero, hmtfa _ (by omega), hthis,
          toFront_of_le (by omega) (by omega)]
        congr 1
        omega
      · rw [hmtfa _ (by omega), hsame _ fun m hm => hother m hm _ (by omega), slide_spec]
        rcases Nat.lt_or_ge off j with hlt | hge
        · rw [if_neg (by omega), toFront_of_lt (by omega), order_eq s hj]
        · rw [if_pos (by omega), toFront_of_le (by omega) (by omega),
            show 16 * l + j - 1 = 16 * l + (j - 1) by omega, order_eq s (by omega)]
          congr 1
          omega
    · have habove := hle hgt.le hl15
      have hother : ∀ m < lno,
          s.mtfbase l + j ≠ if m + 1 = lno then s.mtfbase lno else s.mtfbase (m + 1) - 1 := by
        intro m hm
        have hbelow := hle (show m + 1 ≤ lno by omega) (by omega)
        split_ifs <;> omega
      rw [hstay l hgt.le, hmtfa _ (by omega), hsame _ hother, slide_spec, if_neg (by omega),
        toFront_of_lt (by omega), order_eq s hj]

/-- **The byte at the place is found, and moves to the front.** -/
theorem mtf_spec {s : MtfArrays} (h : s.WellPlaced) {nn : ℕ} (hnn : nn < 256) :
    (s.mtf nn).1 = s.order nn ∧ (s.mtf nn).2.WellPlaced ∧
      ∀ i < 256, (s.mtf nn).2.order i = toFront s.order nn i := by
  by_cases hfirst : nn < MTFL_SIZE
  · exact mtf_first h hfirst
  · have hge : 16 ≤ nn := not_lt.mp hfirst
    have hoff : nn % 16 < 16 := Nat.mod_lt _ (by omega)
    obtain ⟨hapart, horder⟩ := moved_spec h (show 0 < nn / 16 by omega) (by omega) hoff
    rw [Nat.div_add_mod] at horder
    rw [mtf_general s hfirst]
    refine ⟨rfl, ?_⟩
    dsimp only
    by_cases hzero : (s.moved (nn / 16) (nn % 16)).mtfbase 0 = 0
    · rw [if_pos hzero]
      obtain ⟨hplaced, hsame⟩ := goBack_spec hapart
      exact ⟨hplaced, fun i hi => (hsame i hi).trans (horder i hi)⟩
    · rw [if_neg hzero]
      exact ⟨⟨hapart, Nat.pos_of_ne_zero hzero⟩, horder⟩

/-- The bytes at places, each of which moves to the front. -/
def bytesAt (s : MtfArrays) : List ℕ → List ℕ
  | [] => []
  | nn :: ks => (s.mtf nn).1 :: (s.mtf nn).2.bytesAt ks

lemma bytesAt_eq {s : MtfArrays} (h : s.WellPlaced) {f : ℕ → ℕ} (hf : ∀ i < 256, s.order i = f i)
    {ks : List ℕ} (hks : ∀ k ∈ ks, k < 256) : s.bytesAt ks = letters f ks := by
  induction ks generalizing s f with
  | nil => rfl
  | cons k ks ih =>
    have hk := hks k List.mem_cons_self
    obtain ⟨hbyte, hplaced, horder⟩ := mtf_spec h hk
    rw [bytesAt, letters, hbyte, hf k hk, ih hplaced fun i hi => ?_]
    · exact fun i hi => hks i (List.mem_cons_of_mem k hi)
    · rw [horder i hi, toFront, toFront]
      split_ifs
      · exact hf k hk
      · exact hf _ (by omega)
      · exact hf i hi

lemma foldl_mtf_wellPlaced {s : MtfArrays} (h : s.WellPlaced) {ks : List ℕ}
    (hks : ∀ k ∈ ks, k < 256) : (ks.foldl (fun s nn => (s.mtf nn).2) s).WellPlaced := by
  induction ks generalizing s with
  | nil => exact h
  | cons k ks ih =>
    exact ih (mtf_spec h (hks k List.mem_cons_self)).2.1
      fun i hi => hks i (List.mem_cons_of_mem k hi)

/-- **Two levels are as good as one**: for any places, the bytes are those of a plain row of 256
bytes in which each byte that is named moves to the front, and the lines stay apart. -/
theorem bytesAt_init (s : MtfArrays) {ks : List ℕ} (hks : ∀ k ∈ ks, k < 256) :
    s.init.bytesAt ks = letters (fun i => i) ks ∧
      (ks.foldl (fun s nn => (s.mtf nn).2) s.init).WellPlaced :=
  ⟨bytesAt_eq (init_spec s).1 (init_spec s).2 hks, foldl_mtf_wellPlaced (init_spec s).1 hks⟩

theorem bytesAt_init_three :
    (init ⟨fun _ => 0, fun _ => 0⟩).bytesAt [5, 200, 17] =
      letters (fun i => i) [5, 200, 17] :=
  (bytesAt_init ⟨fun _ => 0, fun _ => 0⟩ (by decide)).1

end MtfArrays

end Bzip2
end ClamavWin32
